import Elastic.Disk.Path
import Mathlib.Data.List.Induction

namespace Elastic.Path

/-! Joined paths and their parents, segment by segment. A relative path after a base adds its
segments to those of the base, a slash at the end of the base aside. -/

variable {base path : Path}

theorem segmentsOf_ne_nil (text : List Char) : segmentsOf text ≠ [] := by
  cases text with
  | nil => simp [segmentsOf]
  | cons c rest =>
      simp only [segmentsOf]
      split
      · simp
      · split <;> simp

theorem segmentsOf_append (front back : List Char) :
    segmentsOf (front ++ '/' :: back) = segmentsOf front ++ segmentsOf back := by
  induction front with
  | nil => simp [segmentsOf]
  | cons c rest ih =>
      by_cases slash : c = '/'
      · simp [segmentsOf, slash, ih]
      · obtain ⟨head, tail, same⟩ := List.exists_cons_of_ne_nil (segmentsOf_ne_nil rest)
        simp [segmentsOf, slash, ih, same]

theorem intercalate_segmentsOf (text : List Char) :
    ['/'].intercalate (segmentsOf text) = text := by
  induction text with
  | nil => simp [segmentsOf]
  | cons c rest ih =>
      obtain ⟨head, tail, same⟩ := List.exists_cons_of_ne_nil (segmentsOf_ne_nil rest)
      rw [same] at ih
      by_cases slash : c = '/'
      · simp [segmentsOf, slash, same, ih, List.intercalate_cons_cons]
      · cases tail <;> simp_all [segmentsOf, List.intercalate_cons_cons]

theorem segmentsOf_plain {text : List Char} (plain : '/' ∉ text) : segmentsOf text = [text] := by
  induction text with
  | nil => rfl
  | cons c rest ih =>
      simp only [List.mem_cons, not_or] at plain
      simp [segmentsOf, ih plain.2, Ne.symm plain.1]

theorem segmentsOf_intercalate {names : List (List Char)} (nonempty : names ≠ [])
    (plain : ∀ name ∈ names, '/' ∉ name) : segmentsOf (['/'].intercalate names) = names := by
  induction names with
  | nil => exact absurd rfl nonempty
  | cons name rest ih =>
      cases rest with
      | nil => simpa using segmentsOf_plain (plain name (by simp))
      | cons second rest =>
          have later := ih (by simp) fun name member => plain name (by simp [member])
          rw [List.intercalate_cons_cons, List.append_assoc, List.singleton_append,
            segmentsOf_append, later, segmentsOf_plain (plain name (by simp)),
            List.singleton_append]

theorem not_mem_of_mem_segmentsOf {text name : List Char} (member : name ∈ segmentsOf text) :
    '/' ∉ name := by
  induction text generalizing name with
  | nil => simp_all [segmentsOf]
  | cons c rest ih =>
      obtain ⟨head, tail, same⟩ := List.exists_cons_of_ne_nil (segmentsOf_ne_nil rest)
      rw [same] at ih
      by_cases slash : c = '/'
      · simp only [segmentsOf, slash, if_true, same, List.mem_cons] at member
        rcases member with rfl | later
        · simp
        · exact ih (by simpa using later)
      · simp only [segmentsOf, slash, if_false, same, List.mem_cons] at member
        rcases member with rfl | later
        · simpa [Ne.symm slash] using ih (List.mem_cons_self ..)
        · exact ih (by simp [later])

theorem segments_ne_nil (path : Path) : segments path ≠ [] := by
  simp [segments, segmentsOf_ne_nil]

theorem not_mem_of_mem_segments {path : Path} {name : String} (member : name ∈ segments path) :
    '/' ∉ name.toList := by
  obtain ⟨text, inside, rfl⟩ := List.mem_map.1 member
  simpa using not_mem_of_mem_segmentsOf inside

theorem segments_ofSegments {names : List String} (nonempty : names ≠ [])
    (plain : ∀ name ∈ names, '/' ∉ name.toList) : segments (ofSegments names) = names := by
  rw [segments, ofSegments, String.toList_intercalate, show "/".toList = ['/'] from rfl,
    segmentsOf_intercalate (by simpa using nonempty) (by simpa using plain)]
  simp [List.map_map, Function.comp_def]

theorem ofSegments_segments (path : Path) : ofSegments (segments path) = path := by
  apply String.toList_injective
  rw [ofSegments, String.toList_intercalate, show "/".toList = ['/'] from rfl, segments]
  simp [List.map_map, Function.comp_def, intercalate_segmentsOf]

theorem segments_injective : Function.Injective segments := by
  intro first second same
  rw [← ofSegments_segments first, same, ofSegments_segments]

theorem isAbsolute_iff (path : Path) :
    isAbsolute path = true ↔ ∃ second rest, segments path = "" :: second :: rest := by
  have empty : ∀ text : List Char, String.ofList text = "" ↔ text = [] := by simp
  unfold isAbsolute segments
  cases path.toList with
  | nil => simp [segmentsOf]
  | cons c rest =>
      obtain ⟨head, tail, same⟩ := List.exists_cons_of_ne_nil (segmentsOf_ne_nil rest)
      by_cases slash : c = '/' <;> simp [segmentsOf, slash, same, empty]

def lead (path : Path) : List String :=
  if path.toList.getLast? = some '/' then (segments path).dropLast else segments path

theorem segments_of_slash {front : List Char} (ended : path.toList = front ++ ['/']) :
    segments path = (segmentsOf front).map String.ofList ++ [""] := by
  simp [segments, ended, segmentsOf_append front [], segmentsOf]

theorem segments_eq_lead (path : Path) :
    segments path = lead path ∨ segments path = lead path ++ [""] := by
  unfold lead
  split
  · next ended =>
      obtain ⟨front, same⟩ := List.getLast?_eq_some_iff.1 ended
      right
      simp [segments_of_slash same]
  · exact .inl rfl

theorem lead_ne_nil (path : Path) : lead path ≠ [] := by
  unfold lead
  split
  · next ended =>
      obtain ⟨front, same⟩ := List.getLast?_eq_some_iff.1 ended
      simp [segments_of_slash same, segmentsOf_ne_nil]
  · exact segments_ne_nil path

theorem lead_eq_segments (ended : (segments path).getLast? ≠ some "") :
    lead path = segments path := by
  apply if_neg
  intro slash
  obtain ⟨front, same⟩ := List.getLast?_eq_some_iff.1 slash
  simp [segments_of_slash same] at ended

theorem segments_join (named : base ≠ "") (relative : isAbsolute path = false) :
    segments (join base path) = lead base ++ segments path := by
  have filled : base.isEmpty = false := by simpa using named
  unfold join lead
  rw [if_neg (by simp [relative]), filled, Bool.false_or]
  by_cases ended : base.toList.getLast? = some '/'
  · obtain ⟨front, same⟩ := List.getLast?_eq_some_iff.1 ended
    rw [if_pos (by simpa using ended), if_pos ended, segments_of_slash same, List.dropLast_concat]
    simp [segments, same, segmentsOf_append]
  · rw [if_neg (by simpa using ended), if_neg ended]
    simp [segments, segmentsOf_append]

theorem isAbsolute_join (named : base ≠ "") (relative : isAbsolute path = false) :
    isAbsolute (join base path) = isAbsolute base := by
  have filled : base.toList ≠ [] := by simpa using named
  obtain ⟨c, rest, same⟩ := List.exists_cons_of_ne_nil filled
  unfold join
  rw [if_neg (by simp [relative])]
  split <;> simp [isAbsolute, same]

def isSolid (segment : String) : Bool := !isIdle segment && !isUpward segment

theorem isAbsolute_of_solid (solid : ∀ segment ∈ segments path, isSolid segment = true) :
    isAbsolute path = false := by
  apply Bool.eq_false_iff.2
  intro absolute
  obtain ⟨second, rest, same⟩ := (isAbsolute_iff path).1 absolute
  simpa [isSolid, isIdle] using solid "" (by simp [same])

theorem ne_empty_of_solid {front names : List String} (split : segments path = front ++ names)
    (nonempty : names ≠ []) (solid : ∀ name ∈ names, isSolid name = true) : path ≠ "" := by
  rintro rfl
  obtain ⟨last, member⟩ := List.exists_mem_of_ne_nil names nonempty
  have only : last ∈ segments "" := by simp [split, member]
  have empty : last = "" := by simpa [segments, segmentsOf] using only
  simpa [empty, isSolid, isIdle] using solid last member

theorem lead_of_solid {front names : List String} (split : segments path = front ++ names)
    (nonempty : names ≠ []) (solid : ∀ name ∈ names, isSolid name = true) :
    lead path = front ++ names := by
  rw [← split]
  apply lead_eq_segments
  rw [split, List.getLast?_append, List.getLast?_eq_some_getLast nonempty]
  intro ended
  have empty : names.getLast nonempty = "" := by simpa using ended
  simpa [isSolid, isIdle] using solid "" (empty ▸ List.getLast_mem nonempty)

theorem filter_dropTrailingIdle (names : List String) :
    (dropTrailingIdle names).filter (!isIdle ·) = names.filter (!isIdle ·) := by
  unfold dropTrailingIdle
  induction names using List.reverseRecOn with
  | nil => rfl
  | append_singleton front name ih =>
      by_cases idle : isIdle name = true
      · simpa [List.filter_append, idle] using ih
      · simp [idle]

theorem dropTrailingIdle_concat (front : List String) {name : String}
    (solid : isIdle name = false) : dropTrailingIdle (front ++ [name]) = front ++ [name] := by
  simp [dropTrailingIdle, solid]

theorem mem_of_mem_dropTrailingIdle {names : List String} {name : String}
    (member : name ∈ dropTrailingIdle names) : name ∈ names := by
  unfold dropTrailingIdle at member
  simpa using (List.dropWhile_sublist _).subset (List.mem_reverse.1 member)

theorem parent?_of_splitStart {start front : List String} {name : String}
    (split : splitStart path = (start, front ++ [name])) (solid : isIdle name = false) :
    parent? path = some (ofStart start (dropTrailingIdle front)) := by
  simp only [parent?, split, dropTrailingIdle_concat front solid]
  split
  · next none => simp at none
  · simp

theorem dropTrailingIdle_cons {head : String} (front : List String)
    (solid : isIdle head = false) :
    dropTrailingIdle (head :: front) = head :: dropTrailingIdle front := by
  unfold dropTrailingIdle
  rw [List.reverse_cons, List.dropWhile_append]
  split
  · next none => simp [List.isEmpty_iff.1 none, solid]
  · simp

theorem parent?_of_segments {head : String} {front : List String} {name : String}
    (split : segments path = head :: front ++ [name]) (solid : isIdle name = false) :
    parent? path = some (if head = "" ∧ dropTrailingIdle front = [] then "/"
      else ofSegments (head :: dropTrailingIdle front)) := by
  obtain ⟨second, rest, after⟩ : ∃ second rest, front ++ [name] = second :: rest :=
    List.exists_cons_of_ne_nil (by simp)
  rw [List.cons_append, after] at split
  by_cases empty : head = ""
  · have begins : splitStart path = ([""], front ++ [name]) := by
      rw [after]
      simp [splitStart, split, empty]
    rw [parent?_of_splitStart begins solid]
    cases dropTrailingIdle front <;> simp [ofStart, empty]
  · by_cases dot : head = "."
    · have begins : splitStart path = (["."], front ++ [name]) := by
        rw [after]
        simp [splitStart, split, dot]
      rw [parent?_of_splitStart begins solid]
      simp [ofStart, dot]
    · have begins : splitStart path = ([], head :: front ++ [name]) := by
        rw [List.cons_append, after]
        simp [splitStart, split, dot, empty]
      rw [parent?_of_splitStart begins solid,
        dropTrailingIdle_cons front (by simp [isIdle, empty, dot])]
      simp [ofStart, empty]

theorem exists_parent {front : List String} {name : String}
    (split : segments path = front ++ [name]) (inner : front ≠ []) (solid : isIdle name = false) :
    ∃ parent, parent? path = some parent ∧ parent ≠ "" ∧ isAbsolute parent = isAbsolute path ∧
      (segments parent).filter (!isIdle ·) = front.filter (!isIdle ·) := by
  obtain ⟨head, front, rfl⟩ := List.exists_cons_of_ne_nil inner
  refine ⟨_, parent?_of_segments split solid, ?_⟩
  have kept := filter_dropTrailingIdle front
  have rooted : isAbsolute path = true ↔ head = "" := by
    rw [isAbsolute_iff, split]
    cases front <;> simp
  split_ifs with root
  · obtain ⟨rfl, none⟩ := root
    rw [none] at kept
    refine ⟨by decide, by rw [rooted.2 rfl]; decide, ?_⟩
    simpa [isIdle, segments, segmentsOf] using kept
  · have unbroken : ∀ segment ∈ head :: dropTrailingIdle front, '/' ∉ segment.toList := by
      intro segment member
      have inside : segment ∈ segments path := by
        rw [split]
        apply List.mem_append_left
        exact (List.mem_cons.1 member).elim (· ▸ List.mem_cons_self)
          fun later => List.mem_cons_of_mem _ (mem_of_mem_dropTrailingIdle later)
      exact not_mem_of_mem_segments inside
    have same := segments_ofSegments (List.cons_ne_nil _ _) unbroken
    refine ⟨?_, ?_, ?_⟩
    · intro empty
      rw [empty] at same
      simp_all [segments, segmentsOf]
    · rw [Bool.eq_iff_iff, rooted, isAbsolute_iff, same]
      cases body : dropTrailingIdle front <;> simp_all
    · rw [same, List.filter_cons, List.filter_cons, kept]

end Elastic.Path
