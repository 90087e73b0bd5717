import Elastic.Command.Stimulus
import Elastic.Proofs.Sim.Lookups
import Elastic.Proofs.Text.Numerals

namespace Elastic

open Text

/-! Words of memories on the command line. The value stands after the first equals sign of the
argument and the address after the last colon in front of it, so a path is read as it stands if it
has no equals sign and does not begin with a blank. -/

namespace Text

variable {mark : Char} {text before after : List Char}

theorem splitFirst?_eq_some : splitFirst? mark text = some (before, after) ↔
    text = before ++ mark :: after ∧ mark ∉ before := by
  constructor
  · intro split
    induction text generalizing before with
    | nil => cases split
    | cons c rest induction =>
        unfold splitFirst? at split
        by_cases here : c = mark
        · rw [if_pos here] at split
          cases split
          exact ⟨by rw [here, List.nil_append], List.not_mem_nil⟩
        · rw [if_neg here] at split
          obtain ⟨⟨front, back⟩, inner, equal⟩ := Option.map_eq_some_iff.1 split
          cases equal
          obtain ⟨rfl, absent⟩ := induction inner
          exact ⟨rfl, List.not_mem_cons_of_ne_of_not_mem (Ne.symm here) absent⟩
  · intro parts
    obtain ⟨rfl, absent⟩ := parts
    exact splitFirst?_append after absent

theorem splitLast?_eq_some : splitLast? mark text = some (before, after) ↔
    text = before ++ mark :: after ∧ mark ∉ after := by
  constructor
  · intro split
    obtain ⟨⟨back, front⟩, found, equal⟩ := Option.map_eq_some_iff.1 split
    cases equal
    obtain ⟨reversed, absent⟩ := splitFirst?_eq_some.1 found
    refine ⟨?_, fun member => absent (List.mem_reverse.1 member)⟩
    rw [← List.reverse_reverse text, reversed]
    simp
  · intro parts
    obtain ⟨rfl, absent⟩ := parts
    exact splitLast?_append before absent

theorem mem_trimChars {c : Char} (solid : isBlank c = false) : c ∈ trimChars text ↔ c ∈ text := by
  have kept (chars : List Char) : c ∈ chars.dropWhile isBlank ↔ c ∈ chars := by
    refine ⟨fun member => (List.dropWhile_sublist _).subset member, fun member => ?_⟩
    rw [← List.takeWhile_append_dropWhile (p := isBlank) (l := chars), List.mem_append] at member
    refine member.resolve_left fun front => ?_
    rw [List.mem_takeWhile_imp front] at solid
    cases solid
  rw [trimChars, List.mem_reverse, kept, List.mem_reverse, kept]

theorem solid_of_head?_trimChars {c : Char} (first : (trimChars text).head? = some c) :
    isBlank c = false := by
  have front : trimChars text <+: text.dropWhile isBlank := by
    have behind := List.dropWhile_suffix (l := (text.dropWhile isBlank).reverse) isBlank
    rw [← List.reverse_prefix, List.reverse_reverse] at behind
    exact behind
  obtain ⟨rest, whole⟩ := front
  have head := List.head?_dropWhile_not isBlank text
  rw [← whole, List.head?_append, first] at head
  exact head

theorem trimChars_append (front : List Char) (nonempty : after ≠ [])
    (solid : ∀ c ∈ after, isBlank c = false) :
    trimChars (front ++ after) = front.dropWhile isBlank ++ after := by
  have whole {chars : List Char} (nonempty : chars ≠ []) (solid : ∀ c ∈ chars, isBlank c = false)
      (rest : List Char) : (chars ++ rest).dropWhile isBlank = chars ++ rest := by
    obtain ⟨c, chars, rfl⟩ := List.exists_cons_of_ne_nil nonempty
    rw [List.cons_append, List.dropWhile_cons_of_neg]
    simp [solid c List.mem_cons_self]
  have forward : (front ++ after).dropWhile isBlank = front.dropWhile isBlank ++ after := by
    rw [List.dropWhile_append]
    split
    · rename_i vanished
      rw [List.isEmpty_iff.1 vanished, List.nil_append, ← List.append_nil after,
        whole nonempty solid]
    · rfl
  have backward := whole (List.reverse_ne_nil_iff.2 nonempty)
    (fun c member => solid c (List.mem_reverse.1 member)) (front.dropWhile isBlank).reverse
  rw [trimChars, forward, List.reverse_append, backward, List.reverse_append, List.reverse_reverse,
    List.reverse_reverse]

end Text

/-- A character of texts of paths that no name needs to have. -/
def AppPath.IsPunctuation (c : Char) : Prop :=
  c = '.' ∨ c = '[' ∨ c = ']' ∨ IsDigit c

theorem AppId.mem_text {id : AppId} {c : Char} (inner : ¬ AppPath.IsPunctuation c) :
    c ∈ id.text.toList ↔ c ∈ id.name.toList := by
  rw [toList_text, List.mem_append, or_iff_left]
  intro behind
  refine inner ?_
  unfold suffix at behind
  split at behind
  · cases behind
  · rw [List.mem_cons, List.mem_append, List.mem_singleton] at behind
    obtain first | digit | last := behind
    · exact .inr (.inl first)
    · exact .inr (.inr (.inr ((IsNumeral.toDigits (by decide) (by decide) _).isDigit c digit)))
    · exact .inr (.inr (.inl last))

namespace AppPath

variable {path : AppPath} {c : Char}

theorem mem_text (inner : ¬ IsPunctuation c) :
    c ∈ path.text.toList ↔ ∃ id ∈ path, c ∈ id.name.toList := by
  induction path with
  | nil => simp [text]
  | cons id rest induction =>
      by_cases last : rest = []
      · rw [last, toList_text, List.map_singleton, List.intercalate_singleton, AppId.mem_text inner]
        simp
      · have dot : c ≠ '.' := fun same => inner (.inl same)
        rw [toList_text_cons id last, List.mem_append, List.mem_cons, induction,
          AppId.mem_text inner, List.exists_mem_cons_iff]
        simp [dot]

theorem not_isPunctuation_equals : ¬ IsPunctuation '=' := by
  unfold IsPunctuation IsDigit
  decide

theorem exists_toList_text (root : AppId) (rest : AppPath) :
    ∃ tail, (text (root :: rest)).toList = root.name.toList ++ tail ∧
      ∀ c ∈ tail.head?, isBlank c = false := by
  have flush (more : List Char) (marked : ∀ c ∈ more.head?, isBlank c = false) :
      ∀ c ∈ (root.suffix ++ more).head?, isBlank c = false := by
    unfold AppId.suffix
    split
    · exact marked
    · rintro c ⟨⟩
      rfl
  by_cases last : rest = []
  · refine ⟨root.suffix ++ [], ?_, flush [] nofun⟩
    rw [last, toList_text, List.map_singleton, List.intercalate_singleton, AppId.toList_text,
      List.append_nil]
  · refine ⟨root.suffix ++ '.' :: (text rest).toList, ?_, flush _ ?_⟩
    · rw [toList_text_cons root last, AppId.toList_text, List.append_assoc]
    · rintro c ⟨⟩
      rfl

theorem solid_text (formed : ∀ id ∈ path, id.isWellFormed = true) :
    ∀ c ∈ path.text.toList, isBlank c = false := by
  intro c member
  by_contra blank
  rw [Bool.not_eq_false] at blank
  have inner : ¬ IsPunctuation c := by
    rintro (rfl | rfl | rfl | digit)
    · cases blank
    · cases blank
    · cases blank
    · rw [digit.not_blank] at blank
      cases blank
  obtain ⟨id, inside, named⟩ := (mem_text inner).1 member
  have plain := AppId.plain_of_isWellFormed (formed id inside) named
  rw [AppId.isReserved, blank, Bool.or_true] at plain
  cases plain

end AppPath

namespace Stimulus

variable {text name address value : List Char} {path : String} {place word : UInt64}

theorem number_eq_ok : number text = .ok word ↔ readWord text = .ok word := by
  unfold number
  cases readWord text with
  | error error => exact ⟨nofun, nofun⟩
  | ok held => simp [Except.mapError]

theorem assignment_eq_ok : assignment text = .ok (name, word) ↔ name ≠ [] ∧
    ∃ before after, text = before ++ '=' :: after ∧ '=' ∉ before ∧ trimChars before = name ∧
      readWord (trimChars after) = .ok word := by
  unfold assignment
  constructor
  · intro assigned
    split at assigned
    · cases assigned
    · rename_i before after split
      obtain ⟨rfl, absent⟩ := splitFirst?_eq_some.1 split
      dsimp only at assigned
      split at assigned
      · cases assigned
      · rename_i nonempty
        obtain ⟨held, known, equal⟩ := exists_of_map_ok assigned
        cases equal
        exact ⟨mt List.isEmpty_iff.2 nonempty, before, after, rfl, absent, rfl,
          number_eq_ok.1 known⟩
  · intro parts
    obtain ⟨nonempty, before, after, rfl, absent, rfl, known⟩ := parts
    rw [splitFirst?_append after absent]
    dsimp only
    rw [if_neg (mt List.isEmpty_iff.1 nonempty), number_eq_ok.2 known]
    rfl

theorem poke_eq_ok : poke text = .ok ⟨path, place, word⟩ ↔
    ∃ address, assignment text = .ok (path.toList ++ ':' :: address, word) ∧ ':' ∉ address ∧
      readWord address = .ok place := by
  unfold poke
  constructor
  · intro poked
    obtain ⟨⟨location, value⟩, assigned, poked⟩ := exists_of_bind_ok poked
    dsimp only at poked
    split at poked
    · cases poked
    · rename_i front address split
      obtain ⟨rfl, absent⟩ := splitLast?_eq_some.1 split
      obtain ⟨held, known, equal⟩ := exists_of_bind_ok poked
      cases equal
      rw [String.toList_ofList]
      exact ⟨address, assigned, absent, number_eq_ok.1 known⟩
  · intro parts
    obtain ⟨address, assigned, absent, known⟩ := parts
    simp only [assigned, bind, Except.bind, splitLast?_append _ absent, number_eq_ok.2 known, pure,
      Except.pure, String.ofList_toList]

def argument (path : String) (address value : List Char) : List Char :=
  path.toList ++ ':' :: (address ++ '=' :: value)

/-- What can stand in front of a colon and an equals sign: no equals sign itself, and no blank that
would be trimmed. -/
structure Nameable (path : String) : Prop where
  equalless : '=' ∉ path.toList
  flush : ∀ c ∈ path.toList.head?, isBlank c = false

theorem Nameable.dropWhile (nameable : Nameable path) :
    path.toList.dropWhile isBlank = path.toList := by
  cases chars : path.toList with
  | nil => rfl
  | cons c rest =>
      have solid := nameable.flush c (by rw [chars]; rfl)
      rw [List.dropWhile_cons_of_neg]
      simp [solid]

/-- A path that can stand there is read back, with its address and its value. -/
theorem poke_argument (nameable : Nameable path) (located : WritesWord place address)
    (valued : WritesWord word value) : poke (argument path address value) =
      .ok ⟨path, place, word⟩ := by
  have colon : ¬ IsDigit ':' := by unfold IsDigit; decide
  have equals : ¬ IsDigit '=' := by unfold IsDigit; decide
  have read := readWord_of_writes located
  have coda : ∀ c ∈ ':' :: address, isBlank c = false :=
    List.forall_mem_cons.2 ⟨rfl, located.solid⟩
  refine poke_eq_ok.2 ⟨address, assignment_eq_ok.2 ⟨by simp, path.toList ++ ':' :: address, value,
    ?_, ?_, ?_, ?_⟩, unmarked_of_readWord read (by decide) (by decide) colon, read⟩
  · simp [argument]
  · rw [List.mem_append, List.mem_cons]
    rintro (front | mark | inside)
    · exact nameable.equalless front
    · cases mark
    · exact unmarked_of_readWord read (by decide) (by decide) equals inside
  · rw [trimChars_append _ (List.cons_ne_nil _ _) coda, nameable.dropWhile]
  · rw [trimChars_of_no_blank valued.solid]
    exact readWord_of_writes valued

theorem nameable_of_poke (poked : poke text = .ok ⟨path, place, word⟩) : Nameable path := by
  obtain ⟨address, assigned, -, -⟩ := poke_eq_ok.1 poked
  obtain ⟨-, before, after, -, absent, trimmed, -⟩ := assignment_eq_ok.1 assigned
  refine ⟨fun member => absent ?_, fun c first => ?_⟩
  · rw [← mem_trimChars rfl, trimmed]
    exact List.mem_append_left _ member
  · have head : (trimChars before).head? = some c := by
      rw [trimmed, List.head?_append, first]
      rfl
    exact solid_of_head?_trimChars head

theorem refuses_argument (marked : '=' ∈ path.toList) :
    ∃ message, poke (argument path address value) = .error message := by
  obtain ⟨before, after, split, absent⟩ := List.eq_append_cons_of_mem marked
  cases poked : poke (argument path address value) with
  | error message => exact ⟨message, rfl⟩
  | ok taken =>
      obtain ⟨place, assigned, -, -⟩ := poke_eq_ok.1 poked
      obtain ⟨-, before', after', whole, absent', -, known⟩ := assignment_eq_ok.1 assigned
      have first : splitFirst? '=' (argument path address value) =
          some (before, after ++ ':' :: (address ++ '=' :: value)) := by
        refine splitFirst?_eq_some.2 ⟨?_, absent⟩
        rw [argument, split, List.append_assoc, List.cons_append]
      have second := splitFirst?_eq_some.2 ⟨whole, absent'⟩
      cases first.symm.trans second
      have colon : ':' ∈ trimChars (after ++ ':' :: (address ++ '=' :: value)) :=
        (mem_trimChars rfl).2 (List.mem_append_right _ List.mem_cons_self)
      have digit : ¬ IsDigit ':' := by unfold IsDigit; decide
      exact absurd colon (unmarked_of_readWord known (by decide) (by decide) digit)

theorem nameable_text {root : AppId} {rest : AppPath} :
    Nameable (AppPath.text (root :: rest)) ↔
      (∀ id ∈ root :: rest, '=' ∉ id.name.toList) ∧
        ∀ c ∈ root.name.toList.head?, isBlank c = false := by
  have equals : '=' ∉ (AppPath.text (root :: rest)).toList ↔
      ∀ id ∈ root :: rest, '=' ∉ id.name.toList := by
    rw [AppPath.mem_text AppPath.not_isPunctuation_equals]
    simp only [not_exists, not_and]
  have heads : (∀ c ∈ (AppPath.text (root :: rest)).toList.head?, isBlank c = false) ↔
      ∀ c ∈ root.name.toList.head?, isBlank c = false := by
    obtain ⟨tail, whole, flush⟩ := AppPath.exists_toList_text root rest
    rw [whole, List.head?_append]
    cases root.name.toList.head? with
    | none => simpa using flush
    | some c => rfl
  exact ⟨fun ⟨first, second⟩ => ⟨equals.1 first, heads.1 second⟩,
    fun ⟨first, second⟩ => ⟨equals.2 first, heads.2 second⟩⟩

/-- A path whose names are well-formed is read as it stands if there is no equals sign in them, and
is not read otherwise. Every memory of a compiled design is found, at any time, under its path; that
path can be given on the command line, with any address and value and however these are written, if
its names have no equals sign and the root's does not begin with a blank, and not otherwise. -/
theorem pokes_name_memories {place word : UInt64} {address value : List Char}
    (located : WritesWord place address) (valued : WritesWord word value) :
    (∀ path : AppPath, (∀ id ∈ path, id.isWellFormed = true) →
      ((∀ id ∈ path, '=' ∉ id.name.toList) →
        poke (argument path.text address value) = .ok ⟨path.text, place, word⟩) ∧
      ((∃ id ∈ path, '=' ∈ id.name.toList) →
        ∃ message, poke (argument path.text address value) = .error message)) ∧
    ∀ (setting : Setting) top graph, (generate setting top).outcome = .ok graph →
      ∀ name version names backend capabilities policy design warnings,
        CompiledDesign.compile name version graph names backend capabilities policy =
          (.ok design, warnings) →
      ∀ arbitration start, Simulator.withPolicy design arbitration = .ok start →
      ∀ index site, design.services.builtins[index]? = some site →
        (∀ actions, (start.after actions).memoryIndex (AppPath.text site.path) = .ok index) ∧
        ((∀ id ∈ site.path, '=' ∉ id.name.toList) ∧
            (∀ c ∈ top.toList.head?, isBlank c = false) →
          poke (argument (AppPath.text site.path) address value) =
            .ok ⟨AppPath.text site.path, place, word⟩) ∧
        ∀ text place' word', poke text = .ok ⟨AppPath.text site.path, place', word'⟩ →
          (∀ id ∈ site.path, '=' ∉ id.name.toList) ∧
            ∀ c ∈ top.toList.head?, isBlank c = false := by
  constructor
  · intro path formed
    have solid := AppPath.solid_text formed
    have marked : '=' ∈ path.text.toList ↔ _ := AppPath.mem_text AppPath.not_isPunctuation_equals
    constructor
    · intro equalless
      refine poke_argument ⟨fun member => ?_, fun c first => ?_⟩ located valued
      · obtain ⟨id, inside, equals⟩ := marked.1 member
        exact equalless id inside equals
      · exact solid c (List.mem_of_head? first)
    · exact fun equals => refuses_argument (marked.2 equals)
  · intro setting top graph generated name version names backend capabilities policy design
      warnings compiled arbitration start made index site here
    obtain ⟨rfl, resolved⟩ := CompiledDesign.resolve_of_compile compiled
    have addressed := Graph.addressed_of_generate generated
    have shows := (ServiceMap.lists_of_resolve resolved).shows_builtin site
      (List.mem_of_getElem? here)
    have finds := Simulator.finds_after addressed resolved made
    have standing := (ServiceMap.lists_of_resolve resolved).builtin_iff.1
      ⟨site, List.mem_of_getElem? here, rfl, rfl⟩
    obtain ⟨rest, path, -⟩ := addressed.below standing
    have nameable : Nameable (AppPath.text site.path) ↔ _ := path ▸ nameable_text
    refine ⟨fun actions => ((finds actions).memories _ _).2 ⟨site, here, shows⟩,
      fun clear => ?_, fun text place' word' poked => ?_⟩
    · exact poke_argument (nameable.2 (path ▸ clear)) located valued
    · exact path ▸ nameable.1 (nameable_of_poke poked)

theorem writesWord_seven : WritesWord 7 ['7'] ∧ WritesWord 7 ['0', 'x', '0', '7'] := by
  have hexadecimal : IsNumeral 16 (['0'] ++ ['7']) (0 * 16 + 7) := .snoc (.digit rfl) rfl
  exact ⟨.decimal (.digit rfl), .hexadecimal hexadecimal⟩

/-- The memory of a design is named in an argument; one below a name with an equals sign cannot
be. -/
theorem pokes_of_memory :
    poke "Top.mem:7=0x07".toList = .ok ⟨"Top.mem", 7, 7⟩ ∧
    (∃ message, poke "Top.a=b:7=7".toList = .error message) ∧
    ∃ design start site, design.services.builtins[0]? = some site ∧
      AppPath.text site.path = "Top.mem" ∧
      Simulator.withPolicy design .roundRobin = .ok start ∧
      start.memoryIndex "Top.mem" = .ok 0 ∧
      poke (argument "Top.mem" ['7'] ['7']) = .ok ⟨"Top.mem", 7, 7⟩ := by
  obtain ⟨decimal, hexadecimal⟩ := writesWord_seven
  obtain ⟨paths, -⟩ := pokes_name_memories decimal hexadecimal
  obtain ⟨paths', designs⟩ := pokes_name_memories decimal decimal
  have facts : ((MemoryDesign.hosted.simulation? "Top").bind fun made =>
      made.1.services.builtins[0]?.map fun site => site.path) =
      some [⟨"Top", none⟩, ⟨"mem", none⟩] := by
    decide +kernel
  obtain ⟨⟨design, start⟩, simulation, facts⟩ := Option.bind_eq_some_iff.1 facts
  obtain ⟨site, here, path⟩ := Option.map_eq_some_iff.1 facts
  obtain ⟨graph, generated, compiled, made⟩ := Setting.stages_of_simulation simulation
  obtain ⟨found, named⟩ := designs _ _ _ generated _ _ _ _ _ _ _ _ (Prod.ext compiled rfl) _ _ made
    0 site here
  have shown : AppPath.text site.path = "Top.mem" := by rw [path]; decide
  have solid : ∀ c ∈ "Top".toList.head?, isBlank c = false := by
    rintro c ⟨⟩
    decide
  rw [path] at named
  refine ⟨?_, ?_, design, start, site, here, shown, made, ?_, ?_⟩
  · exact (paths [⟨"Top", none⟩, ⟨"mem", none⟩] (by decide)).1 (by decide)
  · exact (paths' [⟨"Top", none⟩, ⟨"a=b", none⟩] (by decide)).2 (by decide)
  · exact shown ▸ found []
  · exact named.1 ⟨by decide, solid⟩

end Stimulus

end Elastic
