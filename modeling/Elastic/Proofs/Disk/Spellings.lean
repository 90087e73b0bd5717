import Elastic.Proofs.Disk.Places

namespace Elastic

/-! Paths in any spelling. Idle segments before the last segment of a path change neither where it
leads nor what is done through it; after one that ends in an idle segment there is never a file. -/

namespace Path

variable {first second path : Path} {names : List String}

/-- Paths that differ in idle segments only, of which none is the last. -/
structure Alike (first second : Path) : Prop where
  absolute : isAbsolute first = isAbsolute second
  split : ∃ front back name, segments first = front ++ [name] ∧ segments second = back ++ [name] ∧
    front ≠ [] ∧ back ≠ [] ∧ isIdle name = false ∧
    front.filter (!isIdle ·) = back.filter (!isIdle ·)

theorem isEmpty_of_split {front : List String} {name : String} (filled : front ≠ [])
    (split : segments path = front ++ [name]) : path.isEmpty = false := by
  apply Bool.eq_false_iff.2
  intro empty
  rw [String.isEmpty_iff.1 empty] at split
  have short := congrArg List.length split
  have long := List.length_pos_iff.2 filled
  simp only [segments, String.toList_empty, segmentsOf, List.map_cons, List.map_nil,
    List.length_cons, List.length_nil, List.length_append] at short
  omega

/-- A path from a directory to the names, with idle segments on the way or without. -/
structure Spells (names : List String) (path : Path) : Prop where
  contained : isContained path = true
  names : Path.names path = names
  busy : ∀ last ∈ (segments path).getLast?, isIdle last = false

instance (names : List String) (path : Path) : Decidable (Spells names path) :=
  decidable_of_iff
    (isContained path = true ∧ Path.names path = names ∧
      ∀ last ∈ (segments path).getLast?, isIdle last = false)
    ⟨fun all => ⟨all.1, all.2.1, all.2.2⟩, fun spells => ⟨spells.1, spells.2, spells.3⟩⟩

namespace Spells

theorem relative (spells : Spells names path) : isAbsolute path = false :=
  (isLevel_of_contained spells.contained).1

theorem level (spells : Spells names path) : IsLevel path :=
  (isLevel_of_contained spells.contained).2

theorem split (spells : Spells names path) : ∃ front name, segments path = front ++ [name] ∧
    isIdle name = false ∧ names = front.filter (!isIdle ·) ++ [name] := by
  obtain ⟨front, name, whole⟩ : ∃ front name, segments path = front ++ [name] :=
    ⟨_, _, (List.dropLast_concat_getLast (segments_ne_nil path)).symm⟩
  have busy : isIdle name = false := spells.busy name (by simp [whole])
  refine ⟨front, name, whole, busy, ?_⟩
  rw [← spells.names, Path.names, whole, List.filter_append,
    List.filter_cons_of_pos (by simp [busy])]
  rfl

theorem ne_nil (spells : Spells names path) : names ≠ [] := by
  obtain ⟨front, name, -, -, rfl⟩ := spells.split
  simp

theorem solid (spells : Spells names path) : ∀ name ∈ names, isSolid name = true := by
  intro name member
  rw [← spells.names] at member
  obtain ⟨inside, busy⟩ := List.mem_filter.1 member
  have level := spells.level name inside
  simpa [isSolid, level] using busy

theorem unbroken (spells : Spells names path) : ∀ name ∈ names, '/' ∉ name.toList := by
  intro name member
  rw [← spells.names] at member
  exact not_mem_of_mem_segments (List.mem_filter.1 member).1

theorem unique {other : List String} (spells : Spells names path) (spells' : Spells other path) :
    names = other :=
  spells.names.symm.trans spells'.names

end Spells

theorem spells_names (contained : isContained path = true) {front : List String} {name : String}
    (split : segments path = front ++ [name]) (busy : isIdle name = false) :
    Spells (Path.names path) path := by
  refine ⟨contained, rfl, ?_⟩
  rw [split, List.getLast?_concat]
  intro last same
  rwa [← Option.some.inj same]

end Path

namespace Disk

variable {disk after : Disk} {base location root : Location} {segments names : List String}
  {first second third fourth output path : Path}

theorem walk?_nowhere (closed : disk.isDirectoryAt base = false) (filled : segments ≠ []) :
    disk.walk? base segments = none := by
  obtain ⟨segment, rest, rfl⟩ := List.exists_cons_of_ne_nil filled
  simp [walk?, enter?, closed]

theorem walk?_idle {segment : String} (idle : Path.isIdle segment = true)
    (directory : disk.isDirectoryAt base = true) (rest : List String) :
    disk.walk? base (segment :: rest) = disk.walk? base rest := by
  simp [walk?, enter?, directory, idle]

theorem walk?_filter {name : String} (disk : Disk) (base : Location) (front : List String) :
    disk.walk? base (front ++ [name]) =
      disk.walk? base (front.filter (!Path.isIdle ·) ++ [name]) := by
  induction front generalizing base with
  | nil => rfl
  | cons segment rest ih =>
      by_cases idle : Path.isIdle segment = true
      · rw [List.filter_cons_of_neg (by simp [idle]), ← ih]
        by_cases directory : disk.isDirectoryAt base = true
        · exact walk?_idle idle directory (rest ++ [name])
        · have closed := Bool.eq_false_iff.2 directory
          rw [walk?_nowhere closed (by simp), walk?_nowhere closed (by simp)]
      · rw [List.filter_cons_of_pos (by simp [idle])]
        simp only [List.cons_append, walk?, ih]

theorem walk?_filter_directory (disk : Disk) (base : Location) (segments : List String) :
    (disk.walk? base segments).filter disk.isDirectoryAt =
      (disk.walk? base (segments.filter (!Path.isIdle ·))).filter disk.isDirectoryAt := by
  induction segments generalizing base with
  | nil => rfl
  | cons segment rest ih =>
      by_cases idle : Path.isIdle segment = true
      · rw [List.filter_cons_of_neg (by simp [idle]), ← ih]
        by_cases directory : disk.isDirectoryAt base = true
        · rw [walk?_idle idle directory]
        · have closed := Bool.eq_false_iff.2 directory
          rw [walk?_nowhere closed (by simp)]
          by_cases filled : rest = []
          · simp [filled, walk?, Option.filter_some, closed]
          · rw [walk?_nowhere closed filled]
      · rw [List.filter_cons_of_pos (by simp [idle])]
        simp only [walk?]
        cases disk.enter? base segment with
        | none => rfl
        | some next => exact ih next

theorem start_alike (alike : Path.Alike first second) : disk.start first = disk.start second := by
  unfold start
  rw [alike.absolute]

theorem locate?_alike (alike : Path.Alike first second) :
    disk.locate? first = disk.locate? second := by
  obtain ⟨front, back, name, split, split', filled, filled', -, same⟩ := alike.split
  rw [locate?, locate?, Path.isEmpty_of_split filled split, Path.isEmpty_of_split filled' split',
    start_alike alike, split, split', walk?_filter _ _ front, walk?_filter _ _ back, same]

theorem slot?_of_split {front : List String} {name : String}
    (split : Path.segments path = front ++ [name]) :
    disk.slot? path = if Path.isName name then
      ((disk.walk? (disk.start path) front).filter disk.isDirectoryAt).map (· ++ [name])
      else none := by
  have turned : (Path.segments path).reverse = name :: front.reverse := by simp [split]
  simp only [slot?, turned, List.reverse_reverse]
  by_cases named : Path.isName name = true
  · cases walked : disk.walk? (disk.start path) front with
    | none => simp [named]
    | some next =>
        by_cases directory : disk.isDirectoryAt next = true <;>
          simp [named, directory, Option.filter_some]
  · simp [named]

theorem slot?_alike (alike : Path.Alike first second) : disk.slot? first = disk.slot? second := by
  obtain ⟨front, back, name, split, split', -, -, -, same⟩ := alike.split
  rw [slot?_of_split split, slot?_of_split split', start_alike alike,
    walk?_filter_directory _ _ front, walk?_filter_directory _ _ back, same]

theorem isFile_alike (alike : Path.Alike first second) : disk.isFile first =
    disk.isFile second := by
  simp only [isFile, nodeOf?, locate?_alike alike]

theorem writeFile_alike (alike : Path.Alike first second) (contents : ByteArray) :
    writeFile first contents disk = writeFile second contents disk := by
  simp only [writeFile, slot?_alike alike]

theorem moveFile_alike (alike : Path.Alike first second) (alike' : Path.Alike third fourth) :
    moveFile first third disk = moveFile second fourth disk := by
  simp only [moveFile, locate?_alike alike, slot?_alike alike']

theorem removeFile_alike (disk : Disk) (alike : Path.Alike first second) :
    removeFile first disk = removeFile second disk := by
  simp only [removeFile, locate?_alike alike]

theorem parent_alike (disk : Disk) (alike : Path.Alike first second) :
    ∃ around around', Path.parent? first = some around ∧ Path.parent? second = some around' ∧
      makeDirectories around disk = makeDirectories around' disk := by
  obtain ⟨front, back, name, split, split', filled, filled', busy, same⟩ := alike.split
  obtain ⟨around, found, named, absolute, kept⟩ := Path.exists_parent split filled busy
  obtain ⟨around', found', named', absolute', kept'⟩ := Path.exists_parent split' filled' busy
  refine ⟨around, around', found, found', ?_⟩
  have begins : disk.start around = disk.start around' := by
    unfold start
    rw [absolute, absolute', alike.absolute]
  have filled : around.isEmpty = false := by simpa using named
  have filled' : around'.isEmpty = false := by simpa using named'
  rw [makeDirectories, makeDirectories, filled, filled', begins,
    makeAlong_filter _ _ (Path.segments around), makeAlong_filter _ _ (Path.segments around'), kept,
    kept', same]

theorem isDirectoryAt_of_idle {front : List String} {name : String}
    (split : Path.segments path = front ++ [name]) (idle : Path.isIdle name = true)
    (located : disk.locate? path = some location) : disk.isDirectoryAt location = true := by
  unfold locate? at located
  split at located
  · cases located
  · rw [split, walk?_append] at located
    obtain ⟨next, -, entered⟩ := Option.bind_eq_some_iff.1 located
    by_cases directory : disk.isDirectoryAt next = true
    · rw [walk?_idle idle directory] at entered
      rwa [← Option.some.inj entered]
    · rw [walk?_nowhere (Bool.eq_false_iff.2 directory) (by simp)] at entered
      cases entered

theorem busy_of_isFile {front : List String} {name : String}
    (split : Path.segments path = front ++ [name]) (file : disk.isFile path = true) :
    Path.isIdle name = false := by
  apply Bool.eq_false_iff.2
  intro idle
  unfold isFile nodeOf? at file
  cases located : disk.locate? path with
  | none => simp [located] at file
  | some location =>
      have directory := isDirectoryAt_iff.1 (isDirectoryAt_of_idle split idle located)
      simp [located, directory] at file

theorem busy_of_slot? {front : List String} {name : String}
    (split : Path.segments path = front ++ [name]) (found : disk.slot? path = some location) :
    Path.isIdle name = false := by
  rw [slot?_of_split split] at found
  by_cases named : Path.isName name = true
  · simp only [Path.isName, Bool.and_eq_true, Bool.not_eq_true'] at named
    exact named.1.1.1
  · simp [named] at found

theorem wider_makeAlong (made : disk.makeAlong base segments = some after) :
    disk.Wider after := by
  induction segments generalizing disk base with
  | nil =>
      simp only [makeAlong] at made
      split at made
      · rw [← Option.some.inj made]
        exact .refl disk
      · cases made
  | cons segment rest ih =>
      simp only [makeAlong] at made
      split at made
      · exact ih made
      · split at made
        · have first : disk.Wider (disk.put (base ++ [segment]) .directory) := by
            refine ⟨rfl, fun other directory => ?_⟩
            rw [isDirectoryAt_iff] at directory ⊢
            rw [node?_put disk other .directory (by simp)]
            split_ifs
            · rfl
            · exact directory
          exact first.trans (ih made)
        · cases made

theorem wider_makeDirectories (made : makeDirectories path disk = some after) :
    disk.Wider after := by
  unfold makeDirectories at made
  split at made
  · rw [← Option.some.inj made]
    exact .refl disk
  · exact wider_makeAlong made

theorem Admits.around (admits : disk.Admits base names) (filled : names ≠ []) :
    disk.isDirectoryAt (base ++ names).dropLast = true := by
  obtain ⟨front, name, rfl⟩ : ∃ front name, names = front ++ [name] :=
    ⟨_, _, (List.dropLast_concat_getLast filled).symm⟩
  rw [← List.append_assoc, List.dropLast_concat]
  exact (leads_concat.1 admits.1).2

theorem grounded_put {contents : ByteArray} (grounded : disk.Grounded) (filled : names ≠ [])
    (admits : disk.Admits base names) (free : disk.isDirectoryAt (base ++ names) = false) :
    (disk.put (base ++ names) (.file contents)).Grounded :=
  grounded.put (by simp [filled]) (admits.around filled) fun directory => by
    rw [free] at directory
    cases directory

theorem grounded_move {source : Location} {contents : ByteArray} (grounded : disk.Grounded)
    (held : disk.file? source = some contents) (inner : source ≠ []) (filled : names ≠ [])
    (admits : disk.Admits base names) (free : disk.isDirectoryAt (base ++ names) = false) :
    ((disk.erase source).put (base ++ names) (.file contents)).Grounded := by
  have wider := wider_erase inner (isDirectoryAt_of_file? held)
  apply grounded_put _ filled (admits.wider wider)
  · apply Bool.eq_false_iff.2
    intro directory
    rw [(erase_wider disk inner).directories _ directory] at free
    cases free
  · exact grounded.erase inner (grounded.clear_of_file (file?_eq_some_iff.1 held))

end Disk

end Elastic
