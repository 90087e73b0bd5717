import Elastic.Proofs.Package.Contest

namespace Elastic

open Disk Package

/-! What stands at the place of an artifact when a package is written. Listed paths are told from
the new ones by their spelling but set aside where they lead, so that a file that was just placed
goes again if the earlier index spells its path in another way. -/

namespace Commit

variable {root : Location} {output path : Path} {disk after : Disk} {commit : Commit}
  {names place : List String} {contents : ByteArray} {files stale : List Path}
    {staged held : Option ByteArray}

/-- What is staged for some names, and what stands at their place. -/
structure FilesAt (root : Location) (names : List String) (staged held : Option ByteArray)
    (disk : Disk) : Prop where
  staged : disk.file? (root ++ stagingName :: names) = staged
  held : disk.file? (root ++ names) = held

theorem FilesAt.opens (filesAt : FilesAt root names staged held disk) {along : List String}
    (opens : Opens root along disk after) : FilesAt root names staged held after :=
  ⟨(opens.makes.file? _).trans filesAt.staged, (opens.makes.file? _).trans filesAt.held⟩

theorem internal_ne {name : String} (internal : name ∈ internalNames)
    (visible : isInternal names = false) (filled : place ≠ []) : name :: place ≠ names := by
  rintro rfl
  obtain ⟨next, rest, rfl⟩ := List.exists_cons_of_ne_nil filled
  rw [isInternal, decide_eq_false_iff_not] at visible
  exact visible internal

theorem FilesAt.aside (filesAt : FilesAt root names staged held disk)
    (visible : isInternal names = false) (filled : place ≠ [])
    (shifts : Shifts root place (backupName :: place) disk after)
    (unstaged : place ≠ stagingName :: names) :
    FilesAt root names staged (if place = names then none else held) after := by
  constructor
  · rw [← filesAt.staged]
    apply shifts.file?_other (Ne.symm unstaged)
    intro same
    exact absurd (List.cons.inj same).1 (by decide)
  · split_ifs with here
    · subst here
      apply shifts.file?_source
      exact fun same => absurd (congrArg List.length same) (by simp)
    · rw [← filesAt.held]
      exact shifts.file?_other (Ne.symm here)
        (internal_ne backupName_internal visible filled).symm

theorem FilesAt.lay (filesAt : FilesAt root names staged held disk)
    (visible : isInternal names = false) (filled : place ≠ [])
    (shifts : Shifts root (stagingName :: place) place disk after)
    (unstaged : place ≠ stagingName :: names) (apart : place ≠ names) :
    FilesAt root names staged held after := by
  constructor
  · rw [← filesAt.staged]
    exact shifts.file?_other (fun same => apart (List.cons.inj same).2.symm) (Ne.symm unstaged)
  · rw [← filesAt.held]
    exact shifts.file?_other (internal_ne stagingName_internal visible filled).symm (Ne.symm apart)

section

variable (visible : isInternal names = false)

include visible

theorem ends_setAside_filesAt (orderly : Orderly output root commit.volume.disk)
    (filesAt : FilesAt root names staged held commit.volume.disk)
    (answers : commit.volume.LapsesOnlyIf False) (contained : Path.isContained path = true)
    (unstaged : Path.Spells (stagingName :: names) path → staged = none) :
    Ends (setAside output path) commit
      (fun _ after => Orderly output root after.volume.disk ∧
        FilesAt root names staged (if Path.Spells names path then none else held) after.volume.disk)
      (fun _ _ => True) := by
  apply ends_setAside_of orderly answers contained
  · intro missing volume same
    refine ⟨same ▸ orderly, same ▸ filesAt.staged, ?_⟩
    split_ifs with here
    · exact same ▸ missing names here
    · exact same ▸ filesAt.held
  · exact fun _ _ _ _ _ _ => trivial
  · intro place made volume spells standing opens shifts
    have orderly := orderly.opens opens
    have apart : place ≠ stagingName :: names := by
      rintro rfl
      rw [filesAt.staged, unstaged spells] at standing
      cases standing
    have moved := (filesAt.opens opens).aside visible spells.ne_nil shifts apart
    have iff : Path.Spells names path ↔ place = names :=
      ⟨fun spells' => spells.unique spells', fun same => same ▸ spells⟩
    simp only [iff]
    exact ⟨orderly.shifts shifts, moved⟩

theorem ends_place_filesAt (orderly : Orderly output root commit.volume.disk)
    (filesAt : FilesAt root names staged held commit.volume.disk)
    (answers : commit.volume.LapsesOnlyIf False) (spells : Path.Spells place path)
    (unstaged : place ≠ stagingName :: names) :
    Ends (Commit.place output path) commit
      (fun _ after => Orderly output root after.volume.disk ∧
        ((place ≠ names ∧ FilesAt root names staged held after.volume.disk) ∨
          (place = names ∧ ∃ contents, staged = some contents ∧
            FilesAt root names none (some contents) after.volume.disk)))
      (fun _ _ => True) := by
  apply ends_place_of spells (ends_setAside_filesAt visible orderly filesAt answers
    spells.contained fun spells' => absurd (spells.unique spells') unstaged)
  · exact fun _ ⟨orderly, _⟩ => orderly
  · exact fun _ _ _ _ _ => trivial
  · intro before made volume ⟨orderly, filesAt⟩ opens shifts
    refine ⟨(orderly.opens opens).shifts shifts, ?_⟩
    by_cases here : place = names
    · right
      subst here
      have staged_there := (filesAt.opens opens).staged
      have standing := shifts.held
      rw [staged_there] at standing
      obtain ⟨contents, known⟩ := Option.isSome_iff_exists.1 standing
      refine ⟨rfl, contents, known, ?_, ?_⟩
      · apply shifts.file?_source
        exact fun same => absurd (congrArg List.length same) (by simp)
      · rw [shifts.file?_target, staged_there, known]
    · left
      rw [if_neg fun spells' => here (spells.unique spells')] at filesAt
      exact ⟨here, (filesAt.opens opens).lay visible spells.ne_nil shifts unstaged here⟩

theorem ends_placeAll_done (orderly : Orderly output root commit.volume.disk)
    (filesAt : FilesAt root names none held commit.volume.disk)
    (answers : commit.volume.LapsesOnlyIf False)
    (spelled : ∀ path ∈ files, Path.Spells (Path.names path) path)
    (unstaged : ∀ path ∈ files, Path.names path ≠ stagingName :: names) :
    Ends (placeAll output files) commit
      (fun _ after => Orderly output root after.volume.disk ∧
        files.countP (Path.names · = names) = 0 ∧ FilesAt root names none held after.volume.disk)
      (fun _ _ => True) := by
  induction files generalizing commit with
  | nil => exact Ends.pure_iff.2 ⟨orderly, rfl, filesAt⟩
  | cons path rest ih =>
      obtain ⟨spells, spelled⟩ := List.forall_mem_cons.1 spelled
      obtain ⟨apart, unstaged⟩ := List.forall_mem_cons.1 unstaged
      apply (maintains_place_lapses output path).ends_bind answers
        (ends_place_filesAt visible orderly filesAt answers spells apart)
      · rintro _ after answers ⟨orderly, ⟨other, filesAt⟩ | ⟨-, contents, impossible, -⟩⟩
        · apply (ih orderly filesAt answers spelled unstaged).mono
          · rintro _ last ⟨orderly, none, filesAt⟩
            refine ⟨orderly, ?_, filesAt⟩
            rw [List.countP_cons_of_neg (by simpa using other)]
            exact none
          · exact fun _ _ _ => trivial
        · cases impossible
      · exact fun _ _ _ => trivial

/-- The staged file comes to its place if one path spells the names, and there is no way for two. -/
theorem ends_placeAll_filesAt (orderly : Orderly output root commit.volume.disk)
    (filesAt : FilesAt root names (some contents) held commit.volume.disk)
    (answers : commit.volume.LapsesOnlyIf False)
    (spelled : ∀ path ∈ files, Path.Spells (Path.names path) path)
    (unstaged : ∀ path ∈ files, Path.names path ≠ stagingName :: names)
    (present : ∃ path ∈ files, Path.names path = names) :
    Ends (placeAll output files) commit
      (fun _ after => Orderly output root after.volume.disk ∧
        files.countP (Path.names · = names) = 1 ∧
        FilesAt root names none (some contents) after.volume.disk)
      (fun _ _ => True) := by
  induction files generalizing commit with
  | nil =>
      obtain ⟨path, member, -⟩ := present
      cases member
  | cons path rest ih =>
      obtain ⟨spells, spelled⟩ := List.forall_mem_cons.1 spelled
      obtain ⟨apart, unstaged⟩ := List.forall_mem_cons.1 unstaged
      apply (maintains_place_lapses output path).ends_bind answers
        (ends_place_filesAt visible orderly filesAt answers spells apart)
      · rintro _ after answers ⟨orderly, ⟨other, filesAt⟩ | ⟨here, _, known, filesAt⟩⟩
        · have later : ∃ path ∈ rest, Path.names path = names := by
            obtain ⟨target, member, same⟩ := present
            rcases List.mem_cons.1 member with rfl | member
            · exact absurd same other
            · exact ⟨target, member, same⟩
          apply (ih orderly filesAt answers spelled unstaged later).mono
          · rintro _ last ⟨orderly, one, filesAt⟩
            refine ⟨orderly, ?_, filesAt⟩
            rw [List.countP_cons_of_neg (by simpa using other)]
            exact one
          · exact fun _ _ _ => trivial
        · obtain rfl := Option.some.inj known
          apply (ends_placeAll_done visible orderly filesAt answers spelled unstaged).mono
          · rintro _ last ⟨orderly, none, filesAt⟩
            refine ⟨orderly, ?_, filesAt⟩
            rw [List.countP_cons_of_pos (by simpa using here), none]
          · exact fun _ _ _ => trivial
      · exact fun _ _ _ => trivial

theorem ends_pruneAll_filesAt (orderly : Orderly output root commit.volume.disk)
    (filesAt : FilesAt root names none held commit.volume.disk)
    (answers : commit.volume.LapsesOnlyIf False)
    (contained : ∀ path ∈ stale, Path.isContained path = true) :
    Ends (pruneAll output stale) commit
      (fun _ after => Orderly output root after.volume.disk ∧
        FilesAt root names none (if ∃ path ∈ stale, Path.Spells names path then none else held)
          after.volume.disk)
      (fun _ _ => True) := by
  induction stale generalizing commit held with
  | nil => exact Ends.pure_iff.2 ⟨orderly, by simpa using filesAt⟩
  | cons path rest ih =>
      obtain ⟨here, contained⟩ := List.forall_mem_cons.1 contained
      have first : Ends (prune output path) commit
          (fun _ after => Orderly output root after.volume.disk ∧ FilesAt root names none
            (if Path.Spells names path then none else held) after.volume.disk)
          (fun _ _ => True) := by
        rw [prune]
        apply Ends.bind (ends_setAside_filesAt visible orderly filesAt answers here fun _ => rfl)
        · intro aside after both
          apply Ends.ite
          · exact fun _ => Ends.modify_iff.2 both
          · exact fun _ => Ends.pure_iff.2 both
        · exact fun _ _ _ => trivial
      apply (maintains_prune_lapses output path).ends_bind answers first
      · rintro _ after answers ⟨orderly, filesAt⟩
        apply (ih orderly filesAt answers contained).mono
        · rintro _ last ⟨orderly, filesAt⟩
          refine ⟨orderly, ?_⟩
          simp only [List.exists_mem_cons_iff]
          by_cases now : Path.Spells names path <;>
            by_cases later : ∃ path ∈ rest, Path.Spells names path <;>
            simpa [now, later] using filesAt
        · exact fun _ _ _ => trivial
      · exact fun _ _ _ => trivial

theorem ends_moves_filesAt {volume : Volume} {listed : List Path}
    (orderly : Orderly output root volume.disk)
    (filesAt : FilesAt root names (some contents) held volume.disk)
    (answers : volume.LapsesOnlyIf False)
    (spelled : ∀ path ∈ files, Path.Spells (Path.names path) path)
    (unstaged : ∀ path ∈ files, Path.names path ≠ stagingName :: names)
    (present : ∃ path ∈ files, Path.names path = names)
    (contained : ∀ path ∈ listed, Path.isContained path = true) :
    Ends (moves output files listed) { volume := volume }
      (fun _ after => files.countP (Path.names · = names) = 1 ∧ names ≠ [PackageIndex.fileName] ∧
        after.volume.disk.file? (root ++ names) =
          if ∃ path ∈ stalePaths files listed, Path.Spells names path then none else some contents)
      (fun _ _ => True) := by
  obtain ⟨target, member, same⟩ := present
  have filled : names ≠ [] := same ▸ (spelled target member).ne_nil
  have index : [PackageIndex.fileName] ≠ stagingName :: names := by
    intro same
    exact filled (List.cons.inj same).2.symm
  have level : Orderly output root ({ volume := volume } : Commit).volume.disk := orderly
  have answers : ({ volume := volume } : Commit).volume.LapsesOnlyIf False := answers
  have opening := ends_setAside_filesAt visible level filesAt answers spells_fileName.contained
    fun spells => absurd (spells_fileName.unique spells) index
  rw [moves]
  apply (maintains_setAside_lapses output PackageIndex.fileName).discard.ends_bind answers
    opening.discard
  · rintro _ first answers ⟨orderly, filesAt⟩
    apply (maintains_placeAll fun _ _ => maintains_place_lapses _ _).ends_bind answers
      (ends_placeAll_filesAt visible orderly filesAt answers spelled unstaged
        ⟨target, member, same⟩)
    · rintro _ second answers ⟨orderly, one, filesAt⟩
      apply (maintains_pruneAll fun _ _ => maintains_prune_lapses _ _).ends_bind answers
        (ends_pruneAll_filesAt visible orderly filesAt answers
          fun path inside => contained path (mem_of_mem_stalePaths inside).1)
      · rintro _ third answers ⟨orderly, filesAt⟩
        apply (ends_place_filesAt visible orderly filesAt answers spells_fileName index).mono
        · rintro _ last ⟨-, ⟨apart, filesAt⟩ | ⟨-, _, impossible, -⟩⟩
          · exact ⟨one, Ne.symm apart, filesAt.held⟩
          · cases impossible
        · exact fun _ _ _ => trivial
      · exact fun _ _ _ => trivial
    · exact fun _ _ _ => trivial
  · exact fun _ _ _ => trivial

end

end Commit

namespace Package

open Commit

variable {root : Location} {output : Path} {disk : Disk} {artifact : Artifact}
  {artifacts : List Artifact} {names : List String}

theorem lastOf_of_countP (member : artifact ∈ artifacts) (named : Path.names artifact.path = names)
    (one : (artifacts.map (·.path)).countP (Path.names · = names) = 1) :
    lastOf artifacts names = some artifact.contents := by
  rw [List.countP_map, List.countP_eq_length_filter] at one
  obtain ⟨only, same⟩ := List.length_eq_one_iff.1 one
  have unique {other : Artifact} (inside : other ∈ artifacts)
      (named : Path.names other.path = names) : other = only := by
    have found : other ∈ [only] := same ▸ List.mem_filter.2 ⟨inside, by simpa using named⟩
    simpa using found
  unfold lastOf
  cases found : artifacts.reverse.find? fun artifact => Path.names artifact.path = names with
  | none =>
      have absent := List.find?_eq_none.1 found artifact (by simpa using member)
      exact absurd named (by simpa using absent)
  | some last =>
      have named' : Path.names last.path = names := by simpa using List.find?_some found
      have inside : last ∈ artifacts := by simpa using List.mem_of_find?_eq_some found
      rw [unique inside named', ← unique member named]
      rfl

/-- An artifact stands at its place with its contents, unless the earlier index spells its path in
another way: then nothing stands there. -/
def Stands (root : Location) (artifacts : List Artifact) (stale : List Path) (after : Disk)
    (artifact : Artifact) : Prop :=
  isInternal (Path.names artifact.path) = false →
  (∀ other ∈ artifacts, Path.names other.path ≠ stagingName :: Path.names artifact.path) →
  after.file? (root ++ Path.names artifact.path) =
    if ∃ path ∈ stale, Path.Spells (Path.names artifact.path) path then none
    else some artifact.contents

theorem ends_moves_stands {system : String} {volume : Volume} {listed : List Path} {before : Disk}
    (reaches : (bare root before).Reaches output root)
    (provided : Provided root before (artifacts ++ [indexFile system artifacts]) volume.disk)
    (answers : volume.LapsesOnlyIf False)
    (spelled : ∀ path ∈ artifacts.map (·.path), Path.Spells (Path.names path) path)
    (contained : ∀ path ∈ listed, Path.isContained path = true) (member : artifact ∈ artifacts) :
    Ends (moves output (artifacts.map (·.path)) listed) { volume := volume }
      (fun _ after => Stands root artifacts (stalePaths (artifacts.map (·.path)) listed)
        after.volume.disk artifact)
      (fun _ _ => True) := by
  by_cases visible : isInternal (Path.names artifact.path) = false
  · by_cases unstaged : ∀ other ∈ artifacts,
        Path.names other.path ≠ stagingName :: Path.names artifact.path
    · have unstaged' : ∀ path ∈ artifacts.map (·.path),
          Path.names path ≠ stagingName :: Path.names artifact.path := by
        simpa using unstaged
      obtain ⟨contents, last⟩ := Option.isSome_iff_exists.1
        (isSome_lastOf (List.mem_append_left [indexFile system artifacts] member))
      have filesAt : FilesAt root (Path.names artifact.path) (some contents)
          (volume.disk.file? (root ++ Path.names artifact.path)) volume.disk :=
        ⟨(provided.staged _).trans last, rfl⟩
      apply
        (ends_moves_filesAt visible (provided.filesUnmoved.orderly reaches) filesAt answers spelled
          unstaged' ⟨_, List.mem_map_of_mem member, rfl⟩ contained).mono
      · rintro _ after ⟨one, apart, there⟩ _ _
        rw [lastOf_concat, if_neg, lastOf_of_countP member rfl one] at last
        · rwa [← Option.some.inj last] at there
        · exact fun same => apart (same.trans spells_fileName.names)
      · exact fun _ _ _ => trivial
    · exact (ends_moves_intact reaches provided answers spelled contained).mono
        (fun _ _ _ _ all => absurd all unstaged) fun _ _ _ => trivial
  · exact (ends_moves_intact reaches provided answers spelled contained).mono
      (fun _ _ _ inside => absurd inside visible) fun _ _ _ => trivial

/-- A package that was written stands in the output directory file by file, whatever paths the
artifacts and the earlier index have, but for artifacts whose place is in the staging or the backup
directory, for those that an artifact is staged over, and for those whose path the earlier index
spells in another way. Queries are answered here. -/
theorem written_artifacts_stand (system : String) (artifacts : List Artifact) {output : Path}
    {root : Location} {disk : Disk} (refusals : List Bool) (grounded : disk.Grounded)
    (reaches : (bare root disk).Reaches output root) :
    Ends (write system artifacts output) ⟨disk, refusals, []⟩
      (fun report after => report = ⟨output, artifacts.map packaged⟩ ∧ ∀ artifact ∈ artifacts,
        Stands root artifacts (stalePaths (artifacts.map (·.path)) (listedFiles output disk))
          after.disk artifact)
      (fun _ _ => True) := by
  have contained := contained_listedFiles output disk
  apply ends_write_of_moves (fun after => ∀ artifact ∈ artifacts,
    Stands root artifacts (stalePaths (artifacts.map (·.path)) (listedFiles output disk)) after
      artifact) (fun _ => True) refusals grounded reaches
  · intro between after same stands artifact member visible unstaged
    rw [same _ _]
    · exact stands artifact member visible unstaged
    · rintro ⟨inner, internal, same⟩
      rw [← List.append_cancel_left same, visible] at internal
      cases internal
  · exact fun _ _ _ _ => trivial
  · trivial
  · intro volume answers provided spelled
    have spelled : ∀ path ∈ artifacts.map (·.path), Path.Spells (Path.names path) path := by
      intro path member
      obtain ⟨artifact, inside, rfl⟩ := List.mem_map.1 member
      exact spelled artifact inside
    have each := Ends.all fun artifact : { artifact : Artifact // artifact ∈ artifacts } =>
      ends_moves_stands reaches provided answers spelled contained artifact.2
    apply ((ends_moves_intact reaches provided answers spelled contained).and each).mono
    · exact fun _ _ ⟨there, stands⟩ => ⟨there, fun artifact member => stands ⟨artifact, member⟩⟩
    · exact fun _ _ ⟨⟨there, _⟩, _⟩ => ⟨there, trivial⟩

def respelled : List Artifact := [.ofText "./a" "second", .ofText "new/c" "third"]

/-- The earlier index lists `a`, which the new package spells in another way and loses. -/
theorem written_artifacts_stand_settled :
    settled.Grounded ∧ (bare ["out"] settled).Reaches "out" ["out"] ∧
      stalePaths ["./a", "new/c"] (listedFiles "out" settled) = ["a", "old/b"] ∧
      (∀ refusals, Ends (write "demo" respelled "out") ⟨settled, refusals, []⟩
        (fun _ after => after.disk.file? ["out", "a"] = none ∧
          after.disk.file? ["out", "new", "c"] = some "third".toUTF8)
        (fun _ _ => True)) ∧
      ((write "demo" respelled "out").run.run ⟨settled, [], []⟩).1.isOk = true ∧
      ((write "demo" respelled "out").run.run ⟨settled, [true], []⟩).1.isOk = false := by
  have stale : stalePaths ["./a", "new/c"] (listedFiles "out" settled) = ["a", "old/b"] := by
    decide +kernel
  refine ⟨grounded_settled, reaches_settled, stale, fun refusals => ?_, by decide +kernel,
    by decide +kernel⟩
  have paths : respelled.map (·.path) = ["./a", "new/c"] := rfl
  apply (written_artifacts_stand "demo" respelled refusals grounded_settled reaches_settled).mono
  · rintro _ after ⟨-, stands⟩
    simp only [paths, stale] at stands
    have lost := stands (.ofText "./a" "second") (by decide +kernel) (by decide +kernel)
      (by decide +kernel)
    have kept := stands (.ofText "new/c" "third") (by decide +kernel) (by decide +kernel)
      (by decide +kernel)
    rw [if_pos (by decide +kernel)] at lost
    rw [if_neg (by decide +kernel)] at kept
    exact ⟨lost, kept⟩
  · exact fun _ _ _ => trivial

end Package

end Elastic
