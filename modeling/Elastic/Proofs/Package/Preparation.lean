import Elastic.Proofs.Package.Replacement
import Elastic.Proofs.Package.Shifts

namespace Elastic

open Disk Commit

/-! How writing a package comes to the moves of its commit and goes on from there, for artifacts
with any paths. Up to the moves nothing changes but what lies in the staging and the backup
directory. -/

namespace Commit

variable {root location : Location} {output path : Path} {name : String}
  {before disk after : Disk} {volume : Volume} {names : List String}

/-- A disk on which no file was moved yet. -/
structure FilesUnmoved (root : Location) (before disk : Disk) : Prop where
  wider : (bare root before).Wider disk
  grounded : disk.Grounded
  files : ∀ location, ¬ Internal root location → disk.file? location = before.file? location

theorem FilesUnmoved.start (grounded : before.Grounded) : FilesUnmoved root before before :=
  ⟨wider_bare root before, grounded, fun _ _ => rfl⟩

theorem FilesUnmoved.orderly (filesUnmoved : FilesUnmoved root before disk)
    (reaches : (bare root before).Reaches output root) : Orderly output root disk :=
  ⟨filesUnmoved.wider.reaches reaches, filesUnmoved.grounded⟩

theorem internal_names (internal : name ∈ internalNames) (filled : names ≠ []) :
    Internal root (root ++ name :: names) := by
  obtain ⟨next, rest, rfl⟩ := List.exists_cons_of_ne_nil filled
  exact ⟨_, by simpa [isInternal] using internal, rfl⟩

theorem not_internal_fileName : ¬ Internal root (root ++ [PackageIndex.fileName]) := by
  rintro ⟨inner, internal, same⟩
  rw [← List.append_cancel_left same] at internal
  cases internal

structure Clears (root : Location) (name : String) (disk after : Disk) : Prop where
  current : after.current = disk.current
  grounded : after.Grounded
  nodes : ∀ location, after.node? location =
    if root ++ [name] <+: location then none else disk.node? location
  spot : disk.file? (root ++ [name]) = none

theorem clears_eraseTree (grounded : disk.Grounded)
    (directory : disk.isDirectoryAt (root ++ [name]) = true) :
    Clears root name disk (disk.eraseTree (root ++ [name])) :=
  ⟨rfl, grounded.eraseTree (by simp), fun location => node?_eraseTree disk location (by simp),
    file?_of_isDirectoryAt directory⟩

theorem clears_of_missing (grounded : disk.Grounded)
    (missing : disk.node? (root ++ [name]) = none) : Clears root name disk disk := by
  refine ⟨rfl, grounded, fun location => ?_, by simp [Disk.file?, missing]⟩
  split_ifs with below
  · by_contra held
    obtain ⟨node, held⟩ := Option.ne_none_iff_exists'.1 held
    by_cases same : root ++ [name] = location
    · rw [same, held] at missing
      cases missing
    · have directory := grounded.isDirectoryAt_of_prefix held below same
      rw [isDirectoryAt_iff, missing] at directory
      cases directory
  · rfl

theorem ends_clear (orderly : Orderly output root volume.disk)
    (answers : volume.LapsesOnlyIf False) (within : Path.Within output [name] path) :
    Ends (do
        if ← Storing.ask false fun disk => disk.pathExists path then
          Storing.call path (Disk.removeTree path)) volume
      (fun _ after => Clears root name volume.disk after.disk)
      (fun _ after => after.disk = volume.disk) := by
  apply Ends.bind_iff.2
  apply Storing.ends_ask
  · apply Ends.ite
    · intro _
      apply Storing.ends_call
      · exact fun _ _ => rfl
      · intro after rest removed
        obtain ⟨-, directory, rfl⟩ := (removeTree_within orderly.reaches within).1 removed
        exact clears_eraseTree orderly.grounded directory
    · intro absent
      apply Ends.pure_iff.2
      apply clears_of_missing orderly.grounded
      by_contra held
      obtain ⟨node, held⟩ := Option.ne_none_iff_exists'.1 held
      have located := (locate?_within orderly.reaches within).2
        ⟨⟨orderly.reaches.directory, trivial⟩, by simp [held], rfl⟩
      simp [pathExists, located] at absent
  · exact fun fails => (answers fails).elim

theorem FilesUnmoved.clears (filesUnmoved : FilesUnmoved root before disk)
    (internal : name ∈ internalNames) (clears : Clears root name disk after) :
    FilesUnmoved root before after where
  wider := by
    refine ⟨clears.current.trans filesUnmoved.wider.current, fun location directory => ?_⟩
    have stays := filesUnmoved.wider.directories location directory
    rw [isDirectoryAt_iff, node?_bare] at directory
    split_ifs at directory with inside
    rw [isDirectoryAt_iff] at stays ⊢
    rw [clears.nodes, if_neg, stays]
    intro below
    simp only [internalNames, List.mem_cons, List.not_mem_nil, or_false] at internal
    rcases internal with rfl | rfl
    · exact inside (.inl below)
    · exact inside (.inr below)
  grounded := clears.grounded
  files location outside := by
    rw [← filesUnmoved.files location outside]
    by_cases below : root ++ [name] <+: location
    · obtain ⟨rest, rfl⟩ := below
      have gone : after.file? (root ++ [name] ++ rest) = none := by
        simp [Disk.file?, clears.nodes]
      rw [gone]
      by_cases filled : rest = []
      · rw [filled, List.append_nil, clears.spot]
      · have inside : Internal root (root ++ name :: rest) := internal_names internal filled
        rw [List.append_assoc, List.singleton_append] at outside
        exact absurd inside outside
    · exact file?_congr (by rw [clears.nodes, if_neg below])

end Commit

namespace Package

variable {root : Location} {output path : Path} {before disk after : Disk} {volume : Volume}
  {artifact : Artifact} {artifacts : List Artifact} {system : String} {names : List String}

/-- The contents that artifacts leave in the staging directory: those of the last one there. -/
def lastOf (artifacts : List Artifact) (names : List String) : Option ByteArray :=
  (artifacts.reverse.find? fun artifact => Path.names artifact.path = names).map (·.contents)

theorem lastOf_cons (artifact : Artifact) (rest : List Artifact) (names : List String) :
    lastOf (artifact :: rest) names = (lastOf rest names).or
      (if names = Path.names artifact.path then some artifact.contents else none) := by
  unfold lastOf
  rw [List.reverse_cons, List.find?_append, List.find?_singleton]
  cases rest.reverse.find? fun artifact => Path.names artifact.path = names with
  | some later => rfl
  | none => by_cases here : names = Path.names artifact.path <;> simp [here, eq_comm]

theorem lastOf_concat (artifact : Artifact) (front : List Artifact) (names : List String) :
    lastOf (front ++ [artifact]) names =
      if names = Path.names artifact.path then some artifact.contents else lastOf front names := by
  unfold lastOf
  rw [List.reverse_append, List.reverse_singleton, List.singleton_append, List.find?_cons]
  by_cases here : names = Path.names artifact.path
  · simp [here]
  · rw [if_neg here]
    simp [Ne.symm here]

theorem isSome_lastOf (member : artifact ∈ artifacts) :
    (lastOf artifacts (Path.names artifact.path)).isSome = true := by
  unfold lastOf
  rw [Option.isSome_map, List.find?_isSome]
  exact ⟨artifact, by simpa using member, by simp⟩

theorem filesUnmoved_of_makeDirectories {around : Path}
    (filesUnmoved : FilesUnmoved root before disk) (made : makeDirectories around disk = some after)
    : FilesUnmoved root before after :=
  ⟨filesUnmoved.wider.trans (wider_makeDirectories made),
    (spares_makeDirectories root made).grounded filesUnmoved.grounded, fun location outside =>
    (file?_makeDirectories made location).trans (filesUnmoved.files location outside)⟩

theorem ends_makeParent_filesUnmoved (filesUnmoved : FilesUnmoved root before volume.disk)
    (around : Path) : Ends (Storing.makeParent around) volume
      (fun _ after => FilesUnmoved root before after.disk ∧
        ∀ location, after.disk.file? location = volume.disk.file? location)
      (fun _ after => FilesUnmoved root before after.disk) := by
  unfold Storing.makeParent
  split
  · exact Ends.pure_iff.2 ⟨filesUnmoved, fun _ => rfl⟩
  · apply Storing.ends_call
    · exact fun _ _ => filesUnmoved
    · exact fun after _ made =>
        ⟨filesUnmoved_of_makeDirectories filesUnmoved made, file?_makeDirectories made⟩

theorem spells_of_writeFile {contents : ByteArray}
    (reaches : (bare root before).Reaches output root)
    (filesUnmoved : FilesUnmoved root before disk) (contained : Path.isContained path = true)
    (written : disk.writeFile (Path.join (Commit.staging output) path) contents = some after) :
    Path.Spells (Path.names path) path := by
  obtain ⟨front, name, split⟩ : ∃ front name, Path.segments path = front ++ [name] :=
    ⟨_, _, (List.dropLast_concat_getLast (Path.segments_ne_nil path)).symm⟩
  apply Path.spells_names contained split
  cases found : disk.slot? (Path.join (Commit.staging output) path) with
  | none => simp [writeFile, found] at written
  | some location =>
      have named := (filesUnmoved.orderly reaches).reaches.named
      have joined : Path.segments (Path.join (Commit.staging output) path) =
          Path.lead output ++ Region.staging.names ++ front ++ [name] :=
        (Region.segments_join named .staging (Path.isLevel_of_contained contained).1).trans
          (by rw [split, ← List.append_assoc])
      exact busy_of_slot? joined found

theorem stored_of_writeFile {contents : ByteArray}
    (reaches : (bare root before).Reaches output root)
    (filesUnmoved : FilesUnmoved root before disk) (spells : Path.Spells (Path.names path) path)
    (written : disk.writeFile (Path.join (Commit.staging output) path) contents = some after) :
    FilesUnmoved root before after ∧ ∀ names, after.file? (root ++ stagingName :: names) =
      if names = Path.names path then some contents
      else disk.file? (root ++ stagingName :: names) := by
  have orderly := filesUnmoved.orderly reaches
  have named := orderly.reaches.named
  have alike := Region.alike named .staging spells
  obtain ⟨admits, free, rfl⟩ := (writeFile_within orderly.reaches
    (Region.within_plain named .staging spells)).1
    ((writeFile_alike alike contents).symm.trans written)
  have filled : Region.staging.names ++ Path.names path ≠ [] := by simp [Region.names]
  have inner : root ++ (Region.staging.names ++ Path.names path) ≠ [] := by simp [Region.names]
  refine ⟨⟨filesUnmoved.wider.trans (wider_put inner free),
    grounded_put orderly.grounded filled admits free, fun location outside => ?_⟩,
    fun names => ?_⟩
  · rw [file?_put disk location contents inner, if_neg]
    · exact filesUnmoved.files location outside
    · rintro rfl
      exact outside (internal_names stagingName_internal spells.ne_nil)
  · rw [file?_put disk _ contents inner]
    simp [Region.names]

theorem ends_store_spelled {contents : ByteArray} (reaches : (bare root before).Reaches output root)
    (filesUnmoved : FilesUnmoved root before volume.disk)
    (contained : Path.isContained path = true) :
    Ends (Storing.store (Path.join (Commit.staging output) path) contents) volume
      (fun _ after => FilesUnmoved root before after.disk ∧ Path.Spells (Path.names path) path ∧
        ∀ names, after.disk.file? (root ++ stagingName :: names) =
          if names = Path.names path then some contents
          else volume.disk.file? (root ++ stagingName :: names))
      (fun _ after => FilesUnmoved root before after.disk) := by
  apply Ends.bind (ends_makeParent_filesUnmoved filesUnmoved _)
  · rintro _ between ⟨filesUnmoved, same⟩
    apply Storing.ends_call
    · exact fun _ _ => filesUnmoved
    · intro after rest written
      have spells := spells_of_writeFile reaches filesUnmoved contained written
      obtain ⟨stored, files⟩ := stored_of_writeFile reaches filesUnmoved spells written
      refine ⟨stored, spells, fun names => ?_⟩
      rw [files, same]
  · exact fun _ _ filesUnmoved => filesUnmoved

theorem ends_stageEach_spelled (reaches : (bare root before).Reaches output root)
    (filesUnmoved : FilesUnmoved root before volume.disk) :
    Ends (stageEach (Commit.staging output) artifacts) volume
      (fun _ after => FilesUnmoved root before after.disk ∧
        (∀ artifact ∈ artifacts, Path.Spells (Path.names artifact.path) artifact.path) ∧
        ∀ names, after.disk.file? (root ++ stagingName :: names) =
          (lastOf artifacts names).or (volume.disk.file? (root ++ stagingName :: names)))
      (fun _ after => FilesUnmoved root before after.disk) := by
  induction artifacts generalizing volume with
  | nil => exact Ends.pure_iff.2 ⟨filesUnmoved, nofun, fun _ => rfl⟩
  | cons artifact rest ih =>
      rw [stageEach]
      apply Ends.ite
      · exact fun _ => Ends.throw_bind filesUnmoved
      · intro inside
        rw [Bool.not_eq_true', Bool.not_eq_false] at inside
        apply Ends.bind (ends_store_spelled reaches filesUnmoved inside)
        · rintro _ between ⟨filesUnmoved, spells, stored⟩
          apply (ih filesUnmoved).mono
          · rintro _ after ⟨filesUnmoved, spelled, staged⟩
            refine ⟨filesUnmoved, List.forall_mem_cons.2 ⟨spells, spelled⟩, fun names => ?_⟩
            rw [staged, stored, lastOf_cons, Option.or_assoc]
            split_ifs <;> rfl
          · exact fun _ _ filesUnmoved => filesUnmoved
        · exact fun _ _ filesUnmoved => filesUnmoved

structure Provided (root : Location) (before : Disk) (entries : List Artifact) (disk : Disk) :
    Prop where
  filesUnmoved : FilesUnmoved root before disk
  staged : ∀ names, disk.file? (root ++ stagingName :: names) = lastOf entries names
  unkept : ∀ names, disk.file? (root ++ backupName :: names) = none

theorem spells_fileName : Path.Spells [PackageIndex.fileName] PackageIndex.fileName := by
  decide +kernel

theorem ends_stage_spelled (reaches : (bare root volume.disk).Reaches output root)
    (grounded : volume.disk.Grounded) (answers : volume.LapsesOnlyIf False) :
    Ends (stage system artifacts (Commit.staging output)) volume
      (fun files after => files = artifacts.map packaged ∧
        FilesUnmoved root volume.disk after.disk ∧
          (∀ artifact ∈ artifacts, Path.Spells (Path.names artifact.path) artifact.path) ∧
        ∀ names, after.disk.file? (root ++ stagingName :: names) =
          lastOf (artifacts ++ [indexFile system artifacts]) names)
      (fun _ after => FilesUnmoved root volume.disk after.disk) := by
  have filesUnmoved : FilesUnmoved root volume.disk volume.disk := .start grounded
  have orderly := filesUnmoved.orderly reaches
  have clearing : Ends (clearStaging (Commit.staging output)) volume
      (fun _ after => Clears root stagingName volume.disk after.disk)
      (fun _ after => after.disk = volume.disk) :=
    ends_clear orderly answers (Region.within_staging orderly.reaches.named)
  rw [stage_eq]
  apply Ends.bind clearing
  · intro _ cleared clears
    have filesUnmoved := filesUnmoved.clears stagingName_internal clears
    have bare (names : List String) : cleared.disk.file? (root ++ stagingName :: names) = none := by
      simp [Disk.file?, clears.nodes]
    apply Ends.bind (ends_stageEach_spelled reaches filesUnmoved)
    · rintro _ between ⟨filesUnmoved, spelled, staged⟩
      apply Ends.bind (ends_store_spelled reaches filesUnmoved spells_fileName.contained)
      · rintro _ after ⟨filesUnmoved, -, stored⟩
        apply Ends.pure_iff.2
        refine ⟨rfl, filesUnmoved, spelled, fun names => ?_⟩
        rw [stored, staged, bare, Option.or_none, lastOf_concat]
        rfl
      · exact fun _ _ filesUnmoved => filesUnmoved
    · exact fun _ _ filesUnmoved => filesUnmoved
  · intro _ after same
    rw [same]
    exact filesUnmoved

theorem listedFiles_of_filesUnmoved (reaches : (bare root before).Reaches output root)
    (filesUnmoved : FilesUnmoved root before disk) :
    listedFiles output disk = listedFiles output before := by
  unfold listedFiles readText?
  rw [readFile?_fileName (filesUnmoved.orderly reaches).reaches,
    readFile?_fileName ((wider_bare root before).reaches reaches),
    filesUnmoved.files _ not_internal_fileName]

def undone (output : Path) (commit : Commit) : Disk :=
  commit.saved.foldl (restore output)
    (commit.placed.foldl (withdraw output) commit.volume.disk)

def Outward (root : Location) (good : Disk → Prop) : Prop :=
  ∀ disk after : Disk, (∀ location, ¬ Internal root location →
    after.file? location = disk.file? location) → good disk → good after

section

variable {good bad : Disk → Prop} {entries : List Artifact}

theorem anchored_of_filesUnmoved (reaches : (bare root before).Reaches output root)
    (outward : Outward root bad) (unmoved : bad before)
    (filesUnmoved : FilesUnmoved root before disk) :
    Anchored output root disk ∧ bad disk :=
  ⟨anchored_of_reaches (filesUnmoved.orderly reaches).reaches,
    outward before disk filesUnmoved.files unmoved⟩

theorem provided_of_clears (filesUnmoved : FilesUnmoved root before disk)
    (staged : ∀ names, disk.file? (root ++ stagingName :: names) = lastOf entries names)
    (clears : Clears root backupName disk after) : Provided root before entries after := by
  refine ⟨filesUnmoved.clears backupName_internal clears, fun names => ?_, fun names => ?_⟩
  · rw [← staged]
    apply file?_congr
    rw [clears.nodes, if_neg]
    rw [List.prefix_append_right_inj]
    simp [backupName, stagingName]
  · simp [Disk.file?, clears.nodes]

theorem ends_run_of_moves {paths : List Path} (reaches : (bare root before).Reaches output root)
    (filesUnmoved : FilesUnmoved root before volume.disk)
    (staged : ∀ names, volume.disk.file? (root ++ stagingName :: names) = lastOf entries names)
    (answers : volume.LapsesOnlyIf False)
    (outwardly : Outward root good) (outwardly' : Outward root bad) (unmoved : bad before)
    (moved : ∀ volume : Volume, volume.LapsesOnlyIf False →
      Provided root before entries volume.disk →
      Ends (moves output paths (listedFiles output before)) { volume := volume }
        (fun _ commit => commit.volume.disk.Reaches output root ∧ good commit.volume.disk)
        (fun _ commit => (undone output commit).Reaches output root ∧ bad (undone output commit))) :
    Ends (Commit.run output paths) volume
      (fun _ after => Anchored output root after.disk ∧ good after.disk)
      (fun _ after => Anchored output root after.disk ∧ bad after.disk) := by
  have named := reaches.named
  have clearing : Ends (clearBackup output) { volume with unanswered := volume.unanswered.tail }
      (fun _ after => Clears root backupName volume.disk after.disk)
      (fun _ after => after.disk = volume.disk) :=
    ends_clear (filesUnmoved.orderly reaches) answers.tail (Region.within_backup named)
  apply ends_run_of
  intro listed known
  obtain rfl := known.resolve_right fun ⟨fails, _⟩ => answers fails
  apply ((Storing.maintains_clear_lapses _ answers.tail).and clearing).mono
  · rintro _ cleared ⟨still, clears⟩
    rw [listedFiles_of_filesUnmoved reaches filesUnmoved]
    apply (moved cleared still (provided_of_clears filesUnmoved staged clears)).mono
    · rintro _ commit ⟨there, well⟩
      have narrows := narrows_finish there
      exact ⟨narrows.anchored (anchored_of_reaches there), outwardly _ _ narrows.files well⟩
    · rintro _ commit ⟨there, badly⟩
      have narrows := narrows_removeTree (anchored_of_reaches there)
        (Region.within_backup named) backupName_internal
      exact ⟨narrows.anchored (anchored_of_reaches there), outwardly' _ _ narrows.files badly⟩
  · rintro _ after ⟨-, same⟩
    rw [same]
    exact anchored_of_filesUnmoved reaches outwardly' unmoved filesUnmoved

/-- What writing a package does to the files in sight is what the moves do, or what is left of them
when they are undone. -/
theorem ends_write_of_moves (good bad : Disk → Prop) (refusals : List Bool)
    (grounded : before.Grounded) (reaches : (bare root before).Reaches output root)
    (outwardly : Outward root good) (outwardly' : Outward root bad) (unmoved : bad before)
    (moved : ∀ volume : Volume, volume.LapsesOnlyIf False →
      Provided root before (artifacts ++ [indexFile system artifacts]) volume.disk →
      (∀ artifact ∈ artifacts, Path.Spells (Path.names artifact.path) artifact.path) →
      Ends (moves output (artifacts.map (·.path)) (listedFiles output before)) { volume := volume }
        (fun _ commit => commit.volume.disk.Reaches output root ∧ good commit.volume.disk)
        (fun _ commit => (undone output commit).Reaches output root ∧ bad (undone output commit))) :
    Ends (write system artifacts output) ⟨before, refusals, []⟩
      (fun report after => report = ⟨output, artifacts.map packaged⟩ ∧ good after.disk)
      (fun _ after => bad after.disk) := by
  have named := reaches.named
  have answers : (⟨before, refusals, []⟩ : Volume).LapsesOnlyIf False := List.not_mem_nil
  have staging : Ends (stage system artifacts (Commit.staging output)) ⟨before, refusals, []⟩
      (fun files after => files = artifacts.map packaged ∧ FilesUnmoved root before after.disk ∧
        (∀ artifact ∈ artifacts, Path.Spells (Path.names artifact.path) artifact.path) ∧
        ∀ names, after.disk.file? (root ++ stagingName :: names) =
          lastOf (artifacts ++ [indexFile system artifacts]) names)
      (fun _ after => FilesUnmoved root before after.disk) :=
    ends_stage_spelled reaches grounded answers
  have committed : Ends (stageAndCommit system artifacts output) ⟨before, refusals, []⟩
      (fun report after => report = ⟨output, artifacts.map packaged⟩ ∧
        Anchored output root after.disk ∧ good after.disk)
      (fun _ after => Anchored output root after.disk ∧ bad after.disk) := by
    rw [stageAndCommit]
    apply (maintains_stage system artifacts (Commit.staging output)).ends_bind answers staging
    · rintro _ volume answers ⟨rfl, filesUnmoved, spelled, staged⟩
      have paths : (artifacts.map packaged).map (·.path) = artifacts.map (·.path) := by
        simp [packaged, Function.comp_def]
      rw [paths]
      apply Ends.bind
        (ends_run_of_moves reaches filesUnmoved staged answers outwardly outwardly' unmoved
          fun volume answers provided => moved volume answers provided spelled)
      · rintro ⟨⟩ last both
        exact Ends.pure_iff.2 ⟨rfl, both⟩
      · exact fun _ _ both => both
    · exact fun _ _ => anchored_of_filesUnmoved reaches outwardly' unmoved
  rw [write]
  apply Ends.bind_iff.2
  apply Ends.lift_iff.2
  apply committed.mono
  · rintro _ after ⟨rfl, anchored, well⟩
    have narrows := narrows_removeTree anchored (Region.within_staging named) stagingName_internal
    apply Ends.bind_iff.2
    apply Ends.modify_iff.2
    apply Ends.pure_iff.2
    exact ⟨rfl, outwardly _ _ narrows.files well⟩
  · rintro error after ⟨anchored, badly⟩
    have narrows := narrows_removeTree anchored (Region.within_staging named) stagingName_internal
    apply Ends.bind_iff.2
    apply Ends.modify_iff.2
    apply Ends.throw_iff.2
    exact outwardly' _ _ narrows.files badly

end

end Package

end Elastic
