import Elastic.Proofs.Package.Moving

namespace Elastic

open Disk

/-! Writing a package replaces the earlier one or leaves it as it was. Whatever calls are refused,
the files of the output directory end as the package says, or as they began. Queries that fail are
the exception: what is not seen is neither set aside nor pruned. -/

namespace Commit

variable {root : Location} {output path : Path} {disk after last wide origin : Disk} {name : String}
  {lapse : Prop}

structure Narrows (root : Location) (disk after : Disk) : Prop where
  wider : after.Wider disk
  files : ∀ location, ¬ Internal root location → after.file? location = disk.file? location

theorem Narrows.refl (root : Location) (disk : Disk) : Narrows root disk disk :=
  ⟨.refl disk, fun _ _ => rfl⟩

theorem Narrows.trans (first : Narrows root disk after) (second : Narrows root after last) :
    Narrows root disk last :=
  ⟨second.wider.trans first.wider, fun location outside =>
    (second.files location outside).trans (first.files location outside)⟩

/-- The output path leads to the root, or it did before some directories were taken away. -/
def Anchored (output : Path) (root : Location) (disk : Disk) : Prop :=
  ∃ wide : Disk, disk.Wider wide ∧ wide.Reaches output root

theorem Narrows.anchored (narrows : Narrows root disk after)
    (anchored : Anchored output root disk) : Anchored output root after := by
  obtain ⟨wide, wider, reaches⟩ := anchored
  exact ⟨wide, narrows.wider.trans wider, reaches⟩

theorem anchored_of_reaches (reaches : disk.Reaches output root) : Anchored output root disk :=
  ⟨disk, .refl disk, reaches⟩

theorem narrows_removeTree (anchored : Anchored output root disk)
    (within : Path.Within output [name] path) (internal : name ∈ internalNames) :
    Narrows root disk ((disk.removeTree path).getD disk) := by
  obtain ⟨wide, wider, reaches⟩ := anchored
  cases removed : disk.removeTree path with
  | none => exact .refl root disk
  | some after =>
      unfold removeTree at removed
      split at removed
      · exact absurd removed nofun
      · next location located =>
          split at removed
          · next standing =>
              simp only [Bool.and_eq_true] at standing
              have there := wider.locate? located standing.2
              obtain ⟨-, -, rfl⟩ := (locate?_within reaches within).1 there
              obtain rfl := Option.some.inj removed
              exact ⟨eraseTree_wider disk (by simp), fun _ =>
                (Confined.eraseTree standing.2).file? internal⟩
          · exact absurd removed nofun

theorem narrows_removeEmptyDirectory (root : Location)
    (removed : disk.removeEmptyDirectory path = some after) : Narrows root disk after := by
  unfold removeEmptyDirectory at removed
  split at removed
  · exact absurd removed nofun
  · split at removed
    · exact absurd removed nofun
    · next location located =>
        split at removed
        · next standing =>
            simp only [Bool.and_eq_true, Bool.not_eq_true', List.isEmpty_eq_false_iff] at standing
            obtain rfl := Option.some.inj removed
            have inner := standing.1.1
            refine ⟨erase_wider disk inner, fun other _ => ?_⟩
            rw [file?_erase _ _ inner]
            split_ifs with here
            · rw [here, file?_of_isDirectoryAt standing.1.2]
            · rfl
        · exact absurd removed nofun

theorem narrows_removeEmptied (root : Location) (output : Path) (paths : List Path)
    (disk : Disk) : Narrows root disk (removeEmptied output paths disk) := by
  fun_induction removeEmptied output paths disk with
  | case1 disk => exact .refl root disk
  | case2 => exact .refl root _
  | case3 _ _ _ _ removed ih =>
      exact (narrows_removeEmptyDirectory root removed).trans ih

theorem narrows_finish {commit : Commit} (reaches : commit.volume.disk.Reaches output root) :
    Narrows root commit.volume.disk (finish output commit) := by
  have each (paths : List Path) (disk : Disk) : Narrows root disk (paths.foldl
      (fun disk path => removeEmptied output (directoriesOf path) disk) disk) := by
    induction paths generalizing disk with
    | nil => exact .refl root disk
    | cons path rest ih =>
        exact (narrows_removeEmptied root output (directoriesOf path) disk).trans (ih _)
  exact (narrows_removeTree (anchored_of_reaches reaches) (Region.within_backup reaches.named)
    backupName_internal).trans (each _ _)

/-- The files in sight are as they were, but for those that are gone from given places where a query
failed. -/
def Restores (root : Location) (lapse : Prop) (paths : List Path) (before after : Disk) : Prop :=
  ∀ location, ¬ Internal root location → after.file? location = before.file? location ∨
    lapse ∧ (∃ path ∈ paths, location = root ++ Path.segments path) ∧ after.file? location = none

theorem Restores.of_same {paths : List Path}
    (same : ∀ location, ¬ Internal root location → after.file? location = disk.file? location) :
    Restores root lapse paths disk after :=
  fun location outside => .inl (same location outside)

theorem Restores.congr {paths : List Path} {before before' after' : Disk}
    (restores : Restores root lapse paths before after)
    (same : ∀ location, ¬ Internal root location → before.file? location = before'.file? location)
    (same' : ∀ location, ¬ Internal root location → after'.file? location = after.file? location) :
    Restores root lapse paths before' after' := by
  intro location outside
  rw [same' location outside, ← same location outside]
  exact restores location outside

theorem Halts.restores_rollBack {commit before : Commit} {paths : List Path}
    (halts : Halts root lapse origin paths before commit) (fresh : before.placed = [])
    (reaches : origin.Reaches output root) :
    Anchored output root (rollBack output commit) ∧
      Restores root lapse paths origin (rollBack output commit) := by
  have restored := (halts.underway.journal.foldl_withdraw reaches).foldl_restore reaches
  have reached := restored.wider.reaches reaches
  have narrows := narrows_removeTree (anchored_of_reaches reached)
    (Region.within_backup reaches.named) backupName_internal
  refine ⟨narrows.anchored (anchored_of_reaches reached), fun location outside => ?_⟩
  rw [rollBack, narrows.files location outside]
  refine (restored.rest location outside (by simp)).imp_right ?_
  rintro ⟨lapse, ⟨path, member, same⟩, gone⟩
  have placed := (halts.placed path (by simpa using member)).resolve_right (by simp [fresh])
  exact ⟨lapse, ⟨path, placed, same⟩, gone⟩

end Commit

namespace Package

open Commit

variable {root : Location} {output path : Path} {disk before after origin : Disk} {lapse : Prop}

/-- A path that a package may have a file for. -/
structure Publishable (path : Path) : Prop where
  placeable : Placeable path
  forward : '\\' ∉ path.toList
  distinct : path ≠ PackageIndex.fileName

instance (path : Path) : Decidable (Publishable path) :=
  decidable_of_iff (_ ∧ _ ∧ _) ⟨fun all => ⟨all.1, all.2.1, all.2.2⟩, fun holds =>
    ⟨holds.1, holds.2, holds.3⟩⟩

theorem Publishable.isContained (publishable : Publishable path) :
    Path.isContained path = true := by
  have solid := publishable.placeable.solid
  obtain ⟨name, rest, split⟩ := List.exists_cons_of_ne_nil (Path.segments_ne_nil path)
  have level : (Path.segments path).any Path.isUpward = false := by
    apply List.any_eq_false.2
    intro segment member
    have both := solid segment member
    simp only [Path.isSolid, Bool.and_eq_true, Bool.not_eq_true'] at both
    simp [both.2]
  have busy : (Path.segments path).any (fun segment => !Path.isIdle segment) = true := by
    have both := solid name (by simp [split])
    simp only [Path.isSolid, Bool.and_eq_true, Bool.not_eq_true'] at both
    simp [split, both.1]
  simp only [Path.isContained, Path.isAbsolute_of_solid solid, level, busy, Bool.or_true,
    Bool.not_false, Bool.and_self]

theorem Publishable.portable (publishable : Publishable path) : Path.portable path = path := by
  have same : path.toList.map (fun c => if c = '\\' then '/' else c) = path.toList := by
    apply List.map_congr_left (g := id) _ |>.trans (List.map_id _)
    intro c member
    apply if_neg
    rintro rfl
    exact publishable.forward member
  rw [Path.portable, same, String.ofList_toList]

theorem mem_stalePaths {files listed : List Path} (files' : ∀ path ∈ files, Publishable path)
    (listed' : ∀ path ∈ listed, Publishable path) (member : path ∈ listed)
    (apart : path ∉ files) : path ∈ stalePaths files listed := by
  apply List.mem_filter.2
  refine ⟨member, ?_⟩
  simp only [List.contains_eq_mem, Bool.not_eq_true', decide_eq_false_iff_not, List.mem_map]
  rintro ⟨other, inside, same⟩
  rw [(files' other inside).portable, (listed' path member).portable] at same
  exact apart (same ▸ inside)

/-- The files of a package stand in the place of those that were listed, and no other file is
changed. Where a query failed, a file that was listed may be left. -/
structure Installed (root : Location) (lapse : Prop) (files : List Artifact) (listed : List Path)
    (before after : Disk) : Prop where
  contents : ∀ artifact ∈ files,
    after.file? (root ++ Path.segments artifact.path) = some artifact.contents
  gone : ∀ path ∈ listed, path ∉ files.map (·.path) →
    after.file? (root ++ Path.segments path) = none ∨ lapse ∧
      after.file? (root ++ Path.segments path) = before.file? (root ++ Path.segments path)
  others : ∀ location, ¬ Internal root location →
    (∀ path ∈ files.map (·.path) ++ listed, location ≠ root ++ Path.segments path) →
    after.file? location = before.file? location

section

variable {files : List Artifact} {listed : List Path}

theorem Installed.congr {before' after' : Disk}
    (installed : Installed root lapse files listed before after)
    (files' : ∀ artifact ∈ files, Placeable artifact.path)
    (listed' : ∀ path ∈ listed, Placeable path)
    (same : ∀ location, ¬ Internal root location → before.file? location = before'.file? location)
    (same' : ∀ location, ¬ Internal root location → after'.file? location = after.file? location) :
    Installed root lapse files listed before' after' where
  contents artifact member :=
    (same' _ (Region.not_internal_home (files' artifact member))).trans
      (installed.contents artifact member)
  gone path member apart := by
    have outside : ¬ Internal root (root ++ Path.segments path) :=
      Region.not_internal_home (listed' path member)
    rw [same' _ outside, ← same _ outside]
    exact installed.gone path member apart
  others location outside apart := by
    rw [same' location outside, ← same location outside]
    exact installed.others location outside apart

/-- A package is installed over an index that could not be read as over one that lists nothing. -/
theorem Installed.unlisted (installed : Installed root lapse files [] before after)
    (listed' : ∀ path ∈ listed, Placeable path) (holds : lapse) :
    Installed root lapse files listed before after where
  contents := installed.contents
  gone path member apart := by
    refine .inr ⟨holds, installed.others _ (Region.not_internal_home (listed' path member)) ?_⟩
    intro other inside same
    rw [List.append_nil] at inside
    exact apart (Path.segments_injective (List.append_cancel_left same) ▸ inside)
  others location outside apart :=
    installed.others location outside fun path member =>
      apart path (List.mem_append_left _ (by simpa using member))

end

variable {index : Artifact} {artifacts : List Artifact} {listed : List Path} {volume : Volume}

theorem installed_of_advances {commit : Commit} (named : index.path = PackageIndex.fileName)
    (files' : ∀ artifact ∈ artifacts, Publishable artifact.path)
    (listed' : ∀ path ∈ listed, Publishable path)
    (held : ∀ artifact ∈ index :: artifacts, Held root volume.disk artifact)
    (advances : Advances root lapse volume.disk (artifacts.map (·.path) ++ [PackageIndex.fileName])
      (PackageIndex.fileName :: (artifacts.map (·.path) ++
        (stalePaths (artifacts.map (·.path)) listed ++ [PackageIndex.fileName])))
      { volume := volume } commit) :
    Installed root lapse (index :: artifacts) listed volume.disk commit.volume.disk := by
  have placed (path : Path) : path ∈ commit.placed ↔ path ∈ (index :: artifacts).map (·.path) := by
    rw [advances.placed, List.map_cons, named]
    simp [or_comm]
  have journal := advances.underway.journal
  constructor
  case contents =>
    intro artifact member
    rw [← (held artifact member).contents]
    exact advances.underway.given artifact.path
      ((placed _).2 (List.mem_map_of_mem (f := (·.path)) member))
  case gone =>
    intro path member apart
    have unplaced : path ∉ commit.placed := fun inside => apart ((placed path).1 inside)
    have stale : path ∈ stalePaths (artifacts.map (·.path)) listed := by
      apply mem_stalePaths _ listed' member
      · exact fun inside => apart (List.mem_cons_of_mem _ inside)
      · intro other inside
        obtain ⟨artifact, produced, rfl⟩ := List.mem_map.1 inside
        exact files' artifact produced
    by_cases saved : path ∈ commit.saved
    · obtain ⟨-, -, -, -, gone⟩ := journal.old path saved
      refine .inl (file?_eq_none_iff.2 fun contents held => ?_)
      exact absurd ((gone unplaced).symm.trans held) nofun
    · have same := journal.file?_home (listed' path member).placeable unplaced saved
      rcases (advances.settled path (by simp [stale])).resolve_left saved with lapse | missing
      · exact .inr ⟨lapse, same⟩
      · exact .inl (same.trans missing)
  case others =>
    intro location outside apart
    apply journal.file?_eq outside
    intro path member
    apply apart path
    rcases member with inside | inside
    · exact List.mem_append_left _ ((placed path).1 inside)
    · have aside := (advances.saved path inside).resolve_right nofun
      simp only [List.mem_cons, List.mem_append, List.not_mem_nil, or_false] at aside
      simp only [List.map_cons, named, List.mem_append, List.mem_cons]
      rcases aside with same | produced | stale | same
      · exact .inl (.inl same)
      · exact .inl (.inr produced)
      · exact .inr (mem_of_mem_stalePaths stale).1
      · exact .inl (.inl same)

def Lists (root : Location) (disk : Disk) (path : Path) : Prop :=
  ∃ text index, disk.file? (root ++ [PackageIndex.fileName]) = some text.toUTF8 ∧
    PackageIndex.ofText? text = some index ∧ path ∈ index.files.map (·.path)

theorem readFile?_fileName (reaches : disk.Reaches output root) :
    disk.readFile? (Path.join output PackageIndex.fileName) =
      disk.file? (root ++ [PackageIndex.fileName]) := by
  have within := Region.within reaches.named .home placeable_fileName
  have leads : disk.Leads root (Region.home.spot PackageIndex.fileName) := by
    rw [spot_fileName]
    exact ⟨reaches.directory, trivial⟩
  rw [← spot_fileName]
  have same : disk.nodeOf? (Path.join output PackageIndex.fileName) =
      disk.node? (root ++ Region.home.spot PackageIndex.fileName) := by
    apply Option.ext
    intro node
    exact (nodeOf?_within reaches within).trans (and_iff_right leads)
  unfold readFile? file?
  rcases found : disk.node? (root ++ Region.home.spot PackageIndex.fileName) with _ | _ | _ <;>
    simp only [same, found]

theorem mem_listedFiles_iff (reaches : disk.Reaches output root) :
    path ∈ listedFiles output disk ↔ Lists root disk path ∧ Path.isContained path = true := by
  unfold listedFiles Lists
  simp only [← readFile?_fileName reaches, ← readText?_eq_some]
  cases disk.readText? (Path.join output PackageIndex.fileName) with
  | none => simp
  | some text => cases found : PackageIndex.ofText? text <;> simp [found]

theorem listedFiles_of_confined (reaches : before.Reaches output root)
    (reaches' : after.Reaches output root) (staged : Confined root stagingName before after) :
    listedFiles output after = listedFiles output before := by
  have outside : ¬ root ++ [stagingName] <+: root ++ [PackageIndex.fileName] := by
    rw [List.prefix_append_right_inj]
    decide
  unfold listedFiles readText?
  rw [readFile?_fileName reaches, readFile?_fileName reaches',
    file?_congr (staged.nodes _ outside)]

theorem ready_of_confined (grounded : disk.Grounded)
    (reaches : (bare root disk).Reaches output root)
    (staged : Confined root stagingName disk before)
    (cleared : Confined root backupName before after) : Ready output root after := by
  have wider := cleared.wider backupName_internal
    (staged.wider stagingName_internal (wider_bare root disk))
  refine ⟨wider.reaches reaches, fun path placeable held => ?_⟩
  have outside : ¬ Internal root (Region.home.location root path) :=
    Region.not_internal_home placeable
  rw [cleared.file? backupName_internal outside, staged.file? stagingName_internal outside] at held
  obtain ⟨contents, held⟩ := Option.isSome_iff_exists.1 held
  exact (leads_bare placeable (grounded.leads (file?_eq_some_iff.1 held))).wider wider

/-- A commit started on a disk on which the files and their index are staged. -/
theorem ends_run (named : index.path = PackageIndex.fileName) (grounded : before.Grounded)
    (reaches : (bare root before).Reaches output root)
    (files' : ∀ artifact ∈ artifacts, Publishable artifact.path)
    (distinct : ((index :: artifacts).map (·.path)).Nodup)
    (listed' : ∀ path ∈ listedFiles output before, Publishable path)
    (staged : Confined root stagingName before volume.disk)
    (held : ∀ artifact ∈ index :: artifacts, Held root volume.disk artifact)
    (lapses : volume.LapsesOnlyIf lapse) :
    Ends (run output (artifacts.map (·.path))) volume
      (fun _ after => Anchored output root after.disk ∧
        Installed root lapse (index :: artifacts) (listedFiles output before) before after.disk)
      (fun _ after => Anchored output root after.disk ∧
        Restores root lapse (artifacts.map (·.path)) before after.disk) := by
  have wider := staged.wider stagingName_internal (wider_bare root before)
  have reached := wider.reaches reaches
  have same := listedFiles_of_confined ((wider_bare root before).reaches reaches) reached staged
  have present : ∀ artifact ∈ index :: artifacts, Placeable artifact.path :=
    List.forall_mem_cons.2 ⟨named ▸ placeable_fileName, fun artifact member =>
      (files' artifact member).placeable⟩
  apply ends_run_of
  intro listed known
  have listed'' : ∀ path ∈ listed, Publishable path := by
    obtain rfl | ⟨-, rfl⟩ := known
    · rwa [same]
    · exact nofun
  have clearing : Ends (clearBackup output) { volume with unanswered := volume.unanswered.tail }
      (fun _ after => Confined root backupName volume.disk after.disk)
      (fun _ after => after.disk = volume.disk) :=
    Confined.ends_clear reached (Region.within_backup reached.named)
  apply ((Storing.maintains_clear_lapses _ lapses.tail).and clearing).mono
  · rintro _ after ⟨still, cleared⟩
    have ready := ready_of_confined grounded reaches staged cleared
    have held' : ∀ artifact ∈ index :: artifacts, Held root after.disk artifact :=
      fun artifact member => (held artifact member).cleared cleared
    have placeable : ∀ path, path ∈ artifacts.map (·.path) ∨ path ∈ listed → Placeable path := by
      rintro path (produced | member)
      · obtain ⟨artifact, member, rfl⟩ := List.mem_map.1 produced
        exact (files' artifact member).placeable
      · exact (listed'' path member).placeable
    have clear : ∀ path ∈ artifacts.map (·.path),
        ¬ Region.home.spot PackageIndex.fileName <+: (Region.home.spot path).dropLast := by
      intro path produced
      obtain ⟨artifact, member, rfl⟩ := List.mem_map.1 produced
      rw [← named]
      exact (held' index List.mem_cons_self).clear (held' artifact (List.mem_cons_of_mem _ member))
    have same' (location : Location) (outside : ¬ Internal root location) :
        after.disk.file? location = before.file? location :=
      (cleared.file? backupName_internal outside).trans
        (staged.file? stagingName_internal outside)
    apply (ends_moves ready still placeable (by simpa [named] using distinct) clear).mono
    · intro _ commit advances
      have reached := advances.underway.journal.wider.reaches ready.reaches
      have narrows := narrows_finish reached
      have installed := (installed_of_advances named files' listed'' held' advances).congr present
        (fun path member => (listed'' path member).placeable) same' narrows.files
      refine ⟨narrows.anchored (anchored_of_reaches reached), ?_⟩
      obtain rfl | ⟨fails, rfl⟩ := known
      · rwa [same] at installed
      · exact installed.unlisted (fun path member => (listed' path member).placeable)
          (lapses fails)
    · intro _ commit halts
      obtain ⟨anchored, restores⟩ := halts.restores_rollBack rfl ready.reaches
      exact ⟨anchored, restores.congr same' fun _ _ => rfl⟩
  · rintro _ after ⟨-, same⟩
    rw [same]
    exact ⟨anchored_of_reaches reached,
      .of_same fun location => staged.file? stagingName_internal⟩

theorem ends_stageAndCommit (system : String) {artifacts : List Artifact} (volume : Volume)
    (grounded : volume.disk.Grounded) (reaches : (bare root volume.disk).Reaches output root)
    (produced : ∀ artifact ∈ artifacts, Publishable artifact.path)
    (distinct : (artifacts.map (·.path)).Nodup)
    (listed : ∀ path ∈ listedFiles output volume.disk, Publishable path)
    (lapses : volume.LapsesOnlyIf lapse) :
    Ends (stageAndCommit system artifacts output) volume
      (fun report after => report = ⟨output, artifacts.map packaged⟩ ∧
        Anchored output root after.disk ∧
        Installed root lapse (indexFile system artifacts :: artifacts)
          (listedFiles output volume.disk) volume.disk after.disk)
      (fun _ after => Anchored output root after.disk ∧
        Restores root lapse (artifacts.map (·.path)) volume.disk after.disk) := by
  have distinct' : ((indexFile system artifacts :: artifacts).map (·.path)).Nodup := by
    rw [List.map_cons, List.nodup_cons]
    refine ⟨fun member => ?_, distinct⟩
    obtain ⟨artifact, inside, same⟩ := List.mem_map.1 member
    exact (produced artifact inside).distinct same
  have placeable : ∀ artifact ∈ artifacts, Placeable artifact.path := fun artifact member =>
    (produced artifact member).placeable
  rw [stageAndCommit]
  apply (maintains_stage system artifacts (Commit.staging output)).ends_bind lapses
    (ends_stage system reaches placeable distinct')
  · rintro _ after lapses ⟨rfl, staged, held⟩
    have paths : (artifacts.map packaged).map (·.path) = artifacts.map (·.path) := by
      simp [packaged, Function.comp_def]
    rw [paths]
    have committed := ends_run rfl grounded reaches produced distinct' listed staged held lapses
    apply committed.bind
    · rintro ⟨⟩ last both
      exact Ends.pure_iff.2 ⟨rfl, both⟩
    · exact fun _ _ both => both
  · intro _ after staged
    have wider := staged.wider stagingName_internal (wider_bare root volume.disk)
    exact ⟨anchored_of_reaches (wider.reaches reaches),
      .of_same fun location => staged.file? stagingName_internal⟩

def indexed (artifact : Artifact) : IndexEntry :=
  ⟨artifact.path, artifact.contents.size, (ContentHash.ofBytes artifact.contents).hex⟩

/-- The artifacts and an index of them stand in the place of the files that were listed, and no
other file is changed. Where a query failed, a file that was listed may be left. -/
structure Replaces (root : Location) (lapse : Prop) (system : String) (artifacts : List Artifact)
    (before after : Disk) : Prop where
  contents : ∀ artifact ∈ artifacts,
    after.file? (root ++ Path.segments artifact.path) = some artifact.contents
  index : after.file? (root ++ [PackageIndex.fileName]) =
    some (PackageIndex.text ⟨system, artifacts.map indexed⟩).toUTF8
  gone : ∀ path, Lists root before path → path ∉ artifacts.map (·.path) →
    after.file? (root ++ Path.segments path) = none ∨ lapse ∧
      after.file? (root ++ Path.segments path) = before.file? (root ++ Path.segments path)
  others : ∀ location, ¬ Internal root location → location ≠ root ++ [PackageIndex.fileName] →
    (∀ artifact ∈ artifacts, location ≠ root ++ Path.segments artifact.path) →
    (∀ path, Lists root before path → location ≠ root ++ Path.segments path) →
    after.file? location = before.file? location

theorem Installed.replaces {system : String}
    (installed : Installed root lapse (indexFile system artifacts :: artifacts)
      (listedFiles output before) before after) (reaches : before.Reaches output root)
    (produced : ∀ artifact ∈ artifacts, Publishable artifact.path)
    (listed : ∀ path, Lists root before path → Publishable path) :
    Replaces root lapse system artifacts before after where
  contents artifact member := installed.contents artifact (List.mem_cons_of_mem _ member)
  index := by
    have found := installed.contents (indexFile system artifacts) List.mem_cons_self
    have entries : (artifacts.map packaged).map IndexEntry.ofFile = artifacts.map indexed := by
      rw [List.map_map]
      apply List.map_congr_left
      intro artifact member
      simp [IndexEntry.ofFile, packaged, indexed, (produced artifact member).portable]
    have place : Path.segments PackageIndex.fileName = [PackageIndex.fileName] := spot_fileName
    simpa only [indexFile, place, PackageIndex.ofFiles, entries] using found
  gone path lists apart := by
    apply installed.gone path
    · exact (mem_listedFiles_iff reaches).2 ⟨lists, (listed path lists).isContained⟩
    · rw [List.map_cons, List.mem_cons, not_or]
      exact ⟨(listed path lists).distinct, apart⟩
  others location outside unindexed unproduced unlisted := by
    apply installed.others location outside
    intro path member
    rcases List.mem_append.1 member with produced | listed
    · obtain ⟨artifact, inside, rfl⟩ := List.mem_map.1 produced
      rcases List.mem_cons.1 inside with rfl | inside
      · have place : Path.segments PackageIndex.fileName = [PackageIndex.fileName] :=
          spot_fileName
        simpa only [indexFile, place] using unindexed
      · exact unproduced artifact inside
    · exact unlisted path ((mem_listedFiles_iff reaches).1 listed).1

/-- A package is written in full or not at all. Whatever calls are refused, a report means that
the artifacts and their index stand in the place of the earlier package, and an error that every
file is as it was. A query that fails may leave a file that the earlier index lists, and lose one
that stood in the place of an artifact. The output path may lead anywhere but through the staging or
the backup directory, of which nothing is said. -/
theorem write_replaces_or_restores (system : String) {artifacts : List Artifact} {output : Path}
    {root : Location} {disk : Disk} (refusals unanswered : List Bool) (grounded : disk.Grounded)
    (reaches : (bare root disk).Reaches output root)
    (produced : ∀ artifact ∈ artifacts, Publishable artifact.path)
    (distinct : (artifacts.map (·.path)).Nodup)
    (listed : ∀ path, Lists root disk path → Publishable path) :
    Ends (write system artifacts output) ⟨disk, refusals, unanswered⟩
      (fun report after => report = ⟨output, artifacts.map packaged⟩ ∧
        Replaces root (true ∈ unanswered) system artifacts disk after.disk)
      (fun _ after => Restores root (true ∈ unanswered) (artifacts.map (·.path)) disk
        after.disk) := by
  have reached := (wider_bare root disk).reaches reaches
  have listed' : ∀ path ∈ listedFiles output disk, Publishable path := fun path member =>
    listed path ((mem_listedFiles_iff reached).1 member).1
  have lapses : (⟨disk, refusals, unanswered⟩ : Volume).LapsesOnlyIf (true ∈ unanswered) := id
  have committed := ends_stageAndCommit system ⟨disk, refusals, unanswered⟩ grounded
    reaches produced distinct listed' lapses
  have staging := Region.within_staging reaches.named
  rw [write]
  apply Ends.bind_iff.2
  apply Ends.lift_iff.2
  apply committed.mono
  · rintro _ after ⟨rfl, anchored, installed⟩
    have narrows := narrows_removeTree anchored staging stagingName_internal
    have files' : ∀ artifact ∈ indexFile system artifacts :: artifacts,
        Placeable artifact.path :=
      List.forall_mem_cons.2 ⟨placeable_fileName, fun artifact member =>
        (produced artifact member).placeable⟩
    have final := installed.congr files' (fun path member => (listed' path member).placeable)
      (fun _ _ => rfl) narrows.files
    apply Ends.bind_iff.2
    apply Ends.modify_iff.2
    apply Ends.pure_iff.2
    exact ⟨rfl, final.replaces reached produced listed⟩
  · rintro error after ⟨anchored, restores⟩
    have narrows := narrows_removeTree anchored staging stagingName_internal
    apply Ends.bind_iff.2
    apply Ends.modify_iff.2
    apply Ends.throw_iff.2
    exact restores.congr (fun _ _ => rfl) narrows.files

/-- A package with a file to come again and one to go, and a file of someone else. -/
def settled : Disk where
  entries := [(["out"], .directory), (["out", "notes"], .file "kept".toUTF8),
    (["out", "a"], .file "first".toUTF8), (["out", "old"], .directory),
    (["out", "old", "b"], .file "stale".toUTF8),
    (["out", "weft-package.json"], .file (PackageIndex.text
      ⟨"demo", [⟨"a", 5, "00"⟩, ⟨"old/b", 5, "00"⟩]⟩).toUTF8)]

theorem grounded_settled : settled.Grounded := by decide +kernel

theorem reaches_settled : (bare ["out"] settled).Reaches "out" ["out"] :=
  ⟨by decide +kernel, by decide +kernel⟩

def renewed : List Artifact := [.ofText "a" "second", .ofText "new/c" "third"]

/-- The run that is let through ends well, and the one whose last call is refused does not. -/
theorem write_over_settled :
    settled.Grounded ∧ (bare ["out"] settled).Reaches "out" ["out"] ∧
      (∀ path, Lists ["out"] settled path ↔ path ∈ ["a", "old/b"]) ∧
      (∀ refusals unanswered, Ends (write "demo" renewed "out") ⟨settled, refusals, unanswered⟩
        (fun report after => report = ⟨"out", renewed.map packaged⟩ ∧
          Replaces ["out"] (true ∈ unanswered) "demo" renewed settled after.disk)
        (fun _ after => Restores ["out"] (true ∈ unanswered) ["a", "new/c"] settled
          after.disk)) ∧
      ((write "demo" renewed "out").run.run ⟨settled, [], []⟩).1.isOk = true ∧
      ((write "demo" renewed "out").run.run
        ⟨settled, List.replicate 17 false ++ [true], []⟩).1.isOk = false := by
  have held : settled.file? ["out", "weft-package.json"] =
      some (PackageIndex.text ⟨"demo", [⟨"a", 5, "00"⟩, ⟨"old/b", 5, "00"⟩]⟩).toUTF8 := by
    simp only [file?, node?, settled]
    rfl
  have read : PackageIndex.ofText? (PackageIndex.text
      ⟨"demo", [⟨"a", 5, "00"⟩, ⟨"old/b", 5, "00"⟩]⟩) =
      some ⟨"demo", [⟨"a", 5, "00"⟩, ⟨"old/b", 5, "00"⟩]⟩ := by decide +kernel
  have listed (path : Path) : Lists ["out"] settled path ↔ path ∈ ["a", "old/b"] := by
    constructor
    · rintro ⟨text, index, found, known, member⟩
      obtain rfl := String.toByteArray_inj.1 (Option.some.inj (held.symm.trans found))
      obtain rfl := Option.some.inj (read.symm.trans known)
      exact member
    · exact fun member => ⟨_, _, held, read, member⟩
  refine ⟨grounded_settled, reaches_settled, listed, fun refusals unanswered => ?_,
    by decide +kernel, by decide +kernel⟩
  apply write_replaces_or_restores "demo" refusals unanswered grounded_settled reaches_settled
    (by decide +kernel) (by decide +kernel)
  intro path lists
  have one : ∀ path ∈ ["a", "old/b"], Publishable path := by decide +kernel
  exact one path ((listed path).1 lists)

/-- A file, a directory in the way of another one, and a backup that was left over. -/
def obstructed : Disk where
  entries := [(["out"], .directory), (["out", "a"], .file "first".toUTF8),
    (["out", ".weft-backup"], .directory), (["out", "new"], .directory),
    (["out", "new", "c"], .directory)]

/-- The file is lost if the output path leads through the backup directory, which is cleared away
before the file is looked for. -/
example : (((write "demo" renewed "out/.weft-backup/..").run.run ⟨obstructed, [], []⟩).1.isOk,
      ((write "demo" renewed "out/.weft-backup/..").run.run ⟨obstructed, [], []⟩).2.disk.file?
        ["out", "a"]) =
    (false, none) := by
  decide +kernel

/-- It is also lost if the query for it fails, which is the fifth one. -/
example : (((write "demo" renewed "out").run.run
        ⟨obstructed, [], List.replicate 4 false ++ [true]⟩).1.isOk,
      ((write "demo" renewed "out").run.run
        ⟨obstructed, [], List.replicate 4 false ++ [true]⟩).2.disk.file? ["out", "a"]) =
    (false, none) := by
  decide +kernel

end Package

end Elastic
