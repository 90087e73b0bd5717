import Elastic.Proofs.Disk.Places
import Elastic.Proofs.Package.Moving

namespace Elastic

open Disk

/-! Packaging changes no file outside the output directory, whatever the artifacts are, whatever an
earlier index lists, and however it ends. -/

namespace Storing

variable {α : Type} {current root : Location} {origin : Disk} {path : Path}

/-- The volume differs from a disk below a directory only. Relative paths start where they did. -/
structure Spared (current root : Location) (origin : Disk) (volume : Volume) : Prop where
  starts : origin.current = current
  spares : origin.Spares root volume.disk

theorem Spared.starts_there {volume : Volume} (spared : Spared current root origin volume) :
    volume.disk.current = current :=
  spared.spares.current.trans spared.starts

theorem Spared.next {volume later : Volume} (spared : Spared current root origin volume)
    (spares : volume.disk.Spares root later.disk) : Spared current root origin later :=
  ⟨spared.starts, spared.spares.trans spares⟩

variable {operation : Disk → Option Disk}
  (spares : ∀ disk after, disk.current = current → operation disk = some after →
    disk.Spares root after)

include spares

theorem spares_getD {disk : Disk} (same : disk.current = current) :
    disk.Spares root ((operation disk).getD disk) := by
  cases done : operation disk with
  | none => exact .refl root disk
  | some after => exact spares disk after same done

theorem maintains_call : Maintains (Spared current root origin) (call path operation) :=
  fun volume spared => ends_call (fun _ _ => spared.next (.refl root volume.disk)) fun _ _ done =>
    spared.next (spares volume.disk _ spared.starts_there done)

theorem maintains_consistent : Maintains (Spared current root origin) (consistent operation) :=
  Maintains.modify fun _ spared => spared.next (spares_getD spares spared.starts_there)

omit spares

theorem maintains_makeParent (path : Path) :
    Maintains (Spared current root origin) (makeParent path) := by
  unfold makeParent
  split
  · exact Maintains.pure _
  · exact maintains_call fun _ _ _ => spares_makeDirectories root

theorem maintains_store {contents : ByteArray} (below : path.Below current root) :
    Maintains (Spared current root origin) (store path contents) :=
  (maintains_makeParent path).bind fun _ =>
    maintains_call fun _ _ same => spares_writeFile same below

theorem maintains_moveFile {source target : Path} (below : source.Below current root)
    (below' : target.Below current root) :
    Maintains (Spared current root origin) (call path (moveFile source target)) :=
  maintains_call fun _ _ same => spares_moveFile same below below'

theorem maintains_clear {target : Path} (below : target.Below current root) :
    Maintains (Spared current root origin) (do
      if ← ask false fun disk => disk.pathExists target then call target (removeTree target)) :=
  maintains_ask_bind (fun _ spared => ⟨spared.starts, spared.spares⟩) (fun _ => Maintains.ite
    (maintains_call fun _ _ same => spares_removeTree same below) (Maintains.pure _))
    (Maintains.pure _)

end Storing

namespace Commit

open Storing

variable {α : Type} {output path : Path} {current root : Location} {origin : Disk}
  {commit : Commit}

theorem below_staging (below : output.Below current root) : (staging output).Below current root :=
  below.join (by decide +kernel)

theorem below_backup (below : output.Below current root) : (backup output).Below current root :=
  below.join (by decide +kernel)

structure Bounded (current root : Location) (origin : Disk) (commit : Commit) : Prop where
  spared : Spared current root origin commit.volume
  placed : ∀ path ∈ commit.placed, path.isContained = true
  saved : ∀ path ∈ commit.saved, path.isContained = true

theorem Bounded.maintains_onVolume {work : Storing α}
    (maintains : Maintains (Spared current root origin) work) :
    Maintains (Bounded current root origin) (onVolume work) := by
  intro commit bounded
  exact ends_onVolume ((maintains commit.volume bounded.spared).mono
    (fun _ _ spared => ⟨spared, bounded.placed, bounded.saved⟩)
    fun _ _ spared => ⟨spared, bounded.placed, bounded.saved⟩)

section

variable (below : output.Below current root)

include below

theorem maintains_setAside (contained : path.isContained = true) :
    Maintains (Bounded current root origin) (setAside output path) := by
  refine (Bounded.maintains_onVolume fun _ spared => ends_ask ⟨spared.starts, spared.spares⟩
    fun _ => ⟨spared.starts, spared.spares⟩).bind fun _ => Maintains.ite ?_ (Maintains.pure _)
  refine (Bounded.maintains_onVolume (maintains_makeParent _)).bind fun _ => ?_
  refine (Bounded.maintains_onVolume (maintains_moveFile (below.join contained)
    ((below_backup below).join contained))).bind fun _ => ?_
  refine (Maintains.modify fun commit bounded => ?_).bind fun _ => Maintains.pure _
  exact ⟨bounded.spared, bounded.placed, List.forall_mem_cons.2 ⟨contained, bounded.saved⟩⟩

theorem maintains_place (contained : path.isContained = true) :
    Maintains (Bounded current root origin) (place output path) := by
  refine (maintains_setAside below contained).discard.bind fun _ => ?_
  refine (Bounded.maintains_onVolume (maintains_makeParent _)).bind fun _ => ?_
  refine (Bounded.maintains_onVolume (maintains_moveFile ((below_staging below).join contained)
    (below.join contained))).bind fun _ => Maintains.modify fun commit bounded => ?_
  exact ⟨bounded.spared, List.forall_mem_cons.2 ⟨contained, bounded.placed⟩, bounded.saved⟩

theorem maintains_prune (contained : path.isContained = true) :
    Maintains (Bounded current root origin) (prune output path) :=
  (maintains_setAside below contained).bind fun _ => Maintains.ite
    (Maintains.modify fun _ bounded => ⟨bounded.spared, bounded.placed, bounded.saved⟩)
    (Maintains.pure _)

theorem maintains_moves {files stale : List Path}
    (files' : ∀ path ∈ files, path.isContained = true)
    (stale' : ∀ path ∈ stale, path.isContained = true) :
    Maintains (Bounded current root origin) (moves output files stale) := by
  have index : Path.isContained PackageIndex.fileName = true := by decide +kernel
  have outdated : ∀ path ∈ stalePaths files stale, path.isContained = true :=
    fun path member => stale' path (mem_of_mem_stalePaths member).1
  refine (maintains_setAside below index).discard.bind fun _ => ?_
  refine (maintains_placeAll fun path member => maintains_place below (files' path member)).bind
    fun _ => ?_
  exact (maintains_pruneAll fun path member => maintains_prune below (outdated path member)).bind
    fun _ => maintains_place below index

end

theorem spares_foldl {step : Disk → Path → Disk} {paths : List Path} {disk : Disk}
    (each : ∀ path ∈ paths, ∀ disk : Disk, disk.current = current →
      disk.Spares root (step disk path)) (same : disk.current = current) :
    disk.Spares root (paths.foldl step disk) := by
  induction paths generalizing disk with
  | nil => exact .refl root disk
  | cons path rest induction =>
      obtain ⟨here, later⟩ := List.forall_mem_cons.1 each
      have first := here disk same
      exact first.trans (induction later (first.current.trans same))

theorem spares_removeEmptied (root : Location) (output : Path) (paths : List Path) (disk : Disk) :
    disk.Spares root (removeEmptied output paths disk) := by
  fun_induction removeEmptied output paths disk with
  | case1 disk => exact .refl root disk
  | case2 => exact .refl root _
  | case3 _ _ _ _ removed induction =>
      exact (spares_removeEmptyDirectory root removed).trans induction

theorem contained_listedFiles (output : Path) (disk : Disk) :
    ∀ path ∈ listedFiles output disk, path.isContained = true := by
  intro path member
  unfold listedFiles at member
  split at member
  · cases member
  · exact (List.mem_filter.1 member).2

section

variable (below : output.Below current root)

include below

theorem spares_clearBackup {disk : Disk} (same : disk.current = current) :
    disk.Spares root ((disk.removeTree (backup output)).getD disk) :=
  spares_getD (fun _ _ same => spares_removeTree same (below_backup below)) same

theorem spares_finish (same : commit.volume.disk.current = current) :
    commit.volume.disk.Spares root (finish output commit) := by
  have cleared := spares_clearBackup below same
  refine cleared.trans (spares_foldl (fun path _ disk _ => ?_) (cleared.current.trans same))
  exact spares_removeEmptied root output (directoriesOf path) disk

theorem Bounded.spares_rollBack (bounded : commit.Bounded current root origin) :
    commit.volume.disk.Spares root (rollBack output commit) := by
  have withdrawn : commit.volume.disk.Spares root
      (commit.placed.foldl (withdraw output) commit.volume.disk) :=
    spares_foldl (fun path member _ => spares_getD fun _ _ same =>
      spares_removeFile same (below.join (bounded.placed path member))) bounded.spared.starts_there
  have restored (disk : Disk) (same : disk.current = current) :
      disk.Spares root (commit.saved.foldl (restore output) disk) :=
    spares_foldl (fun path member _ => spares_getD fun _ _ same =>
      spares_moveFile same ((below_backup below).join (bounded.saved path member))
        (below.join (bounded.saved path member))) same
  have undone := withdrawn.trans (restored _ (withdrawn.current.trans bounded.spared.starts_there))
  exact undone.trans (spares_clearBackup below (undone.current.trans bounded.spared.starts_there))

theorem maintains_run {files : List Path} (contained : ∀ path ∈ files, path.isContained = true) :
    Maintains (Spared current root origin) (run output files) := by
  intro volume spared
  apply ends_run_of
  intro listed known
  have listed' : ∀ path ∈ listed, path.isContained = true := by
    obtain rfl | ⟨-, rfl⟩ := known
    · exact contained_listedFiles output volume.disk
    · exact nofun
  have spared : Spared current root origin
      { volume with unanswered := volume.unanswered.tail } := ⟨spared.starts, spared.spares⟩
  apply (maintains_clear (below_backup below) _ spared).mono
  · intro _ after spared
    apply (maintains_moves below contained listed' { volume := after } ⟨spared, nofun, nofun⟩).mono
    · exact fun _ _ bounded =>
        bounded.spared.next (spares_finish below bounded.spared.starts_there)
    · exact fun _ _ bounded => bounded.spared.next (bounded.spares_rollBack below)
  · exact fun _ _ spared => spared

end

end Commit

namespace Package

open Commit Storing

variable {system : String} {artifacts : List Artifact} {output staging : Path}
  {current root : Location} {origin : Disk} {volume : Volume}

theorem ends_stageEach_contained (below : staging.Below current root)
    (spared : Spared current root origin volume) :
    Ends (stageEach staging artifacts) volume
      (fun _ after => Spared current root origin after ∧
        ∀ artifact ∈ artifacts, Path.isContained artifact.path = true)
      fun _ after => Spared current root origin after := by
  induction artifacts generalizing volume with
  | nil => exact Ends.pure_iff.2 ⟨spared, nofun⟩
  | cons artifact rest induction =>
      rw [stageEach]
      refine Ends.ite (fun _ => Ends.throw_bind spared) fun inside => ?_
      rw [Bool.not_eq_true', Bool.not_eq_false] at inside
      refine Ends.bind (maintains_store (below.join inside) volume spared)
        (fun _ after spared => ?_) fun _ _ spared => spared
      exact (induction spared).mono
        (fun _ _ later => ⟨later.1, List.forall_mem_cons.2 ⟨inside, later.2⟩⟩)
        fun _ _ spared => spared

theorem ends_stage_contained (below : staging.Below current root)
    (spared : Spared current root origin volume) :
    Ends (stage system artifacts staging) volume
      (fun files after => Spared current root origin after ∧
        ∀ path ∈ files.map (·.path), Path.isContained path = true)
      fun _ after => Spared current root origin after := by
  refine Ends.bind (maintains_clear below volume spared) (fun _ after spared => ?_)
    fun _ _ spared => spared
  refine Ends.bind (ends_stageEach_contained below spared) (fun _ after staged => ?_)
    fun _ _ spared => spared
  obtain ⟨spared, inside⟩ := staged
  refine Ends.bind (maintains_store (below.join (by decide +kernel)) after spared)
    (fun _ last spared => Ends.pure_iff.2 ⟨spared, ?_⟩) fun _ _ spared => spared
  intro path member
  rw [List.map_map] at member
  obtain ⟨artifact, there, rfl⟩ := List.mem_map.1 member
  exact inside artifact there

/-- Writing a package changes no file outside the output directory. -/
theorem maintains_write (system : String) (artifacts : List Artifact)
    (below : output.Below current root) :
    Maintains (Spared current root origin) (write system artifacts output) := by
  intro volume spared
  have committed : Ends (stageAndCommit system artifacts output) volume
      (fun _ after => Spared current root origin after)
      fun _ after => Spared current root origin after := by
    refine Ends.bind (ends_stage_contained (below_staging below) spared) (fun _ after staged => ?_)
      fun _ _ spared => spared
    obtain ⟨spared, inside⟩ := staged
    exact (maintains_run below inside).bind (fun _ => Maintains.pure _) after spared
  refine Ends.bind_iff.2 (Ends.lift_iff.2 (committed.mono (fun report after spared => ?_)
    fun error after spared => ?_))
  · exact ((maintains_consistent fun _ _ same => spares_removeTree same (below_staging below)).bind
      fun _ => Maintains.pure report) after spared
  · exact ((maintains_consistent fun _ _ same => spares_removeTree same (below_staging below)).bind
      fun _ => Maintains.throw error) after spared

end Package

end Elastic
