import Elastic.HardwareSystem
import Elastic.Proofs.Package.Bounds

namespace Elastic

open Disk

/-! What a call of a system does to the lock of its output directory. -/

namespace HardwareSystem

variable {system : HardwareSystem}

theorem place_lockPath (system : HardwareSystem) (current : Location) :
    system.lockPath.place current = system.output.place current ++ [lockName] :=
  Path.place_join current (by decide +kernel)

theorem level_lockPath (level : system.output.IsLevel) : system.lockPath.IsLevel :=
  level.join (by decide +kernel) (by decide +kernel)

theorem segments_lockPath (system : HardwareSystem) :
    ∃ front, Path.segments system.lockPath = front ++ [lockName] := by
  have relative : Path.isAbsolute lockName = false := by decide +kernel
  have hostSilent : Path.segments lockName = [lockName] := by decide +kernel
  by_cases named : system.output = ""
  · exact ⟨[], by rw [lockPath, named, Path.join_empty relative, hostSilent, List.nil_append]⟩
  · exact ⟨_, by rw [lockPath, Path.segments_join named relative, hostSilent]⟩

end HardwareSystem

def Stage.locks : Stage → Bool
  | .generated | .compiled => true
  | .constructed | .packaged | .failed => false

theorem Stage.locks_iff {stage : Stage} :
    stage.locks = true ↔ stage = .generated ∨ stage = .compiled := by
  cases stage <;> decide

namespace SystemState

variable {state after last : SystemState}

def directory (state : SystemState) : Location :=
  state.system.output.place state.volume.disk.current

def lock (state : SystemState) : Location := state.directory ++ [HardwareSystem.lockName]

def lockFile? (state : SystemState) : Option ByteArray := state.volume.disk.file? state.lock

structure Fits (state : SystemState) : Prop where
  level : state.system.output.IsLevel
  grounded : state.volume.disk.Grounded

structure Stays (state after : SystemState) : Prop where
  output : after.system.output = state.system.output
  spares : state.volume.disk.Spares state.directory after.volume.disk

theorem Stays.directory (stays : state.Stays after) : after.directory = state.directory := by
  rw [SystemState.directory, stays.output, stays.spares.current]
  rfl

theorem Stays.lock (stays : state.Stays after) : after.lock = state.lock :=
  congrArg (· ++ [HardwareSystem.lockName]) stays.directory

theorem Stays.fits (stays : state.Stays after) (fits : state.Fits) : after.Fits :=
  ⟨stays.output ▸ fits.level, stays.spares.grounded fits.grounded⟩

theorem Stays.refl (state : SystemState) : state.Stays state := ⟨rfl, .refl _ _⟩

theorem Stays.trans (first : state.Stays after) (second : after.Stays last) : state.Stays last :=
  ⟨second.output.trans first.output, first.spares.trans (first.directory ▸ second.spares)⟩

/-- Only what has no part in the lock is changed. -/
structure Alike (state after : SystemState) : Prop where
  volume : after.volume = state.volume
  output : after.system.output = state.system.output
  stage : after.system.stage = state.system.stage
  held : after.system.holdsLock = state.system.holdsLock

theorem Alike.trans (first : state.Alike after) (second : after.Alike last) : state.Alike last :=
  ⟨second.volume.trans first.volume, second.output.trans first.output,
    second.stage.trans first.stage, second.held.trans first.held⟩

theorem Alike.stays (alike : state.Alike after) : state.Stays after :=
  ⟨alike.output, alike.volume ▸ .refl _ _⟩

theorem Alike.lockFile? (alike : state.Alike after) : after.lockFile? = state.lockFile? := by
  rw [SystemState.lockFile?, alike.stays.lock, alike.volume]
  rfl

/-- The lock is given back if it was held, and no other file is changed. -/
structure Releases (state after : SystemState) : Prop where
  stays : state.Stays after
  free : after.system.holdsLock = false
  released : state.system.holdsLock = true → after.lockFile? = none
  kept : ∀ location, location ≠ state.lock ∨ state.system.holdsLock = false →
    after.volume.disk.file? location = state.volume.disk.file? location

structure Fails (state after : SystemState) : Prop extends Releases state after where
  stage : after.system.stage = .failed

theorem Alike.fails (alike : state.Alike after) (fails : after.Fails last) : state.Fails last where
  stays := alike.stays.trans fails.stays
  free := fails.free
  released held := fails.released (alike.held.trans held)
  kept location apart := by
    rw [fails.kept location (by rwa [alike.stays.lock, alike.held]), alike.volume]
  stage := fails.stage

/-- What a call can do to the lock. -/
inductive Passes (state after : SystemState) : Prop
  | keeps (held : after.system.holdsLock = state.system.holdsLock)
      (file : after.lockFile? = state.lockFile?)
  | takes (free : state.system.holdsLock = false) (vacant : state.lockFile? = none)
      (held : after.system.holdsLock = true) (file : after.lockFile?.isSome = true)
  | frees (held : state.system.holdsLock = true) (free : after.system.holdsLock = false)
      (gone : after.lockFile? = none)

theorem Releases.passes (releases : state.Releases after) : state.Passes after := by
  cases held : state.system.holdsLock with
  | true => exact .frees held releases.free (releases.released held)
  | false =>
      refine .keeps (releases.free.trans held.symm) ?_
      rw [lockFile?, releases.stays.lock]
      exact releases.kept state.lock (.inr held)

/-- What a call leaves: a system that holds its lock in the stages that want it. -/
structure Called (state after : SystemState) : Prop where
  stays : state.Stays after
  sound : after.system.holdsLock = after.system.stage.locks
  passes : state.Passes after

theorem Fails.called (fails : state.Fails after) : state.Called after where
  stays := fails.stays
  sound := by rw [fails.free, fails.stage]; rfl
  passes := fails.passes

theorem Called.of_files (stays : state.Stays after) (free : state.system.holdsLock = false)
    (free' : after.system.holdsLock = false) (stage : after.system.stage = .failed)
    (files : ∀ location, after.volume.disk.file? location = state.volume.disk.file? location) :
    state.Called after where
  stays := stays
  sound := by rw [free', stage]; rfl
  passes := by
    refine .keeps (free'.trans free.symm) ?_
    rw [lockFile?, stays.lock]
    exact files state.lock

structure Locks (state after : SystemState) : Prop where
  stays : state.Stays after
  vacant : state.lockFile? = none
  files : ∀ location, after.volume.disk.file? location =
    if location = state.lock then some .empty else state.volume.disk.file? location

theorem Locks.of_volume (locks : state.Locks after) (volume : last.volume = after.volume)
    (output : last.system.output = after.system.output) : state.Locks last where
  stays := locks.stays.trans ⟨output, volume ▸ .refl _ _⟩
  vacant := locks.vacant
  files := volume ▸ locks.files

theorem Locks.isSome_lockFile? (locks : state.Locks after) : after.lockFile?.isSome = true := by
  rw [lockFile?, locks.stays.lock, locks.files, if_pos rfl]
  rfl

theorem Locks.file?_of_releases (locks : state.Locks after)
    (held : after.system.holdsLock = true) (releases : after.Releases last) (location : Location) :
    last.volume.disk.file? location = state.volume.disk.file? location := by
  by_cases here : location = state.lock
  · have gone := releases.released held
    rw [lockFile?, releases.stays.lock, locks.stays.lock] at gone
    rw [here, gone, ← locks.vacant]
    rfl
  · rw [releases.kept location (.inl (locks.stays.lock ▸ here)), locks.files, if_neg here]

end SystemState

namespace Working

open HardwareSystem

variable {α β : Type} {state : SystemState} {good : α → SystemState → Prop}
  {bad : BuildError → SystemState → Prop}

theorem ends_system_bind {next : HardwareSystem → Working α}
    (rest : Ends (next state.system) state good bad) : Ends (system >>= next) state good bad :=
  Ends.bind_iff.2 (Ends.get_bind (Ends.pure_iff.2 rest))

theorem ends_change {update : HardwareSystem → HardwareSystem} {good : Unit → SystemState → Prop}
    (rest : good () { state with system := update state.system }) :
    Ends (change update) state good bad :=
  Ends.modify_iff.2 rest

theorem ends_update_bind {update : HardwareSystem → HardwareSystem} {next : Unit → Working α}
    (neutral : state.Alike { state with system := update state.system })
    (rest : ∀ after, state.Alike after → Ends (next ()) after good bad) :
    Ends (change update >>= next) state good bad :=
  Ends.bind_iff.2 (ends_change (rest _ neutral))

theorem ends_store {work : Storing β} {good : Except BuildError β → SystemState → Prop}
    (ends : Ends work state.volume
      (fun value volume => good (.ok value) { state with volume := volume })
      fun error volume => good (.error error) { state with volume := volume }) :
    Ends (store work) state good bad := by
  have run : (store work).run.run state =
      (.ok (work.run.run state.volume).1, { state with volume := (work.run.run state.volume).2 }) :=
    rfl
  obtain ⟨value, volume, ran, holds⟩ | ⟨error, volume, ran, holds⟩ := ends.cases_run
  · unfold Ends
    rw [run, ran]
    exact holds
  · unfold Ends
    rw [run, ran]
    exact holds

theorem ends_release (fits : state.Fits) :
    Ends release state
      (fun _ after => state.Releases after ∧
        after.system = { state.system with holdsLock := false })
      fun _ _ => False := by
  apply ends_system_bind
  apply Ends.ite
  · intro held
    apply ends_system_bind
    refine Ends.bind_iff.2 (Ends.discard_iff.2 (ends_store (Ends.modify_iff.2 (ends_change ?_))))
    obtain ⟨front, split⟩ := state.system.segments_lockPath
    have place : state.system.lockPath.place state.volume.disk.current = state.lock :=
      state.system.place_lockPath state.volume.disk.current
    have below : state.system.lockPath.Below state.volume.disk.current state.directory :=
      ⟨level_lockPath fits.level, place ▸ List.prefix_append _ _⟩
    have files := file?_removeFile fits.grounded below.level split (by decide +kernel)
    rw [place] at files
    have stays : state.Stays ⟨{ state.system with holdsLock := false }, { state.volume with
        disk := (removeFile state.system.lockPath state.volume.disk).getD state.volume.disk }⟩ :=
      ⟨rfl, Storing.spares_getD (fun _ _ same => spares_removeFile same below) rfl⟩
    refine ⟨⟨stays, rfl, fun _ => ?_, fun location apart => ?_⟩, rfl⟩
    · rw [SystemState.lockFile?, stays.lock]
      exact (files state.lock).trans (if_pos rfl)
    · refine (files location).trans (if_neg ?_)
      exact apart.resolve_right fun free => Bool.false_ne_true (free.symm.trans held)
  · intro free
    rw [Bool.not_eq_true] at free
    refine Ends.pure_iff.2 ⟨⟨.refl state, free, fun held => ?_, fun _ _ => rfl⟩, ?_⟩
    · cases free.symm.trans held
    · rw [← free]

theorem ends_fail (fits : state.Fits) (error : BuildError) :
    Ends (fail error : Working α) state (fun _ _ => False)
      fun failed after => failed = error ∧ state.Fails after := by
  refine Ends.bind_iff.2 (ends_change ?_)
  refine Ends.bind (ends_release ⟨fits.level, fits.grounded⟩)
    (fun _ after done => Ends.throw_iff.2 ⟨rfl, ?_⟩) fun _ _ => False.elim
  obtain ⟨releases, equal⟩ := done
  have stays : state.Stays after := ⟨releases.stays.output, releases.stays.spares⟩
  exact ⟨⟨stays, releases.free, releases.released, releases.kept⟩, equal ▸ rfl⟩

theorem ends_settle (fits : state.Fits) (next : Stage) (outcome : Except BuildError α) :
    Ends (settle next outcome) state
      (fun _ after => after = { state with system := { state.system with stage := next } })
      fun error after => outcome = .error error ∧ state.Fails after := by
  cases outcome with
  | error error =>
      refine (ends_fail fits error).mono (fun _ _ => False.elim) fun failed after done => ?_
      exact ⟨congrArg _ done.1.symm, done.2⟩
  | ok value => exact Ends.bind_iff.2 (ends_change (Ends.pure_iff.2 rfl))

theorem ends_enter (fits : state.Fits) (operation : String) (expected : Stage) :
    Ends (enter operation expected) state
      (fun _ after => after = state ∧ state.system.stage = expected)
      fun error after => (∀ path, error ≠ .outputLocked path) ∧ state.Fails after := by
  apply ends_system_bind
  have fails {error : BuildError} (other : ∀ path, error ≠ .outputLocked path) :
      Ends (fail error : Working Unit) state
        (fun _ after => after = state ∧ state.system.stage = expected)
        fun error after => (∀ path, error ≠ .outputLocked path) ∧ state.Fails after :=
    (ends_fail fits error).mono (fun _ _ => False.elim) fun _ _ done =>
      ⟨fun path same => other path (done.1.symm.trans same), done.2⟩
  exact Ends.ite (fun same => Ends.pure_iff.2 ⟨rfl, same⟩) fun _ =>
    Ends.ite (fun _ => fails fun _ => nofun) fun _ => fails fun _ => nofun

theorem ends_lock (fits : state.Fits) :
    Ends (lock state.system.output state.system.lockPath) state.volume
      (fun _ volume => state.lockFile? = none ∧
        state.volume.disk.Spares state.directory volume.disk ∧
          ∀ location, volume.disk.file? location = if location =
            state.lock then some .empty else state.volume.disk.file? location)
      fun _ volume => state.volume.disk.Spares state.directory volume.disk ∧
        ∀ location, volume.disk.file? location = state.volume.disk.file? location := by
  have place : state.system.lockPath.place state.volume.disk.current = state.lock :=
    state.system.place_lockPath state.volume.disk.current
  have level := level_lockPath fits.level
  refine Ends.bind_iff.2 (Storing.ends_call (fun _ _ => ⟨.refl _ _, fun _ => rfl⟩)
    fun made rest making => ?_)
  have spares := spares_makeDirectories state.directory making
  have files := file?_makeDirectories making
  refine Ends.get_bind ?_
  refine Ends.ite (fun _ => Ends.throw_bind ⟨spares, files⟩) fun _ => ?_
  refine Storing.ends_call (fun _ _ => ⟨spares, files⟩) fun after rest' creating => ?_
  obtain ⟨vacant, rfl, inner, changes⟩ := createFile_level level creating
  rw [spares.current, place] at vacant inner changes
  have created : made.Spares state.directory (made.put state.lock (.file .empty)) := by
    refine ⟨changes.current, changes.grounded, fun location outside => changes.files location ?_⟩
    exact fun within => outside ((List.prefix_append _ _).trans within)
  rw [spares.current, place]
  refine ⟨?_, spares.trans created, fun location => ?_⟩
  · rw [SystemState.lockFile?, ← files, file?_eq_none_iff]
    exact fun contents held => nomatch vacant.symm.trans held
  · rw [file?_put made location .empty inner, files]

theorem ends_capabilities :
    Ends capabilities state (fun _ after => state.Alike after) bad := by
  apply ends_system_bind
  exact ends_update_bind ⟨rfl, rfl, rfl, rfl⟩ fun _ alike => Ends.pure_iff.2 alike

theorem ends_elaborate (fits : state.Fits) :
    Ends elaborate state
      (fun _ after => after.volume = state.volume ∧ after.system.output = state.system.output ∧
        after.system.holdsLock = true ∧ after.system.stage = .generated)
      fun _ after => ∃ taken : SystemState, taken.volume = state.volume ∧
        taken.system.output = state.system.output ∧ taken.system.holdsLock = true ∧
        taken.Fails after := by
  refine Ends.bind_iff.2 (ends_change ?_)
  obtain ⟨taken, equal⟩ : ∃ taken : SystemState,
      taken = { state with system := { state.system with holdsLock := true } } := ⟨_, rfl⟩
  have volume : taken.volume = state.volume := by rw [equal]
  have output : taken.system.output = state.system.output := by rw [equal]
  have held : taken.system.holdsLock = true := by rw [equal]
  rw [← equal]
  refine Ends.bind_iff.2 (ends_capabilities.mono (fun _ asked alike => ?_) fun _ _ => id)
  apply ends_system_bind
  refine ends_update_bind ⟨rfl, rfl, rfl, rfl⟩ fun built alike' => ?_
  have kept := alike.trans alike'
  have fits' : built.Fits := kept.stays.fits ⟨output ▸ fits.level, volume ▸ fits.grounded⟩
  refine (ends_settle fits' _ _).mono (fun _ after equal => ?_) fun _ after done => ?_
  · rw [equal]
    exact ⟨kept.volume.trans volume, kept.output.trans output, kept.held.trans held, rfl⟩
  · exact ⟨taken, volume, output, held, kept.fails done.2⟩

theorem ends_elaborate_of_locks {locked : SystemState} (fits : state.Fits)
    (free : state.system.holdsLock = false) (locks : state.Locks locked) :
    Ends (do
        let graph ← elaborate
        change fun system => { system with generated := some graph }
        return graph) locked
      (fun _ after => state.Called after) fun _ after => state.Called after ∧
        ∀ location, after.volume.disk.file? location = state.volume.disk.file? location := by
  refine Ends.bind (ends_elaborate (locks.stays.fits fits)) (fun graph built kept => ?_)
    fun _ after done => ?_
  · obtain ⟨same, output, held, stage⟩ := kept
    refine Ends.bind_iff.2 (ends_change (Ends.pure_iff.2 ?_))
    have locks' : state.Locks
        { built with system := { built.system with generated := some graph } } :=
      locks.of_volume same output
    exact ⟨locks'.stays, held.trans (congrArg Stage.locks stage).symm,
      .takes free locks.vacant held locks'.isSome_lockFile?⟩
  · obtain ⟨taken, same, output, held, fails⟩ := done
    have locks' := locks.of_volume same output
    have files := locks'.file?_of_releases held fails.toReleases
    exact ⟨.of_files (locks'.stays.trans fails.stays) free fails.free fails.stage files, files⟩

/-- Generation takes the lock, or fails. If it fails because the lock was not free, every file is as
it was. -/
theorem ends_generate (fits : state.Fits)
    (sound : state.system.holdsLock = state.system.stage.locks) :
    Ends HardwareSystem.generate state (fun _ after => state.Called after)
      fun error after => state.Called after ∧ ∀ path, error = .outputLocked path →
        ∀ location, after.volume.disk.file? location = state.volume.disk.file? location := by
  refine ends_update_bind ⟨rfl, rfl, rfl, rfl⟩ fun called alike => ?_
  have fits' := alike.stays.fits fits
  refine Ends.bind (ends_enter fits' "generate" .constructed) (fun _ after entered => ?_)
    fun error after done => ?_
  · obtain ⟨rfl, stage⟩ := entered
    have free : state.system.holdsLock = false := by
      rw [sound, ← alike.stage, stage]
      rfl
    apply ends_system_bind
    refine Ends.bind_iff.2 (ends_store ((ends_lock fits').mono (fun _ volume made => ?_)
      fun error volume done => ?_))
    · obtain ⟨vacant, spares, files⟩ := made
      rw [alike.lockFile?] at vacant
      rw [alike.stays.lock, alike.volume] at files
      have locks : state.Locks { after with volume := volume } :=
        ⟨alike.stays.trans ⟨rfl, spares⟩, vacant, files⟩
      exact (ends_elaborate_of_locks fits free locks).mono (fun _ _ called => called)
        fun _ _ done => ⟨done.1, fun _ _ => done.2⟩
    · obtain ⟨spares, files⟩ := done
      rw [alike.volume] at files
      have stays : state.Stays { after with volume := volume } :=
        alike.stays.trans ⟨rfl, spares⟩
      refine (ends_fail (stays.fits fits) error).mono (fun _ _ => False.elim)
        fun failed last done => ?_
      obtain ⟨-, fails⟩ := done
      have same (location : Location) :
          last.volume.disk.file? location = state.volume.disk.file? location :=
        (fails.kept location (.inr (alike.held.trans free))).trans (files location)
      exact ⟨.of_files (stays.trans fails.stays) free fails.free fails.stage same, fun _ _ => same⟩
  · obtain ⟨other, fails⟩ := done
    exact ⟨(alike.fails fails).called, fun path equal => absurd equal (other path)⟩

theorem ends_compileGraph {graph : Graph} :
    Ends (compileGraph graph) state (fun _ after => state.Alike after) bad := by
  refine Ends.bind_iff.2 (ends_capabilities.mono (fun _ asked alike => ?_) fun _ _ => id)
  apply ends_system_bind
  exact ends_update_bind ⟨rfl, rfl, rfl, rfl⟩ fun _ alike' => Ends.pure_iff.2 (alike.trans alike')

theorem ends_compile (fits : state.Fits)
    (sound : state.system.holdsLock = state.system.stage.locks) : Ends HardwareSystem.compile state
      (fun _ after => state.Called after) fun _ after => state.Called after := by
  refine Ends.bind (ends_enter fits "compile" .generated) (fun _ after entered => ?_)
    fun _ _ done => done.2.called
  obtain ⟨rfl, stage⟩ := entered
  apply ends_system_bind
  split
  · exact (ends_fail fits _).mono (fun _ _ => False.elim) fun _ _ done => done.2.called
  · refine ends_update_bind ⟨rfl, rfl, rfl, rfl⟩ fun given alike => ?_
    refine Ends.bind_iff.2 (ends_compileGraph.mono (fun outcome checked alike' => ?_)
      fun _ _ => id)
    have kept := alike.trans alike'
    refine Ends.bind (ends_settle (kept.stays.fits fits) .compiled outcome)
      (fun design settled equal => ?_) fun _ _ done => (kept.fails done.2).called
    subst equal
    refine Ends.bind_iff.2 (ends_change (Ends.pure_iff.2
      ⟨⟨kept.output, kept.stays.spares⟩, ?_, ?_⟩))
    · refine kept.held.trans (sound.trans ?_)
      rw [stage]
      rfl
    · exact .keeps kept.held kept.lockFile?

/-- The lock is given back whatever has become of the files below the output directory. -/
theorem ends_settle_package {written : Volume} (fits : state.Fits)
    (held : state.system.holdsLock = true)
    (spares : state.volume.disk.Spares state.directory written.disk)
    (outcome : Except BuildError PackageReport) :
    Ends (do
        let report ← settle .packaged outcome
        release
        change fun system => { system with report := some report }
        return report) { state with volume := written }
      (fun _ after => state.Called after) fun _ after => state.Called after := by
  have stays : state.Stays { state with volume := written } := ⟨rfl, spares⟩
  refine Ends.bind (ends_settle (stays.fits fits) .packaged outcome)
    (fun report settled equal => ?_) fun error after done => ?_
  · subst equal
    refine Ends.bind (ends_release ⟨fits.level, (stays.fits fits).grounded⟩)
      (fun _ after done => ?_) fun _ _ => False.elim
    obtain ⟨releases, equal⟩ := done
    have stays' : state.Stays after :=
      stays.trans ⟨releases.stays.output, releases.stays.spares⟩
    refine Ends.bind_iff.2 (ends_change (Ends.pure_iff.2 ⟨?_, ?_, ?_⟩))
    · exact ⟨stays'.output, stays'.spares⟩
    · refine releases.free.trans ?_
      rw [equal]
      rfl
    · exact .frees held releases.free (releases.released held)
  · obtain ⟨-, fails⟩ := done
    refine ⟨stays.trans fails.stays, ?_, .frees held fails.free (fails.released held)⟩
    rw [fails.free, fails.stage]
    rfl

theorem ends_package (fits : state.Fits)
    (sound : state.system.holdsLock = state.system.stage.locks) : Ends HardwareSystem.package state
      (fun _ after => state.Called after) fun _ after => state.Called after := by
  refine Ends.bind (ends_enter fits "package" .compiled) (fun _ after entered => ?_)
    fun _ _ done => done.2.called
  obtain ⟨rfl, stage⟩ := entered
  have held : after.system.holdsLock = true := by
    rw [sound, stage]
    rfl
  apply ends_system_bind
  split
  · exact (ends_fail fits _).mono (fun _ _ => False.elim) fun _ _ done => done.2.called
  · rename_i design _
    have below : after.system.output.Below after.volume.disk.current after.directory :=
      fits.level.below after.volume.disk.current
    have written := Package.maintains_write after.system.name design.artifacts below after.volume
      ⟨rfl, .refl after.directory _⟩
    exact Ends.bind_iff.2 (ends_store (written.mono
      (fun report _ spared => ends_settle_package fits held spared.spares (.ok report))
      fun error _ spared => ends_settle_package fits held spared.spares (.error error)))

end Working

end Elastic
