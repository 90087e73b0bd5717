import Elastic.Proofs.System.Stages

namespace Elastic

open Disk

/-! Systems that share output directories. Calls of several systems come in any order, and between
them others may change the disk as they like as long as they leave the lock files alone. -/

inductive StageCall
  | generate
  | compile
  | package

def StageCall.work : StageCall → Working Unit
  | .generate => discard HardwareSystem.generate
  | .compile => discard HardwareSystem.compile
  | .package => discard HardwareSystem.package

/-- Systems on one disk. Where a system was dropped, none is left. -/
structure SharedVolume where
  systems : List (Option HardwareSystem)
  volume : Volume

namespace SharedVolume

inductive Event
  | call (index : Nat) (call : StageCall)
  | drop (index : Nat)
  | outside (volume : Volume)

def state? (shared : SharedVolume) (index : Nat) : Option SystemState :=
  shared.systems[index]?.join.map (⟨·, shared.volume⟩)

def act (shared : SharedVolume) : Event → SharedVolume
  | .call index call =>
    match shared.state? index with
    | none => shared
    | some state =>
      let after := (call.work.run.run state).2
      ⟨shared.systems.set index (some after.system), after.volume⟩
  | .drop index =>
    match shared.state? index with
    | none => shared
    | some state => ⟨shared.systems.set index none, (Working.release.run.run state).2.volume⟩
  | .outside volume => { shared with volume := volume }

def outcome? (shared : SharedVolume) (index : Nat) (call : StageCall) :
    Option (Except BuildError Unit) :=
  (shared.state? index).map fun state => (call.work.run.run state).1

def after (shared : SharedVolume) (events : List Event) : SharedVolume := events.foldl act shared

def present (shared : SharedVolume) : List HardwareSystem := shared.systems.filterMap id

def directories (shared : SharedVolume) : List Location :=
  shared.present.map (·.output.place shared.volume.disk.current)

def lockFile? (shared : SharedVolume) (directory : Location) : Option ByteArray :=
  shared.volume.disk.file? (directory ++ [HardwareSystem.lockName])

def Holds (shared : SharedVolume) (index : Nat) (directory : Location) : Prop :=
  ∃ state, shared.state? index = some state ∧ state.directory = directory ∧
    state.system.holdsLock = true

/-- Others may do anything but touch a lock file. -/
structure LeavesLocks (shared : SharedVolume) (volume : Volume) : Prop where
  current : volume.disk.current = shared.volume.disk.current
  grounded : volume.disk.Grounded
  locks : ∀ directory, volume.disk.file? (directory ++ [HardwareSystem.lockName]) =
    shared.lockFile? directory

def Allows (shared : SharedVolume) : Event → Prop
  | .outside volume => shared.LeavesLocks volume
  | .call .. | .drop _ => True

def Runs : SharedVolume → List Event → Prop
  | _, [] => True
  | shared, event :: rest => shared.Allows event ∧ (shared.act event).Runs rest

/-- No directory lies in another. -/
def Apart (directories : List Location) : Prop :=
  ∀ one ∈ directories, ∀ other ∈ directories, one <+: other → one = other

/-- What the locks of some directories say in every state. -/
structure Guards (directories : List Location) (shared : SharedVolume) : Prop where
  grounded : shared.volume.disk.Grounded
  level : ∀ index state, shared.state? index = some state → state.system.output.IsLevel
  inside : ∀ index state, shared.state? index = some state → state.directory ∈ directories
  sound : ∀ index state, shared.state? index = some state →
    state.system.holdsLock = state.system.stage.locks
  file : ∀ directory ∈ directories,
    (shared.lockFile? directory).isSome = true ↔ ∃ index, shared.Holds index directory
  sole : ∀ directory index other, shared.Holds index directory → shared.Holds other directory →
    index = other

variable {shared : SharedVolume} {places : List Location} {index other : Nat}
  {state after : SystemState} {directory : Location}

theorem state?_set {volume : Volume} {left : Option HardwareSystem}
    (present : shared.state? index = some state) (other : Nat) :
    (⟨shared.systems.set index left, volume⟩ : SharedVolume).state? other =
      if other = index then left.map (⟨·, volume⟩)
      else (shared.state? other).map fun state => ⟨state.system, volume⟩ := by
  obtain ⟨system, there, -⟩ := Option.map_eq_some_iff.1 present
  obtain ⟨bound, -⟩ := List.getElem?_eq_some_iff.1 (Option.join_eq_some_iff.1 there)
  unfold state?
  dsimp only
  rw [List.getElem?_set]
  by_cases same : index = other
  · rw [if_pos same, if_pos same.symm, if_pos bound]
    rfl
  · rw [if_neg same, if_neg (Ne.symm same), Option.map_map]
    rfl

theorem volume_of_state? (present : shared.state? index = some state) : state.volume =
    shared.volume := by
  obtain ⟨system, -, rfl⟩ := Option.map_eq_some_iff.1 present
  rfl

theorem lockFile?_of_state? (present : shared.state? index = some state) :
    shared.lockFile? state.directory = state.lockFile? := by
  rw [SystemState.lockFile?, volume_of_state? present]
  rfl

theorem holds_of_state? (present : shared.state? index = some state) :
    shared.Holds index directory ↔ state.directory = directory ∧ state.system.holdsLock = true := by
  constructor
  · rintro ⟨own, there, same, held⟩
    cases present.symm.trans there
    exact ⟨same, held⟩
  · rintro ⟨same, held⟩
    exact ⟨state, present, same, held⟩

/-- A system after a call, or none after its end, in place of the system before. -/
structure Replaces (left : Option HardwareSystem) (after : SystemState) : Prop where
  sound : ∀ system, left = some system →
    system = after.system ∧ system.holdsLock = system.stage.locks
  free : left = none → after.system.holdsLock = false

variable {left : Option HardwareSystem}

theorem state?_set_cases (present : shared.state? index = some state)
    (replaces : Replaces left after) {own : SystemState}
    (found : (⟨shared.systems.set index left, after.volume⟩ : SharedVolume).state?
      other = some own) :
    (other = index ∧ own = after ∧ own.system.holdsLock = own.system.stage.locks) ∨
      other ≠ index ∧ ∃ before, shared.state? other = some before ∧
        own = ⟨before.system, after.volume⟩ := by
  rw [state?_set present] at found
  split_ifs at found with same
  · obtain ⟨system, kept, rfl⟩ := Option.map_eq_some_iff.1 found
    obtain ⟨rfl, sound⟩ := replaces.sound system kept
    exact .inl ⟨same, rfl, sound⟩
  · obtain ⟨before, there, rfl⟩ := Option.map_eq_some_iff.1 found
    exact .inr ⟨same, before, there, rfl⟩

/-- A directory is held by the system that made the call only if it was held by nobody else. -/
theorem Guards.sole_of_passes (guards : Guards places shared)
    (present : shared.state? index = some state) (passes : state.Passes after)
    (held : after.system.holdsLock = true) (holds : shared.Holds other state.directory) :
    other = index := by
  cases passes with
  | keeps same file =>
      exact guards.sole _ _ _ holds ⟨state, present, rfl, same.symm.trans held⟩
  | takes free vacant held' file =>
      have there := (guards.file _ (guards.inside index state present)).2 ⟨other, holds⟩
      rw [lockFile?_of_state? present, vacant] at there
      cases there
  | frees held' free gone => cases free.symm.trans held

section

variable (present : shared.state? index = some state) (stays : state.Stays after)

include present stays

theorem directory_set {own : SystemState} (there : shared.state? other = some own) :
    SystemState.directory ⟨own.system, after.volume⟩ = own.directory := by
  rw [SystemState.directory, stays.spares.current, volume_of_state? present, ←
    volume_of_state? there]
  rfl

theorem lockFile?_set (guards : Guards places shared) (apart : Apart places)
    (listed : directory ∈ places) (other : directory ≠ state.directory) :
    (⟨shared.systems.set index left, after.volume⟩ : SharedVolume).lockFile? directory =
      shared.lockFile? directory := by
  have own := guards.inside index state present
  unfold lockFile?
  rw [← volume_of_state? present]
  refine stays.spares.files _ fun below => ?_
  obtain whole | inner := List.prefix_concat_iff.1 below
  · have around : directory <+: state.directory := whole ▸ List.prefix_append _ _
    exact other (apart directory listed _ own around)
  · exact other (apart _ own directory listed inner).symm

variable (replaces : Replaces left after)

include replaces

theorem holds_set : (⟨shared.systems.set index left, after.volume⟩ : SharedVolume).Holds
    other directory ↔ if other = index then state.directory = directory ∧
      after.system.holdsLock = true
    else shared.Holds other directory := by
  constructor
  · rintro ⟨own, found, rfl, held⟩
    obtain ⟨same, rfl, -⟩ | ⟨apart, before, there, rfl⟩ :=
      state?_set_cases present replaces found
    · rw [if_pos same]
      exact ⟨stays.directory.symm, held⟩
    · rw [if_neg apart]
      exact ⟨before, there, (directory_set present stays there).symm, held⟩
  · unfold Holds
    rw [state?_set present]
    split_ifs with same
    · rintro ⟨rfl, held⟩
      cases kept : left with
      | none => exact absurd held (by rw [replaces.free kept]; decide)
      | some system =>
          obtain ⟨rfl, -⟩ := replaces.sound system kept
          exact ⟨_, rfl, stays.directory, held⟩
    · rintro ⟨before, there, rfl, held⟩
      exact ⟨_, Option.map_eq_some_iff.2 ⟨before, there, rfl⟩, directory_set present stays there,
        held⟩

theorem file_set (guards : Guards places shared) (passes : state.Passes after) :
    ((⟨shared.systems.set index left, after.volume⟩ : SharedVolume).lockFile?
      state.directory).isSome = true ↔
        ∃ other, (⟨shared.systems.set index left, after.volume⟩ : SharedVolume).Holds other
          state.directory := by
  have own : (⟨shared.systems.set index left, after.volume⟩ : SharedVolume).lockFile?
      state.directory = after.lockFile? := by
    rw [SystemState.lockFile?, stays.lock]
    rfl
  rw [own]
  have before := guards.file _ (guards.inside index state present)
  rw [lockFile?_of_state? present] at before
  cases passes with
  | keeps same file =>
      rw [file, before]
      refine exists_congr fun other => ?_
      rw [holds_set present stays replaces]
      split_ifs with here
      · rw [here, holds_of_state? present, same]
      · rfl
  | takes free vacant held file =>
      refine iff_of_true file ⟨index, ?_⟩
      rw [holds_set present stays replaces, if_pos rfl]
      exact ⟨rfl, held⟩
  | frees held free gone =>
      rw [gone]
      refine iff_of_false (by decide) ?_
      rintro ⟨other, holds⟩
      rw [holds_set present stays replaces] at holds
      split_ifs at holds with here
      · cases free.symm.trans holds.2
      · exact here (guards.sole _ _ _ holds ⟨state, present, rfl, held⟩)

theorem Guards.replace (guards : Guards places shared) (apart : Apart places)
    (passes : state.Passes after) :
    Guards places ⟨shared.systems.set index left, after.volume⟩ := by
  have holds (other : Nat) (directory : Location) :
      (⟨shared.systems.set index left, after.volume⟩ : SharedVolume).Holds other directory ↔ _ :=
    holds_set present stays replaces
  refine ⟨stays.spares.grounded (volume_of_state? present ▸ guards.grounded), ?_, ?_, ?_, ?_, ?_⟩
  · intro other own found
    obtain ⟨-, rfl, -⟩ | ⟨-, before, there, rfl⟩ := state?_set_cases present replaces found
    · exact stays.output ▸ guards.level index state present
    · exact guards.level other before there
  · intro other own found
    obtain ⟨-, rfl, -⟩ | ⟨-, before, there, rfl⟩ := state?_set_cases present replaces found
    · exact stays.directory ▸ guards.inside index state present
    · exact directory_set present stays there ▸ guards.inside other before there
  · intro other own found
    obtain ⟨-, -, sound⟩ | ⟨-, before, there, rfl⟩ := state?_set_cases present replaces found
    · exact sound
    · exact guards.sound other before there
  · intro directory listed
    by_cases own : directory = state.directory
    · subst own
      exact file_set present stays replaces guards passes
    · rw [lockFile?_set present stays guards apart listed own, guards.file directory listed]
      refine exists_congr fun other => ?_
      rw [holds]
      split_ifs with same
      · rw [same, holds_of_state? present]
        exact iff_of_false (fun both => own both.1.symm) fun both => own both.1.symm
      · rfl
  · intro directory one two first second
    have only (other : Nat) (here : state.directory = directory)
        (held : after.system.holdsLock = true) (there : shared.Holds other directory) :
        other = index := by
      subst here
      exact guards.sole_of_passes present passes held there
    rw [holds] at first second
    split_ifs at first with same <;> split_ifs at second with same'
    · exact same.trans same'.symm
    · exact same.trans (only two first.1 first.2 second).symm
    · exact (only one second.1 second.2 first).trans same'.symm
    · exact guards.sole directory one two first second

end

theorem Guards.fits (guards : Guards places shared) (present : shared.state? index = some state) :
    state.Fits :=
  ⟨guards.level index state present, volume_of_state? present ▸ guards.grounded⟩

theorem replaces_of_called (called : state.Called after) : Replaces (some after.system) after := by
  refine ⟨fun system same => ?_, nofun⟩
  obtain rfl := Option.some.inj same
  exact ⟨rfl, called.sound⟩

theorem called_of_work (fits : state.Fits)
    (sound : state.system.holdsLock = state.system.stage.locks) (call : StageCall) :
    state.Called (call.work.run.run state).2 ∧
      (call = .generate → ∀ path, (call.work.run.run state).1 = .error (.outputLocked path) →
        ∀ location, (call.work.run.run state).2.volume.disk.file? location =
          state.volume.disk.file? location) := by
  have ends : Ends call.work state (fun _ after => state.Called after) fun error after =>
      state.Called after ∧ (call = .generate → ∀ path, error = .outputLocked path →
        ∀ location, after.volume.disk.file? location = state.volume.disk.file? location) := by
    cases call with
    | generate =>
        exact Ends.discard_iff.2 ((Working.ends_generate fits sound).mono (fun _ _ called => called)
          fun _ _ done => ⟨done.1, fun _ => done.2⟩)
    | compile =>
        exact Ends.discard_iff.2 ((Working.ends_compile fits sound).mono (fun _ _ called => called)
          fun _ _ called => ⟨called, nofun⟩)
    | package =>
        exact Ends.discard_iff.2 ((Working.ends_package fits sound).mono (fun _ _ called => called)
          fun _ _ called => ⟨called, nofun⟩)
  obtain ⟨value, after, ran, called⟩ | ⟨error, after, ran, called, files⟩ := ends.cases_run
  · rw [ran]
    exact ⟨called, fun _ _ => nofun⟩
  · rw [ran]
    exact ⟨called, fun same path equal => files same path (Except.error.inj equal)⟩

theorem Guards.outside {volume : Volume} (guards : Guards places shared)
    (leavesLocks : shared.LeavesLocks volume) : Guards places { shared with volume := volume } := by
  have moved {index : Nat} {own : SystemState}
      (found : ({ shared with volume := volume } : SharedVolume).state? index = some own) :
      ∃ state, shared.state? index = some state ∧ own.system = state.system ∧
        own.directory = state.directory := by
    obtain ⟨system, there, rfl⟩ := Option.map_eq_some_iff.1 found
    refine ⟨⟨system, shared.volume⟩, Option.map_eq_some_iff.2 ⟨system, there, rfl⟩, rfl, ?_⟩
    rw [SystemState.directory, SystemState.directory, leavesLocks.current]
  have holds (index : Nat) (directory : Location) :
      ({ shared with volume := volume } : SharedVolume).Holds index directory ↔
        shared.Holds index directory := by
    constructor
    · rintro ⟨own, found, rfl, held⟩
      obtain ⟨state, there, system, same⟩ := moved found
      exact ⟨state, there, same.symm, system ▸ held⟩
    · rintro ⟨state, there, rfl, held⟩
      obtain ⟨system, present, rfl⟩ := Option.map_eq_some_iff.1 there
      have found : ({ shared with volume := volume } : SharedVolume).state? index =
        some ⟨system, volume⟩ :=
        Option.map_eq_some_iff.2 ⟨system, present, rfl⟩
      obtain ⟨_, there', -, same⟩ := moved found
      cases there.symm.trans there'
      exact ⟨_, found, same, held⟩
  refine ⟨leavesLocks.grounded, ?_, ?_, ?_, ?_, ?_⟩
  · intro index own found
    obtain ⟨state, there, system, -⟩ := moved found
    exact system ▸ guards.level index state there
  · intro index own found
    obtain ⟨state, there, -, same⟩ := moved found
    exact same ▸ guards.inside index state there
  · intro index own found
    obtain ⟨state, there, system, -⟩ := moved found
    exact system ▸ guards.sound index state there
  · intro directory listed
    rw [lockFile?, leavesLocks.locks, guards.file directory listed]
    exact exists_congr fun index => (holds index directory).symm
  · intro directory index other first second
    exact guards.sole directory index other ((holds index directory).1 first)
      ((holds other directory).1 second)

theorem releases_of_release (fits : state.Fits) :
    state.Releases (Working.release.run.run state).2 := by
  obtain ⟨_, after, ran, releases, -⟩ | ⟨_, _, _, impossible⟩ :=
    (Working.ends_release fits).cases_run
  · rw [ran]
    exact releases
  · exact impossible.elim

theorem Guards.act (guards : Guards places shared) (apart : Apart places) {event : Event}
    (allowed : shared.Allows event) : Guards places (shared.act event) := by
  cases event with
  | call index call =>
      rw [SharedVolume.act]
      split
      · exact guards
      · rename_i state present
        obtain ⟨called, -⟩ :=
          called_of_work (guards.fits present) (guards.sound index state present) call
        exact guards.replace present called.stays (replaces_of_called called) apart called.passes
  | drop index =>
      rw [SharedVolume.act]
      split
      · exact guards
      · rename_i state present
        have releases := releases_of_release (guards.fits present)
        have gone : Replaces none (Working.release.run.run state).2 :=
          ⟨fun _ => nofun, fun _ => releases.free⟩
        exact guards.replace present releases.stays gone apart releases.passes
  | outside volume => exact guards.outside allowed

theorem guards_after (guards : Guards places shared) (apart : Apart places)
    {events : List Event} (runs : shared.Runs events) : Guards places (shared.after events) := by
  induction events generalizing shared with
  | nil => exact guards
  | cons event rest induction =>
      obtain ⟨allowed, later⟩ := runs
      exact induction (guards.act apart allowed) later

/-- No system of the shared volume has done anything, there are no lock files, and no path leads up
or through the output directory of another system. -/
structure Fresh (shared : SharedVolume) : Prop where
  grounded : shared.volume.disk.Grounded
  level : ∀ system ∈ shared.present, system.output.IsLevel
  unused : ∀ system ∈ shared.present,
    system.stage = .constructed ∧ system.holdsLock = false
  apart : Apart shared.directories
  vacant : ∀ directory ∈ shared.directories, shared.lockFile? directory = none

theorem mem_of_state? (present : shared.state? index = some state) :
    state.system ∈ shared.present := by
  obtain ⟨system, there, rfl⟩ := Option.map_eq_some_iff.1 present
  have member := List.mem_of_getElem? (Option.join_eq_some_iff.1 there)
  exact List.mem_filterMap.2 ⟨some system, member, rfl⟩

theorem Fresh.guards (fresh : shared.Fresh) : Guards shared.directories shared := by
  have free (index : Nat) (directory : Location) : ¬ shared.Holds index directory := by
    rintro ⟨state, present, -, held⟩
    cases held.symm.trans (fresh.unused state.system (mem_of_state? present)).2
  refine ⟨fresh.grounded, ?_, ?_, ?_, ?_, ?_⟩
  · exact fun index state present => fresh.level state.system (mem_of_state? present)
  · intro index state present
    refine List.mem_map.2 ⟨state.system, mem_of_state? present, ?_⟩
    rw [SystemState.directory, volume_of_state? present]
  · intro index state present
    obtain ⟨stage, held⟩ := fresh.unused state.system (mem_of_state? present)
    rw [stage, held]
    rfl
  · intro directory listed
    rw [fresh.vacant directory listed]
    exact iff_of_false (by decide) fun held => free held.choose directory held.choose_spec
  · exact fun directory index other first => absurd first (free index directory)

/-- Whatever the systems of a shared volume are called to do, in whatever order, and whatever others
do but to the lock files: a system holds its lock just as long as it is generated or compiled, the
lock file of a directory is there just as long as a system of the directory holds it, and no two
systems of a directory are generated or compiled at once. A generation that finds the directory
locked leaves every file as it is, and to every other system what it holds. -/
theorem locks_are_exclusive {start : SharedVolume} (fresh : start.Fresh) {events : List Event}
    (runs : start.Runs events) :
    (∀ index state, (start.after events).state? index = some state →
      state.directory ∈ start.directories ∧ (state.system.holdsLock = true ↔
        state.system.stage = .generated ∨ state.system.stage = .compiled)) ∧
    (∀ directory ∈ start.directories,
      ((start.after events).lockFile? directory).isSome = true ↔
        ∃ index, (start.after events).Holds index directory) ∧
    (∀ index other state state', (start.after events).state? index = some state →
      (start.after events).state? other = some state' → state.directory = state'.directory →
      state.system.stage = .generated ∨ state.system.stage = .compiled →
      state'.system.stage = .generated ∨ state'.system.stage = .compiled → index = other) ∧
    ∀ index path,
      (start.after events).outcome? index .generate = some (.error (.outputLocked path)) →
      (∀ location,
        ((start.after events).act (.call index .generate)).volume.disk.file? location =
          (start.after events).volume.disk.file? location) ∧
      ∀ other directory, other ≠ index →
        (((start.after events).act (.call index .generate)).Holds other directory ↔
          (start.after events).Holds other directory) := by
  have guards := guards_after fresh.guards fresh.apart runs
  generalize start.after events = shared at guards ⊢
  have sound {index : Nat} {state : SystemState} (present : shared.state? index = some state) :
      state.system.holdsLock = true ↔
        state.system.stage = .generated ∨ state.system.stage = .compiled := by
    rw [guards.sound index state present, Stage.locks_iff]
  refine ⟨fun index state present => ⟨guards.inside index state present, sound present⟩,
    guards.file, ?_, ?_⟩
  · intro index other state state' present present' same stage stage'
    exact guards.sole state'.directory index other
      ⟨state, present, same, (sound present).2 stage⟩
      ⟨state', present', rfl, (sound present').2 stage'⟩
  · intro index path locked
    obtain ⟨state, present, locked⟩ := Option.map_eq_some_iff.1 locked
    obtain ⟨called, files⟩ :=
      called_of_work (guards.fits present) (guards.sound index state present) .generate
    have done : shared.act (.call index .generate) =
        ⟨shared.systems.set index (some (StageCall.generate.work.run.run state).2.system),
          (StageCall.generate.work.run.run state).2.volume⟩ := by
      rw [act, present]
    rw [done]
    refine ⟨fun location => ?_, fun other directory apart => ?_⟩
    · rw [← volume_of_state? present]
      exact files rfl path locked location
    · rw [holds_set present called.stays (replaces_of_called called), if_neg apart]

def builders : SharedVolume where
  systems := ["first", "second", "third"].map fun name =>
    some (.new name "0.1.0" { modules := [{ name := "Top" }] } "Top" (.stock .cosim) none "out")
  volume := { disk := .empty }

/-- The second system comes too early, and the third when the first has gone. -/
def turns : List Event := [
  .call 0 .generate, .call 1 .generate, .call 0 .compile, .call 0 .package, .call 2 .generate]

theorem locks_of_turns :
    builders.Fresh ∧ builders.Runs turns ∧
      (builders.after (turns.take 1)).outcome? 1 .generate =
        some (.error (.outputLocked "out/.weft.lock")) ∧
      (builders.after (turns.take 2)).lockFile? ["out"] =
        (builders.after (turns.take 1)).lockFile? ["out"] ∧
      (builders.after turns).systems.map (·.map (·.stage)) =
        [some .packaged, some .failed, some .generated] ∧
      ((builders.after turns).lockFile? ["out"]).isSome = true ∧
      ∃ index, (builders.after turns).Holds index ["out"] := by
  have fresh : builders.Fresh := ⟨by decide +kernel, by decide +kernel, by decide +kernel,
    by unfold Apart; decide +kernel, by decide +kernel⟩
  have runs : builders.Runs turns := ⟨trivial, trivial, trivial, trivial, trivial, trivial⟩
  have locked : (builders.after (turns.take 1)).outcome? 1 .generate =
      some (.error (.outputLocked "out/.weft.lock")) := by decide +kernel
  have facts : (builders.after turns).systems.map (·.map (·.stage)) =
        [some .packaged, some .failed, some .generated] ∧
      ((builders.after turns).lockFile? ["out"]).isSome = true := by decide +kernel
  have first : builders.Runs (turns.take 1) := ⟨trivial, trivial⟩
  obtain ⟨-, -, -, spares⟩ := locks_are_exclusive fresh first
  obtain ⟨files, -⟩ := spares 1 "out/.weft.lock" locked
  obtain ⟨-, file, -, -⟩ := locks_are_exclusive fresh runs
  exact ⟨fresh, runs, locked, files _, facts.1, facts.2,
    (file ["out"] (by decide +kernel)).1 facts.2⟩

end SharedVolume

end Elastic
