import Elastic.Proofs.Compile.Resolution
import Elastic.Proofs.System.Sharing

namespace Elastic

/-! The way of a system through its stages. The stages are passed one by one, the first call that
fails ends the way, and the log has one error for each call that failed. The generated graph stays
with the system until a compilation fails. -/

namespace DiagnosticLog

/-- What has been told since an earlier state of the log: some errors, and any warnings. -/
structure Tells (before after : DiagnosticLog) (errors : List Diagnostic) : Prop where
  pending : after.pending.filter (·.isError) = before.pending.filter (·.isError) ++ errors
  count : after.errors = before.errors + errors.length

variable {first second third : DiagnosticLog} {errors more : List Diagnostic}

theorem Tells.refl (log : DiagnosticLog) : log.Tells log [] :=
  ⟨(List.append_nil _).symm, rfl⟩

theorem Tells.trans (one : first.Tells second errors) (other : second.Tells third more) :
    first.Tells third (errors ++ more) := by
  constructor
  · rw [other.pending, one.pending, List.append_assoc]
  · rw [other.count, one.count, List.length_append, Nat.add_assoc]

theorem tells_emit (log : DiagnosticLog) (diagnostic : Diagnostic) :
    log.Tells (log.emit diagnostic) ([diagnostic].filter (·.isError)) := by
  refine ⟨List.filter_append .., ?_⟩
  by_cases severe : diagnostic.severity = .error
  · simp [emit, severe, Diagnostic.isError]
  · simp [emit, severe, Diagnostic.isError]

theorem tells_emitAll (log : DiagnosticLog) {warnings : List Diagnostic}
    (mild : ∀ diagnostic ∈ warnings, diagnostic.isError = false) :
    log.Tells (log.emitAll warnings) [] := by
  induction warnings generalizing log with
  | nil => exact .refl log
  | cons warning rest induction =>
      obtain ⟨first, later⟩ := List.forall_mem_cons.1 mild
      have told := log.tells_emit warning
      rw [List.filter_cons_of_neg (by simp [first])] at told
      exact told.trans (induction _ later)

end DiagnosticLog

namespace BuildError

theorem isError_toDiagnostic (error : BuildError) : error.toDiagnostic.isError = true := by
  cases error <;> rfl

theorem code_toDiagnostic (error : BuildError) : error.toDiagnostic.code = error.code := by
  cases error <;> rfl

theorem scope_toDiagnostic (error : BuildError) : error.toDiagnostic.scope = error.scope? := by
  cases error <;> rfl

end BuildError

theorem Graph.mild_checkModules (graph : Graph) (names : Names) (preset : BackendPreset)
    (capabilities : Capabilities) (modules : List Module) :
    ∀ warning ∈ (graph.checkModules names preset capabilities modules).2,
      warning.isError = false := by
  induction modules with
  | nil => exact nofun
  | cons module rest induction =>
      unfold Graph.checkModules
      split
      · exact nofun
      · intro warning member
        rcases List.mem_append.1 member with dangling | later
        · obtain ⟨entry, -, rfl⟩ := List.mem_map.1 dangling
          rfl
        · exact induction warning later

namespace CompiledDesign

variable {name version : String} {graph : Graph} {names : Names} {backend : BackendPreset}
  {capabilities : Capabilities} {policy : ArbitrationPolicy}

theorem mild_compile :
    ∀ warning ∈ (compile name version graph names backend capabilities policy).2,
      warning.isError = false := by
  have mild := graph.mild_checkModules names backend capabilities graph.modules.toList
  rw [← Graph.validate] at mild
  unfold compile
  split <;> rename_i warnings checked <;> rw [checked] at mild
  · exact mild
  · split
    · exact mild
    · rename_i map _
      intro warning member
      rcases List.mem_append.1 member with checks | idle
      · exact mild warning checks
      · obtain ⟨state, -, rfl⟩ := List.mem_map.1 idle
        rfl

end CompiledDesign

namespace StageCall

def name : StageCall → String
  | .generate => "generate"
  | .compile => "compile"
  | .package => "package"

def start : StageCall → Stage
  | .generate => .constructed
  | .compile => .generated
  | .package => .compiled

def finish : StageCall → Stage
  | .generate => .generated
  | .compile => .compiled
  | .package => .packaged

theorem start_ne_failed (call : StageCall) : call.start ≠ .failed := by
  cases call <;> exact nofun

theorem start_injective {one other : StageCall} (same : one.start = other.start) : one = other := by
  cases one <;> cases other <;> first | rfl | cases same

end StageCall

namespace HardwareSystem

variable {call : StageCall} {error : BuildError} {system middle after : HardwareSystem}

structure Idles (system after : HardwareSystem) : Prop where
  stage : after.stage = system.stage
  generated : after.generated = system.generated
  compiled : after.compiled = system.compiled
  told : system.log.Tells after.log []

structure Advances (call : StageCall) (system after : HardwareSystem) : Prop where
  start : system.stage = call.start
  finish : after.stage = call.finish
  told : system.log.Tells after.log []
  graph : call ≠ .generate → after.graph? = system.graph?

/-- A call fails with an error. Only a compilation in its own stage gives up the generated graph. -/
structure Halts (call : StageCall) (error : BuildError) (system after : HardwareSystem) :
    Prop where
  stage : after.stage = .failed
  told : system.log.Tells after.log [error.toDiagnostic]
  failed : system.stage = .failed → error = .previouslyFailed call.name
  early : system.stage ≠ .failed → system.stage ≠ call.start →
    error = .outOfSequence call.name system.stage call.start
  kept : (call = .compile → system.stage ≠ .generated) → after.graph? = system.graph?
  given : call = .compile → system.stage = .generated →
    after.graph? = system.compiled.map (·.graph)

theorem graph?_of_generated_none (absent : system.generated = none) :
    system.graph? = system.compiled.map (·.graph) := by
  rw [graph?, absent, Option.none_or]

theorem graph?_of_generated {graph : Graph} (held : system.generated = some graph) :
    system.graph? = some graph := by
  rw [graph?, held, Option.some_or]

theorem Idles.trans (one : system.Idles middle) (other : middle.Idles after) :
    system.Idles after :=
  ⟨other.stage.trans one.stage, other.generated.trans one.generated,
    other.compiled.trans one.compiled, one.told.trans other.told⟩

theorem Idles.graph (idles : system.Idles after) : after.graph? = system.graph? := by
  rw [graph?, idles.generated, idles.compiled]
  rfl

theorem Idles.halts (idles : system.Idles middle) (halts : Halts call error middle after) :
    Halts call error system after where
  stage := halts.stage
  told := idles.told.trans halts.told
  failed failed := halts.failed (idles.stage.trans failed)
  early apart other := by
    rw [← idles.stage] at apart other ⊢
    exact halts.early apart other
  kept other := by
    rw [← idles.stage] at other
    exact (halts.kept other).trans idles.graph
  given compiles started := by
    rw [halts.given compiles (idles.stage.trans started), idles.compiled]

end HardwareSystem

namespace Working

open HardwareSystem

variable {α β : Type} {call : StageCall} {state : SystemState}
    {good : α → SystemState → Prop}
  {bad : BuildError → SystemState → Prop}

theorem ends_store_system {work : Storing β} :
    Ends (store work) state (fun _ after => after.system = state.system) bad :=
  ends_store ((Ends.any work state.volume).mono (fun _ _ _ => rfl) fun _ _ _ => rfl)

theorem ends_release_system :
    Ends release state (fun _ after => after.system = { state.system with holdsLock := false })
      bad := by
  apply ends_system_bind
  apply Ends.ite
  · intro _
    apply ends_system_bind
    refine Ends.bind_iff.2 (Ends.discard_iff.2 (ends_store_system.mono ?_ fun _ _ => id))
    intro _ after same
    exact ends_change (by rw [same])
  · intro free
    rw [Bool.not_eq_true] at free
    exact Ends.pure_iff.2 (by rw [← free])

theorem ends_fail_halts {error : BuildError}
    (failed : state.system.stage = .failed → error = .previouslyFailed call.name)
    (early : state.system.stage ≠ .failed → state.system.stage ≠ call.start →
      error = .outOfSequence call.name state.system.stage call.start)
    (graph : call = .compile → state.system.stage = .generated → state.system.generated = none) :
    Ends (fail error : Working α) state good
      fun failure after => state.system.Halts call failure after.system := by
  refine Ends.bind_iff.2 (ends_change ?_)
  refine Ends.bind_iff.2 (ends_release_system.mono (fun _ after same => ?_) fun _ _ => id)
  apply Ends.throw_iff.2
  rw [same]
  refine ⟨rfl, ?_, failed, early, fun _ => rfl, fun compiles started => ?_⟩
  · have told := state.system.log.tells_emit error.toDiagnostic
    rwa [List.filter_cons_of_pos error.isError_toDiagnostic] at told
  · exact graph?_of_generated_none (graph compiles started)

theorem ends_fail_started (call : StageCall) {error : BuildError}
    (started : state.system.stage = call.start)
    (graph : call = .compile → state.system.generated = none) :
    Ends (fail error : Working α) state good
      fun failure after => state.system.Halts call failure after.system :=
  ends_fail_halts (fun failed => absurd (started.symm.trans failed) call.start_ne_failed)
    (fun _ other => absurd started other) fun compiles _ => graph compiles

theorem ends_settle_started (call : StageCall) (next : Stage)
    (outcome : Except BuildError β) (started : state.system.stage = call.start)
    (graph : call = .compile → state.system.generated = none) :
    Ends (settle next outcome) state
      (fun value after => outcome = .ok value ∧
        after.system = { state.system with stage := next })
      fun failure after => state.system.Halts call failure after.system := by
  cases outcome with
  | error error =>
      exact ends_fail_started call started graph
  | ok value => exact Ends.bind_iff.2 (ends_change (Ends.pure_iff.2 ⟨rfl, rfl⟩))

theorem ends_enter_halts (call : StageCall) :
    Ends (enter call.name call.start) state
      (fun _ after => after = state ∧ state.system.stage = call.start)
      fun failure after => state.system.Halts call failure after.system := by
  apply ends_system_bind
  apply Ends.ite
  · exact fun started => Ends.pure_iff.2 ⟨rfl, started⟩
  intro other
  have kept : call = .compile → state.system.stage = .generated →
    state.system.generated = none := by
    rintro rfl started
    exact absurd started other
  apply Ends.ite
  · intro failed
    exact ends_fail_halts (fun _ => rfl) (fun apart => absurd failed apart) kept
  · intro apart
    exact ends_fail_halts (fun failed => absurd failed apart) (fun _ _ => rfl) kept

theorem ends_idle_bind {update : HardwareSystem → HardwareSystem} {next : Unit → Working α}
    (idles : state.system.Idles (update state.system))
    (rest : ∀ after, state.system.Idles after.system → Ends (next ()) after good bad) :
    Ends (change update >>= next) state good bad :=
  Ends.bind_iff.2 (ends_change (rest _ idles))

theorem ends_capabilities_idles :
    Ends capabilities state (fun _ after => state.system.Idles after.system) bad := by
  apply ends_system_bind
  exact ends_idle_bind ⟨rfl, rfl, rfl, .refl _⟩ fun _ idles => Ends.pure_iff.2 idles

theorem ends_elaborate_record (started : state.system.stage = .constructed) :
    Ends elaborate state
      (fun _ after => after.system.stage = .generated ∧
        after.system.compiled = state.system.compiled ∧ state.system.log.Tells after.system.log [])
      fun failure after => Halts .generate failure state.system after.system := by
  refine ends_idle_bind ⟨rfl, rfl, rfl, .refl _⟩ fun locked holds => ?_
  refine Ends.bind_iff.2 (ends_capabilities_idles.mono (fun _ asked answers => ?_) fun _ _ => id)
  apply ends_system_bind
  refine ends_idle_bind ⟨rfl, rfl, rfl, .refl _⟩ fun built builds => ?_
  have idles := (holds.trans answers).trans builds
  refine (ends_settle_started .generate .generated _ (idles.stage.trans started)
    nofun).mono (fun _ after settled => ?_) fun _ _ halts => idles.halts halts
  rw [settled.2]
  exact ⟨rfl, idles.compiled, idles.told⟩

theorem ends_generate_record :
    Ends HardwareSystem.generate state
      (fun graph after => Advances .generate state.system after.system ∧
        after.system.generated = some graph ∧ after.system.compiled = state.system.compiled)
      fun failure after => Halts .generate failure state.system after.system := by
  refine ends_idle_bind ⟨rfl, rfl, rfl, .refl _⟩ fun called idles => ?_
  refine Ends.bind (ends_enter_halts .generate) (fun _ entered done => ?_)
    fun _ _ halts => idles.halts halts
  obtain ⟨rfl, started⟩ := done
  apply ends_system_bind
  refine Ends.bind_iff.2 (ends_store_system.mono (fun outcome locked same => ?_) fun _ _ => id)
  rw [← same] at started idles
  cases outcome with
  | error error =>
      exact (ends_fail_started .generate started nofun).mono (fun _ _ => id)
        fun _ _ halts => idles.halts halts
  | ok _ =>
      refine Ends.bind (ends_elaborate_record started) (fun graph built kept => ?_)
        fun _ _ halts => idles.halts halts
      obtain ⟨stage, compiled, told⟩ := kept
      refine Ends.bind_iff.2 (ends_change (Ends.pure_iff.2 ⟨?_, rfl, ?_⟩))
      · exact ⟨idles.stage.symm.trans started, stage, idles.told.trans told,
          fun other => absurd rfl other⟩
      · exact compiled.trans idles.compiled

theorem ends_compileGraph_idles {graph : Graph} :
    Ends (compileGraph graph) state
      (fun outcome after => state.system.Idles after.system ∧
        ∀ design, outcome = .ok design → design.graph = graph) bad := by
  refine Ends.bind_iff.2 (ends_capabilities_idles.mono (fun _ asked idles => ?_) fun _ _ => id)
  apply ends_system_bind
  refine Ends.bind_iff.2 (ends_change (Ends.pure_iff.2 ⟨?_, fun design compiled => ?_⟩))
  · exact idles.trans ⟨rfl, rfl, rfl, asked.system.log.tells_emitAll CompiledDesign.mild_compile⟩
  · exact (CompiledDesign.resolve_of_compile (Prod.ext compiled rfl)).1

theorem ends_compile_record :
    Ends HardwareSystem.compile state (fun _ after => Advances .compile state.system after.system)
      fun failure after => Halts .compile failure state.system after.system := by
  refine Ends.bind (ends_enter_halts .compile) (fun _ entered done => ?_) fun _ _ halts => halts
  obtain ⟨rfl, started⟩ := done
  apply ends_system_bind
  split
  · rename_i absent
    exact ends_fail_started .compile started fun _ => absent
  · rename_i graph held
    refine Ends.bind_iff.2 (ends_change ?_)
    refine Ends.bind_iff.2 (ends_compileGraph_idles.mono (fun outcome checked done => ?_)
      fun _ _ => id)
    obtain ⟨idles, made⟩ := done
    refine Ends.bind (ends_settle_started .compile .compiled outcome
      (idles.stage.trans started) fun _ => idles.generated) (fun design settled done => ?_)
      fun failure after halts => ?_
    · obtain ⟨compiled, same⟩ := done
      refine Ends.bind_iff.2 (ends_change (Ends.pure_iff.2 ?_))
      rw [same]
      refine ⟨started, rfl, idles.told, fun _ => ?_⟩
      rw [graph?_of_generated held, ← made design compiled]
      exact graph?_of_generated_none idles.generated
    · refine ⟨halts.stage, idles.told.trans halts.told, fun failed => ?_, fun _ other => ?_,
        fun other => absurd started (other rfl), fun _ _ => ?_⟩
      · exact absurd (started.symm.trans failed) nofun
      · exact absurd started other
      · rw [halts.given rfl (idles.stage.trans started), idles.compiled]

theorem ends_package_record :
    Ends HardwareSystem.package state (fun _ after => Advances .package state.system after.system)
      fun failure after => Halts .package failure state.system after.system := by
  refine Ends.bind (ends_enter_halts .package) (fun _ entered done => ?_) fun _ _ halts => halts
  obtain ⟨rfl, started⟩ := done
  apply ends_system_bind
  split
  · exact ends_fail_started .package started nofun
  · refine Ends.bind_iff.2 (ends_store_system.mono (fun outcome written same => ?_) fun _ _ => id)
    rw [← same] at started ⊢
    refine Ends.bind (ends_settle_started .package .packaged outcome started nofun)
      (fun report settled done => ?_) fun _ _ halts => halts
    refine Ends.bind_iff.2 (ends_release_system.mono (fun _ after freed => ?_) fun _ _ => id)
    refine Ends.bind_iff.2 (ends_change (Ends.pure_iff.2 ?_))
    rw [freed, done.2]
    exact ⟨started, rfl, .refl _, fun _ => rfl⟩

end Working

namespace HardwareSystem

structure Turn where
  call : StageCall
  volume : Volume

def take (system : HardwareSystem) (turn : Turn) : Except BuildError Unit × HardwareSystem :=
  let (outcome, state) := turn.call.work.run.run ⟨system, turn.volume⟩
  (outcome, state.system)

def after (system : HardwareSystem) (turns : List Turn) : HardwareSystem :=
  turns.foldl (fun system turn => (system.take turn).2) system

def replies : HardwareSystem → List Turn → List (StageCall × Except BuildError Unit)
  | _, [] => []
  | system, turn :: rest =>
    (turn.call, (system.take turn).1) :: (system.take turn).2.replies rest

def passed (replies : List (StageCall × Except BuildError Unit)) : List StageCall :=
  replies.filterMap fun
    | (call, .ok ()) => some call
    | (_, .error _) => none

def faults (replies : List (StageCall × Except BuildError Unit)) : List BuildError :=
  replies.filterMap fun
    | (_, .ok ()) => none
    | (_, .error error) => some error

variable {system : HardwareSystem}

theorem take_cases (system : HardwareSystem) (turn : Turn) :
    (∃ after, system.take turn = (.ok (), after) ∧ Advances turn.call system after) ∨
      ∃ error after, system.take turn = (.error error, after) ∧
        Halts turn.call error system after := by
  have ends : Ends turn.call.work ⟨system, turn.volume⟩
      (fun _ after => Advances turn.call system after.system)
      fun error after => Halts turn.call error system after.system := by
    cases turn.call with
    | generate => exact Ends.discard_iff.2 (Working.ends_generate_record.mono
        (fun _ _ done => done.1) fun _ _ halts => halts)
    | compile => exact Ends.discard_iff.2 Working.ends_compile_record
    | package => exact Ends.discard_iff.2 Working.ends_package_record
  rcases ends.cases_run with ⟨_, state, ran, advances⟩ | ⟨error, state, ran, halts⟩
  · exact .inl ⟨state.system, by rw [take, ran], advances⟩
  · exact .inr ⟨error, state.system, by rw [take, ran], halts⟩

end HardwareSystem

/-- The calls that can still succeed, in the order in which they have to come. -/
def Stage.ahead : Stage → List StageCall
  | .constructed => [.generate, .compile, .package]
  | .generated => [.compile, .package]
  | .compiled => [.package]
  | .packaged | .failed => []

theorem StageCall.ahead_start (call : StageCall) :
    call.start.ahead = call :: call.finish.ahead := by
  cases call <;> rfl

namespace HardwareSystem

variable {system after : HardwareSystem}

theorem after_of_take {turn : Turn} {outcome : Except BuildError Unit}
    (took : system.take turn = (outcome, after)) (rest : List Turn) :
    system.after (turn :: rest) = after.after rest := by
  rw [HardwareSystem.after, List.foldl_cons, took, HardwareSystem.after]

theorem replies_of_take {turn : Turn} {outcome : Except BuildError Unit}
    (took : system.take turn = (outcome, after)) (rest : List Turn) :
    system.replies (turn :: rest) = (turn.call, outcome) :: after.replies rest := by
  rw [replies, took]

theorem passed_prefix (system : HardwareSystem) (turns : List Turn) :
    passed (system.replies turns) <+: system.stage.ahead := by
  induction turns generalizing system with
  | nil => exact List.nil_prefix
  | cons turn rest induction =>
      rcases system.take_cases turn with ⟨after, took, advances⟩ | ⟨error, after, took, halts⟩
      · have later := induction after
        rw [advances.finish] at later
        rw [replies_of_take took, advances.start, turn.call.ahead_start]
        exact List.prefix_cons_inj turn.call |>.2 later
      · have later := induction after
        rw [halts.stage] at later
        rw [replies_of_take took]
        exact later.trans List.nil_prefix

theorem tells_after (system : HardwareSystem) (turns : List Turn) :
    system.log.Tells (system.after turns).log
      ((faults (system.replies turns)).map (·.toDiagnostic)) := by
  induction turns generalizing system with
  | nil => exact .refl _
  | cons turn rest induction =>
      rcases system.take_cases turn with ⟨after, took, advances⟩ | ⟨error, after, took, halts⟩
      · rw [after_of_take took, replies_of_take took]
        exact advances.told.trans (induction after)
      · rw [after_of_take took, replies_of_take took]
        exact halts.told.trans (induction after)

theorem replies_of_failed (failed : system.stage = .failed) (turns : List Turn) :
    (system.after turns).stage = .failed ∧ system.replies turns =
      turns.map fun turn => (turn.call, .error (.previouslyFailed turn.call.name)) := by
  induction turns generalizing system with
  | nil => exact ⟨failed, rfl⟩
  | cons turn rest induction =>
      rcases system.take_cases turn with ⟨after, took, advances⟩ | ⟨error, after, took, halts⟩
      · exact absurd (advances.start.symm.trans failed) turn.call.start_ne_failed
      · obtain ⟨stage, later⟩ := induction halts.stage
        rw [after_of_take took, replies_of_take took, List.map_cons, later, halts.failed failed]
        exact ⟨stage, rfl⟩

/-- Whatever a system is called to do, and whatever becomes of the disk in the meantime: a call
succeeds only in its own stage, so that each stage is passed once at most and in its order; the
first call that fails ends the way, and all later ones are told so; and the errors of the log are
those of the calls that failed, in their order. -/
theorem stages_pass_once_in_order (name version : String) (library : Library) (top : String)
    (backend : Backend) (policy : Option ArbitrationPolicy) (output : Path) (turns : List Turn) :
    let start := HardwareSystem.new name version library top backend policy output
    let now := start.after turns
    let failures := faults (start.replies turns)
    (∀ turn next, now.take turn = (.ok (), next) →
      now.stage = turn.call.start ∧ next.stage = turn.call.finish) ∧
    passed (start.replies turns) <+: [.generate, .compile, .package] ∧
    (∀ turn error next, now.take turn = (.error error, next) → next.stage = .failed ∧
      ∀ later, (next.after later).stage = .failed ∧ next.replies later =
        later.map fun turn => (turn.call, .error (.previouslyFailed turn.call.name))) ∧
    now.log.pending.filter (·.isError) = failures.map (·.toDiagnostic) ∧
    (now.log.pending.filter (·.isError)).map (fun told => (told.code, told.scope)) =
      failures.map (fun error => (error.code, error.scope?)) ∧
    now.log.errors = failures.length := by
  intro start now failures
  obtain ⟨pending, count⟩ := start.tells_after turns
  have told : now.log.pending.filter (·.isError) = failures.map (·.toDiagnostic) := pending
  refine ⟨fun turn next took => ?_, start.passed_prefix turns, fun turn error next took => ?_, told,
    ?_, ?_⟩
  · rcases now.take_cases turn with ⟨after, ended, advances⟩ | ⟨error, after, ended, -⟩
    · cases ended.symm.trans took
      exact ⟨advances.start, advances.finish⟩
    · cases ended.symm.trans took
  · rcases now.take_cases turn with ⟨after, ended, -⟩ | ⟨error, after, ended, halts⟩
    · cases ended.symm.trans took
    · cases ended.symm.trans took
      exact ⟨halts.stage, replies_of_failed halts.stage⟩
  · rw [told, List.map_map]
    exact List.map_congr_left fun error _ =>
      Prod.ext error.code_toDiagnostic error.scope_toDiagnostic
  · rw [count, List.length_map]
    exact Nat.zero_add _

/-- Once the system has been compiled, or has failed, it keeps what it has. -/
theorem graph?_after_of_past (built : system.stage ≠ .constructed)
    (given : system.stage ≠ .generated) (turns : List Turn) :
    (system.after turns).graph? = system.graph? := by
  induction turns generalizing system with
  | nil => rfl
  | cons turn rest induction =>
      rcases system.take_cases turn with ⟨after, took, advances⟩ | ⟨error, after, took, halts⟩
      · have packages : turn.call = .package := by
          cases called : turn.call with
          | generate =>
              exact absurd (advances.start.trans (congrArg StageCall.start called)) built
          | compile =>
              exact absurd (advances.start.trans (congrArg StageCall.start called)) given
          | package => rfl
        have finish : after.stage = .packaged :=
          advances.finish.trans (congrArg StageCall.finish packages)
        rw [after_of_take took]
        refine (induction (finish ▸ nofun) (finish ▸ nofun)).trans ?_
        exact advances.graph (packages ▸ nofun)
      · rw [after_of_take took]
        exact (induction (halts.stage ▸ nofun) (halts.stage ▸ nofun)).trans
          (halts.kept fun _ => given)

/-- The graph of a generation stays with the system whatever it is called to do, unless the next
call is a compilation, and that fails: then the system has no graph any more. -/
theorem graph_stays_until_compilation_fails {name version top : String} {library : Library}
    {backend : Backend} {policy : Option ArbitrationPolicy} {output : Path} {volume : Volume}
    {graph : Graph} {state : SystemState}
    (generated : HardwareSystem.generate.run.run
      ⟨.new name version library top backend policy output, volume⟩ = (.ok graph, state))
    (turns : List Turn) :
    let lost := ∃ error, (state.system.replies turns).head? = some (.compile, .error error)
    (lost → (state.system.after turns).graph? = none) ∧
      (¬ lost → (state.system.after turns).graph? = some graph) := by
  intro lost
  have ends : Ends HardwareSystem.generate
      ⟨.new name version library top backend policy output, volume⟩ _ _ :=
    Working.ends_generate_record
  obtain ⟨advances, held, compiled⟩ := ends.of_run_ok generated
  have stage : state.system.stage = .generated := advances.finish
  have kept : state.system.graph? = some graph := graph?_of_generated held
  cases turns with
  | nil => exact ⟨fun ⟨_, nothing⟩ => absurd nothing nofun, fun _ => kept⟩
  | cons turn rest =>
      rcases state.system.take_cases turn with ⟨after, took, passes⟩ | ⟨error, after, took, halts⟩
      · have compiles : turn.call = .compile :=
          StageCall.start_injective (passes.start.symm.trans stage)
        have finish : after.stage = .compiled :=
          passes.finish.trans (congrArg StageCall.finish compiles)
        have same : (state.system.after (turn :: rest)).graph? = some graph := by
          rw [after_of_take took]
          refine (graph?_after_of_past (finish ▸ nofun) (finish ▸ nofun) rest).trans ?_
          exact (passes.graph (compiles ▸ nofun)).trans kept
        refine ⟨fun ⟨error, first⟩ => ?_, fun _ => same⟩
        rw [replies_of_take took, List.head?_cons] at first
        exact absurd (congrArg Prod.snd (Option.some.inj first)) nofun
      · have later : (state.system.after (turn :: rest)).graph? = after.graph? := by
          rw [after_of_take took]
          exact graph?_after_of_past (halts.stage ▸ nofun) (halts.stage ▸ nofun) rest
        refine ⟨fun ⟨error, first⟩ => ?_, fun stays => ?_⟩
        · rw [replies_of_take took, List.head?_cons] at first
          have compiles : turn.call = .compile := congrArg Prod.fst (Option.some.inj first)
          rw [later, halts.given compiles stage, compiled]
          rfl
        · refine later.trans ((halts.kept fun compiles => absurd ⟨error, ?_⟩ stays).trans kept)
          rw [replies_of_take took, List.head?_cons, compiles]

/-- A system whose top module leaves a bundle that no service takes, which only a compilation
notices. -/
def unserved : HardwareSystem :=
  .new "Lone" "0.1.0"
    { modules := [{ name := "Top", recipe := .step (.pack [] [] none none) .done }] }
    "Top" (.stock .cosim) none "out"

theorem unserved_loses_graph :
    ∃ graph state, HardwareSystem.generate.run.run ⟨unserved, { disk := .empty }⟩ =
        (.ok graph, state) ∧
      (state.system.take ⟨.compile, state.volume⟩).1 = .error (.unservicedBundle "Top" "server") ∧
      (state.system.after [⟨.compile, state.volume⟩]).graph? = none ∧
      (state.system.after [⟨.package, state.volume⟩]).graph? = some graph := by
  obtain ⟨graph, state, ran, -⟩ | ⟨error, state, ran, -⟩ :=
    (Ends.any HardwareSystem.generate ⟨unserved, { disk := .empty }⟩).cases_run
  · have fails : let state := (HardwareSystem.generate.run.run
          ⟨unserved, { disk := .empty }⟩).2
        (state.system.take ⟨.compile, state.volume⟩).1 =
          .error (.unservicedBundle "Top" "server") := by decide +kernel
    rw [ran] at fails
    have compiles : (state.system.take ⟨.compile, state.volume⟩).1 =
        .error (.unservicedBundle "Top" "server") := fails
    obtain ⟨lost, -⟩ := graph_stays_until_compilation_fails ran [⟨.compile, state.volume⟩]
    obtain ⟨-, kept⟩ := graph_stays_until_compilation_fails ran [⟨.package, state.volume⟩]
    refine ⟨graph, state, ran, compiles, lost ⟨.unservicedBundle "Top" "server", ?_⟩, kept ?_⟩
    · rw [replies, compiles]
      rfl
    · rintro ⟨error, first⟩
      exact absurd (congrArg Prod.fst (Option.some.inj first)) nofun
  · have succeeds : (HardwareSystem.generate.run.run
      ⟨unserved, { disk := .empty }⟩).1.toOption.isSome = true := by decide +kernel
    rw [ran] at succeeds
    cases succeeds

end HardwareSystem

end Elastic
