import Elastic.Proofs.Build.Termination

namespace Elastic

/-! Elaboration with one stack for all. A module that comes under construction is pushed on the
stack before its recipe is run, and whatever the recipe comes to, the last one is popped after it.
This does what elaboration does, in which every module is told the stack below it. -/

/-- What modules share while they are elaborated, one inside the other. -/
structure VisitState where
  shared : Elaboration := {}
  /-- The modules under construction, from the outermost in. -/
  running : List String := []

structure Visit where
  name : String
  state : VisitState

/-- A recipe at work, and the calls for modules that it has made so far. -/
structure RecipeState where
  assembly : Assembly
  running : List String
  visits : List Visit := []

abbrev Visiting (α : Type) := ExceptT BuildError (StateM VisitState) α

abbrev Performing (α : Type) := ExceptT BuildError (StateM RecipeState) α

namespace RecipeState

def state (builder : RecipeState) : VisitState := ⟨builder.assembly.builder.shared, builder.running⟩

def begin (decl : ModuleDecl) (ports : List Port) (state : VisitState) : RecipeState where
  assembly := .begin decl.name
    { id := 0, name := (state.shared.names.intern decl.name).1, ports := ports,
      metadata := decl.metadata }
    { state.shared with names := (state.shared.names.intern decl.name).2 }
  running := state.running ++ [decl.name]

def resume (builder : RecipeState) (after : VisitState) : RecipeState where
  assembly :=
    { builder.assembly with builder := { builder.assembly.builder with shared := after.shared } }
  running := after.running
  visits := builder.visits

end RecipeState

namespace Performing

def assembling (work : Assembling α) : Performing α := fun builder =>
  let (outcome, assembly) := work builder.assembly
  (outcome, { builder with assembly := assembly })

def visiting (visit : String → Visiting ModuleId) (name : String) : Performing ModuleId :=
  fun builder =>
  let (outcome, after) := visit name builder.state
  (outcome, { builder.resume after with visits := builder.visits ++ [⟨name, builder.state⟩] })

end Performing

open Assembling Performing

namespace Construction

def adopt (child : String) (appId : AppId) (connections : List (String × Value)) (id : ModuleId) :
    Construction Unit := do
  let ports := (((← get).shared.modules.get? id).map (·.ports)).getD []
  checkConnections child ports connections
  let wired ← wirePorts child connections ports
  modifyModule fun module =>
    { module with children := module.children ++ [⟨appId, id, wired⟩] }

theorem instantiate_eq (elaborate : String → Elaborating ModuleId) (child : String) (appId : AppId)
    (connections : List (String × Value)) :
    instantiate elaborate child appId connections = (do
      reserve appId
      let id ← onShared (elaborate child)
      adopt child appId connections id) := rfl

end Construction

def Step.perform (setting : Setting) (visit : String → Visiting ModuleId) : Step → Performing Unit
  | .instantiate module appId connections => do
    let connections ← assembling (namedValues connections)
    assembling (onBuilder (Construction.reserve appId))
    let id ← visiting visit module
    assembling (onBuilder (Construction.adopt module appId connections id))
  | step => assembling (step.run setting fun name => throw (.unknownModule name))

def Recipe.perform (setting : Setting) (visit : String → Visiting ModuleId) :
    Recipe → Performing Unit
  | .done => return
  | .step first rest => do
    first.perform setting visit
    rest.perform setting visit
  | .ifHost yes no rest => do
    if setting.capabilities.hostChannels then yes.perform setting visit
    else no.perform setting visit
    rest.perform setting visit
  | .attempt body rest => do
    let outcome ← ExceptT.lift (body.perform setting visit).run
    assembling (note (Note.ofOutcome outcome))
    rest.perform setting visit

namespace VisitState

/-- What a call comes to before a recipe is run. -/
inductive Entry
  | finished (id : ModuleId)
  | begun (decl : ModuleDecl) (builder : RecipeState)

def onShared (work : Elaborating α) : Visiting α := fun state =>
  let (outcome, shared) := work state.shared
  (outcome, { state with shared := shared })

def enter (setting : Setting) (name : String) : Visiting Entry := do
  match (← get).shared.finished? name with
  | some id => return .finished id
  | none =>
    match (← get).running.dropWhile (· ≠ name) with
    | first :: inner => throw (.recursiveInstantiation (first :: inner ++ [name]))
    | [] =>
      match setting.library.module? name with
      | none => throw (.unknownModule name)
      | some decl =>
        let ports ← onShared (Elaboration.declarePorts decl.name decl.ports)
        modifyGet fun state =>
          let builder := RecipeState.begin decl ports state
          (.begun decl builder, builder.state)

/-- Takes the module off the stack, and puts it to the finished ones if its recipe did not fail. -/
def leave (name : String) (outcome : Except BuildError Unit) (builder : RecipeState) :
    Visiting ModuleId := do
  set ({ builder.state with running := builder.running.dropLast } : VisitState)
  match outcome with
  | .error error => throw error
  | .ok () =>
    modifyGet fun state => (state.shared.modules.nextId,
      { state with shared := state.shared.finish name builder.assembly.builder.module })

def construct (setting : Setting) (visit : String → Visiting ModuleId) : Entry → Visiting ModuleId
  | .finished id => return id
  | .begun decl builder =>
    let (outcome, after) := (decl.recipe.perform setting visit).run.run builder
    leave decl.name outcome after

def visitWithin (setting : Setting) : Nat → String → Visiting ModuleId
  | 0, _ => throw (.internal "more modules under construction than the library has")
  | fuel + 1, name => do construct setting (visitWithin setting fuel) (← enter setting name)

/-- A call for a module. No more modules can be under construction than the library has. -/
def visit (setting : Setting) (name : String) : Visiting ModuleId :=
  visitWithin setting (setting.library.modules.length + 1) name

end VisitState

namespace Performing

/-- Two performances do the same work and make the same calls, and neither changes the stack. -/
def Follow (running : List String) (one other : Performing α) (work : Assembling α) : Prop :=
  ∀ builder : RecipeState, builder.running = running → ∃ visits,
    one.run.run builder = ((work.run.run builder.assembly).1,
      ⟨(work.run.run builder.assembly).2, running, visits⟩) ∧
    other.run.run builder = ((work.run.run builder.assembly).1,
      ⟨(work.run.run builder.assembly).2, running, visits⟩)

variable {running : List String}

theorem follow_pure (value : α) :
    Follow running (pure value) (pure value) (pure value : Assembling α) := by
  rintro ⟨assembly, _, visits⟩ rfl
  exact ⟨visits, rfl, rfl⟩

theorem follow_assembling (work : Assembling α) :
    Follow running (assembling work) (assembling work) work := by
  rintro ⟨assembly, _, visits⟩ rfl
  exact ⟨visits, rfl, rfl⟩

theorem Follow.bind {one other : Performing α} {work : Assembling α}
    {next next' : α → Performing β} {rest : α → Assembling β}
    (first : Follow running one other work)
    (later : ∀ value, Follow running (next value) (next' value) (rest value)) :
    Follow running (one >>= next) (other >>= next') (work >>= rest) := by
  intro builder same
  obtain ⟨visits, ran, ran'⟩ := first builder same
  rw [Ends.run_bind, Ends.run_bind, Ends.run_bind, ran, ran']
  rcases work.run.run builder.assembly with ⟨error | value, assembly⟩
  · exact ⟨visits, rfl, rfl⟩
  · exact later value ⟨assembly, running, visits⟩ rfl

theorem Follow.lift {one other : Performing α} {work : Assembling α}
    (first : Follow running one other work) :
    Follow running (ExceptT.lift one.run) (ExceptT.lift other.run)
      (ExceptT.lift work.run : Assembling (Except BuildError α)) := by
  intro builder same
  obtain ⟨visits, ran, ran'⟩ := first builder same
  have run (performing : Performing α) : (ExceptT.lift performing.run :
      Performing (Except BuildError α)).run.run builder =
      (.ok (performing.run.run builder).1, (performing.run.run builder).2) := rfl
  exact ⟨visits, by rw [run, ran]; rfl, by rw [run, ran']; rfl⟩

variable {setting : Setting} {visit visit' : String → Visiting ModuleId}
  {elaborate : String → Elaborating ModuleId}

/-- Two ways to make a call do what an elaboration does in a state with the given stack. -/
def Answers (running : List String) (visit visit' : String → Visiting ModuleId)
    (elaborate : String → Elaborating ModuleId) : Prop :=
  ∀ name (state : VisitState), state.running = running →
    (visit name).run.run state = (VisitState.onShared (elaborate name)).run.run state ∧
      (visit' name).run.run state = (VisitState.onShared (elaborate name)).run.run state

theorem follow_visiting (answers : Answers running visit visit' elaborate) (name : String) :
    Follow running (visiting visit name) (visiting visit' name)
      (onBuilder (Construction.onShared (elaborate name))) := by
  intro builder same
  obtain ⟨ran, ran'⟩ := answers name builder.state same
  have run (visit : String → Visiting ModuleId) : (visiting visit name).run.run builder =
      (((visit name).run.run builder.state).1,
        { builder.resume ((visit name).run.run builder.state).2 with
        visits := builder.visits ++ [⟨name, builder.state⟩] }) := rfl
  refine ⟨builder.visits ++ [⟨name, builder.state⟩], ?_, ?_⟩
  · rw [run, ran, ← same]
    rfl
  · rw [run, ran', ← same]
    rfl

theorem onBuilder_bind (first : Construction α) (rest : α → Construction β) :
    onBuilder (first >>= rest) = onBuilder first >>= fun value => onBuilder (rest value) := by
  have run {γ : Type} (operation : Construction γ) (assembly : Assembly) :
      (onBuilder operation).run.run assembly = ((operation.run.run assembly.builder).1,
        { assembly with builder := (operation.run.run assembly.builder).2 }) := rfl
  apply ExceptT.ext
  apply StateT.ext
  intro assembly
  rw [Ends.run_bind, run, run, Ends.run_bind]
  rcases first.run.run assembly.builder with ⟨error | value, builder⟩ <;> rfl

theorem instantiates_or_assembles (setting : Setting) (step : Step) :
    (∃ module appId connections, step = .instantiate module appId connections) ∨
      ∀ visit elaborate, step.perform setting visit = assembling (step.run setting elaborate) := by
  cases step <;> first | exact .inl ⟨_, _, _, rfl⟩ | exact .inr fun _ _ => rfl

theorem follow_step (answers : Answers running visit visit' elaborate) (step : Step) :
    Follow running (step.perform setting visit) (step.perform setting visit')
      (step.run setting elaborate) := by
  obtain ⟨module, appId, connections, rfl⟩ | assembles := instantiates_or_assembles setting step
  · refine (follow_assembling _).bind fun connections => ?_
    rw [Construction.instantiate_eq, onBuilder_bind]
    refine (follow_assembling _).bind fun _ => ?_
    rw [onBuilder_bind]
    exact (follow_visiting answers module).bind fun id => follow_assembling _
  · rw [assembles visit elaborate, assembles visit' elaborate]
    exact follow_assembling _

theorem follow_recipe (answers : Answers running visit visit' elaborate) (recipe : Recipe) :
    Follow running (recipe.perform setting visit) (recipe.perform setting visit')
      (recipe.run setting elaborate) := by
  induction recipe with
  | done => exact follow_pure ()
  | step first rest induction => exact (follow_step answers first).bind fun _ => induction
  | ifHost yes no rest induction induction' last =>
      unfold Recipe.perform Recipe.run
      split
      · exact induction.bind fun _ => last
      · exact induction'.bind fun _ => last
  | attempt body rest induction last =>
      exact induction.lift.bind fun outcome => (follow_assembling _).bind fun _ => last

end Performing

namespace Elaboration

variable {setting : Setting}

theorem run_unbounded (running : List String) (name : String) (shared : Elaboration) :
    (unbounded setting running name).run.run shared =
      match shared.finished? name with
      | some id => (.ok id, shared)
      | none =>
        match running.dropWhile (· ≠ name) with
        | first :: inner => (.error (.recursiveInstantiation (first :: inner ++ [name])), shared)
        | [] =>
          match setting.library.module? name with
          | none => (.error (.unknownModule name), shared)
          | some decl =>
            (constructModule setting (unbounded setting (running ++ [name])) decl).run.run
              shared := by
  rw [unbounded_eq, Ends.run_get_bind]
  cases shared.finished? name with
  | some id => rfl
  | none =>
      cases running.dropWhile (· ≠ name) with
      | cons first inner => rfl
      | nil => cases setting.library.module? name <;> rfl

theorem run_constructModule (elaborate : String → Elaborating ModuleId) (decl : ModuleDecl)
    (shared : Elaboration) (running : List String) :
    (constructModule setting elaborate decl).run.run shared =
      match (declarePorts decl.name decl.ports).run.run shared with
      | (.error error, after) => (.error error, after)
      | (.ok ports, first) =>
        match (decl.recipe.run setting elaborate).run.run
          (RecipeState.begin decl ports ⟨first, running⟩).assembly with
        | (.error error, assembly) => (.error error, assembly.builder.shared)
        | (.ok (), assembly) => (.ok assembly.builder.shared.modules.size,
            assembly.builder.shared.finish decl.name assembly.builder.module) := by
  rw [constructModule, Ends.run_bind]
  rcases (declarePorts decl.name decl.ports).run.run shared with ⟨error | ports, first⟩
  · rfl
  · dsimp only
    rw [Ends.run_modifyGet_bind, Ends.run_get_bind]
    have assembled : assemble setting elaborate decl
        { id := 0, name := (first.names.intern decl.name).1, ports := ports,
          metadata := decl.metadata }
        { first with names := (first.names.intern decl.name).2 } =
      (decl.recipe.run setting elaborate).run.run
        (RecipeState.begin decl ports ⟨first, running⟩).assembly := rfl
    dsimp only
    rw [assembled]
    rcases (decl.recipe.run setting elaborate).run.run
      (RecipeState.begin decl ports ⟨first, running⟩).assembly with ⟨error | ⟨⟩, assembly⟩ <;> rfl

end Elaboration

namespace VisitState

variable {setting : Setting} {name : String} {state : VisitState}

theorem run_onShared (work : Elaborating α) (state : VisitState) :
    (onShared work).run.run state =
      ((work.run.run state.shared).1, { state with shared := (work.run.run state.shared).2 }) := rfl

theorem run_enter (name : String) (state : VisitState) : (enter setting name).run.run state =
    match state.shared.finished? name with
    | some id => (.ok (.finished id), state)
    | none =>
      match state.running.dropWhile (· ≠ name) with
      | first :: inner => (.error (.recursiveInstantiation (first :: inner ++ [name])), state)
      | [] =>
        match setting.library.module? name with
        | none => (.error (.unknownModule name), state)
        | some decl =>
          match (Elaboration.declarePorts decl.name decl.ports).run.run state.shared with
          | (.error error, shared) => (.error error, { state with shared := shared })
          | (.ok ports, shared) =>
            let builder := RecipeState.begin decl ports { state with shared := shared }
            (.ok (.begun decl builder), builder.state) := by
  rw [enter, Ends.run_get_bind]
  cases state.shared.finished? name with
  | some id => rfl
  | none =>
      dsimp only
      rw [Ends.run_get_bind]
      cases state.running.dropWhile (· ≠ name) with
      | cons first inner => rfl
      | nil =>
          cases setting.library.module? name with
          | none => rfl
          | some decl =>
              dsimp only
              rw [Ends.run_bind, run_onShared]
              rcases (Elaboration.declarePorts decl.name decl.ports).run.run state.shared with
                ⟨error | ports, shared⟩ <;> rfl

open Elaboration Performing

structure Begins (setting : Setting) (name : String) (state : VisitState) (decl : ModuleDecl)
    (builder : RecipeState) : Prop where
  fresh : state.shared.finished? name = none
  apart : name ∉ state.running
  declared : setting.library.module? name = some decl
  stack : builder.running = state.running ++ [name]
  silent : builder.visits = []
  opened : ∃ ports shared,
    (declarePorts decl.name decl.ports).run.run state.shared = (.ok ports, shared) ∧
      builder = .begin decl ports { state with shared := shared }

theorem begins_of_enter {decl : ModuleDecl} {builder : RecipeState} {after : VisitState}
    (entered : (enter setting name).run.run state = (.ok (.begun decl builder), after)) :
    Begins setting name state decl builder := by
  rw [run_enter] at entered
  split at entered
  · cases entered
  rename_i fresh
  split at entered
  · cases entered
  rename_i ended
  split at entered
  · cases entered
  rename_i found declared
  split at entered
  · cases entered
  · rename_i ports shared opened
    cases entered
    obtain rfl := name_of_module? declared
    exact ⟨fresh, not_mem_of_dropWhile ended, declared, rfl, rfl, ports, shared, opened, rfl⟩

def close (name : String) (running : List String) :
    Except BuildError Unit × Assembly → Except BuildError ModuleId × VisitState
  | (.error error, assembly) => (.error error, ⟨assembly.builder.shared, running⟩)
  | (.ok (), assembly) => (.ok assembly.builder.shared.modules.size,
      ⟨assembly.builder.shared.finish name assembly.builder.module, running⟩)

theorem run_construct (setting : Setting) {running : List String}
    {visit visit' : String → Visiting ModuleId} {elaborate : String → Elaborating ModuleId}
    (answers : Answers running visit visit' elaborate) (decl : ModuleDecl) {builder : RecipeState}
    (stack : builder.running = running) (state : VisitState) :
    let result := close decl.name running.dropLast
      ((decl.recipe.run setting elaborate).run.run builder.assembly)
    (construct setting visit (.begun decl builder)).run.run state = result ∧
      (construct setting visit' (.begun decl builder)).run.run state = result := by
  obtain ⟨visits, ran, ran'⟩ := follow_recipe answers decl.recipe builder stack
  rw [construct, construct, ran, ran']
  rcases (decl.recipe.run setting elaborate).run.run builder.assembly with ⟨error | ⟨⟩, assembly⟩
  · exact ⟨rfl, rfl⟩
  · exact ⟨rfl, rfl⟩

theorem run_onShared_unbounded (name : String) (state : VisitState) :
    (onShared (unbounded setting state.running name)).run.run state =
      match (enter setting name).run.run state with
      | (.error error, after) => (.error error, after)
      | (.ok (.finished id), after) => (.ok id, after)
      | (.ok (.begun decl builder), _) => close decl.name state.running
          ((decl.recipe.run setting (unbounded setting (state.running ++ [name]))).run.run
            builder.assembly) := by
  rw [run_enter, run_onShared, run_unbounded]
  cases state.shared.finished? name with
  | some id => rfl
  | none =>
      cases state.running.dropWhile (· ≠ name) with
      | cons first inner => rfl
      | nil =>
          cases setting.library.module? name with
          | none => rfl
          | some decl =>
              dsimp only
              rw [run_constructModule _ decl state.shared state.running]
              rcases (declarePorts decl.name decl.ports).run.run state.shared with
                ⟨error | ports, shared⟩
              · rfl
              · dsimp only
                rcases (decl.recipe.run setting _).run.run (RecipeState.begin decl ports _).assembly
                  with ⟨error | ⟨⟩, assembly⟩ <;> rfl

theorem run_visitWithin (fuel : Nat) (name : String) (state : VisitState)
    (enough : (setting.library.waiting state.running).length < fuel) :
    (visitWithin setting fuel name).run.run state =
      (onShared (unbounded setting state.running name)).run.run state := by
  induction fuel generalizing name state with
  | zero => cases enough
  | succ fuel induction =>
      rw [visitWithin, Ends.run_bind, run_onShared_unbounded]
      cases entered : (enter setting name).run.run state with
      | mk outcome after =>
          rcases outcome with error | ⟨id⟩ | ⟨decl, builder⟩
          · rfl
          · rfl
          · have begins := begins_of_enter entered
            have fewer := Library.waiting_lt begins.declared begins.apart
            have answers : Answers (state.running ++ [name]) (visitWithin setting fuel)
                (visitWithin setting fuel) (unbounded setting (state.running ++ [name])) := by
              intro name' inner same
              have ran := induction name' inner
                (same ▸ Nat.lt_of_lt_of_le fewer (Nat.le_of_lt_succ enough))
              exact same ▸ ⟨ran, ran⟩
            obtain ⟨ran, -⟩ := run_construct setting answers decl begins.stack after
            rwa [List.dropLast_concat] at ran

/-- A call does what an elaboration does that is told the stack, and leaves the stack as it is. -/
theorem run_visit (setting : Setting) (name : String) (state : VisitState) :
    (visit setting name).run.run state =
      (onShared (unbounded setting state.running name)).run.run state :=
  run_visitWithin _ name state (Nat.lt_succ_of_le (setting.library.length_waiting_le _))

theorem run_visit_eq_elaborate (setting : Setting) (name : String) (state : VisitState) :
    (visit setting name).run.run state = (onShared (Elaboration.elaborate setting
      (setting.library.modules.length + 1) state.running name)).run.run state := by
  have enough := Nat.lt_succ_of_le (setting.library.length_waiting_le state.running)
  rw [run_visit, elaborate_eq_unbounded _ _ enough]

theorem visit_eq (name : String) :
    visit setting name = enter setting name >>= construct setting (visit setting) := by
  apply ExceptT.ext
  apply StateT.ext
  intro state
  rw [visit, visitWithin, Ends.run_bind, Ends.run_bind]
  cases entered : (enter setting name).run.run state with
  | mk outcome after =>
      rcases outcome with error | ⟨id⟩ | ⟨decl, builder⟩
      · rfl
      · rfl
      · have begins := begins_of_enter entered
        have fewer := Library.waiting_lt begins.declared begins.apart
        have answers : Answers (state.running ++ [name])
            (visitWithin setting setting.library.modules.length) (visit setting)
            (unbounded setting (state.running ++ [name])) := by
          intro name' inner same
          have enough := Nat.lt_of_lt_of_le fewer (setting.library.length_waiting_le state.running)
          have ran := run_visitWithin _ name' inner (same ▸ enough)
          exact same ▸ ⟨ran, run_visit setting name' inner⟩
        obtain ⟨one, other⟩ := run_construct setting answers decl begins.stack after
        exact one.trans other.symm

end VisitState

end Elastic
