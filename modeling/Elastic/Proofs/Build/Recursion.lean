import Elastic.Proofs.Build.Visits
import Mathlib.Data.List.Chain

namespace Elastic

/-! Modules that ask for themselves. The stack of an elaboration names the modules of which the
recipes are running, whatever has failed before and whoever has caught it, so that just the calls
for these are refused. -/

namespace BuilderInvariant

variable {elaborate : String → Elaborating ModuleId} {channels : ChannelId → Prop}
  {bundles : BundleId → Prop} {good : Builder → Prop} {fault : BuildError → Prop}

theorem adopt (builderInvariant : BuilderInvariant elaborate channels bundles good fault)
    (child : String) (appId : AppId) (connections : List (String × Value)) (id : ModuleId) :
    Preserves good fault (Construction.adopt child appId connections id) := by
  refine .get_bind fun _ => (builderInvariant.checkConnections _ _ _).bind fun _ => ?_
  refine (builderInvariant.wirePorts _ _ _).bind fun _ builder holds => ?_
  exact Ends.modify_iff.2 (builderInvariant.declare builder builder.module.builtins _ holds)

end BuilderInvariant

/-- The tables and the stack are as they should be, now and at every call that was made. -/
structure RecipeState.Keeps (good : Elaboration → Prop) (running : List String)
    (builder : RecipeState) : Prop where
  shared : good builder.assembly.builder.shared
  stack : builder.running = running
  visits : ∀ visit ∈ builder.visits, good visit.state.shared ∧ visit.state.running = running

namespace Performing

variable {good : Elaboration → Prop} {running : List String} {setting : Setting}
  {visit : String → Visiting ModuleId}

theorem maintains_assembling {work : Assembling α}
    (maintains : ∀ ident, Maintains (fun assembly => assembly.builder.NamedWith good ident) work) :
    Maintains (RecipeState.Keeps good running) (assembling work) := by
  intro builder keeps
  have ends := maintains builder.assembly.builder.module.name builder.assembly ⟨rfl, keeps.shared⟩
  refine (ends.mono ?_ ?_).focus (fun assembly => { builder with assembly := assembly }) rfl
  · exact fun _ _ namedWith => ⟨namedWith.shared, keeps.stack, keeps.visits⟩
  · exact fun _ _ namedWith => ⟨namedWith.shared, keeps.stack, keeps.visits⟩

theorem maintains_visiting
    (visits : ∀ name,
      Maintains (fun state => good state.shared ∧ state.running = running) (visit name))
    (name : String) : Maintains (RecipeState.Keeps good running) (visiting visit name) := by
  intro builder keeps
  have ends := visits name builder.state ⟨keeps.shared, keeps.stack⟩
  have called : ∀ visit ∈ builder.visits ++ [⟨name, builder.state⟩],
      good visit.state.shared ∧ visit.state.running = running := by
    intro visit member
    rcases List.mem_append.1 member with earlier | last
    · exact keeps.visits visit earlier
    · rw [List.mem_singleton.1 last]
      exact ⟨keeps.shared, keeps.stack⟩
  refine (ends.mono ?_ ?_).focus (fun after =>
    { builder.resume after with visits := builder.visits ++ [⟨name, builder.state⟩] }) rfl
  · exact fun _ _ holds => ⟨holds.1, holds.2, called⟩
  · exact fun _ _ holds => ⟨holds.1, holds.2, called⟩

theorem maintains_onBuilder {operation : Construction α} {good : Builder → Prop}
    (maintains : Maintains good operation) :
    Maintains (fun assembly => good assembly.builder) (Assembling.onBuilder operation) :=
  fun assembly holds => StepInvariant.ends_onBuilder (maintains assembly.builder holds)

theorem maintains_namedValues {good : Assembly → Prop} (fields : List (String × Label)) :
    Maintains good (Assembling.namedValues fields) := by
  induction fields with
  | nil => exact .pure _
  | cons field rest induction =>
      refine .bind (.get_bind fun held => ?_) fun _ => induction.bind fun _ => .pure _
      split
      · exact .pure _
      · exact .throw _

variable (tableInvariant : Elaboration.TableInvariant good)
  (visits : ∀ name, Maintains (fun state => good state.shared ∧ state.running = running)
    (visit name))

include tableInvariant visits

theorem maintains_step (step : Step) :
    Maintains (RecipeState.Keeps good running) (step.perform setting visit) := by
  have idle (name : String) : Maintains good (throw (.unknownModule name) : Elaborating ModuleId) :=
    .throw _
  have builderInvariant (ident : Ident) : BuilderInvariant _ _ _ (Builder.NamedWith good ident) _ :=
    Construction.builderInvariant_namedWith tableInvariant idle
  obtain ⟨module, appId, connections, rfl⟩ | assembles := instantiates_or_assembles setting step
  · refine .bind (maintains_assembling fun ident => maintains_namedValues connections)
      fun connections => ?_
    refine .bind (maintains_assembling fun ident =>
      maintains_onBuilder ((builderInvariant ident).reserve appId).maintains) fun _ => ?_
    refine .bind (maintains_visiting visits module) fun id => ?_
    exact maintains_assembling fun ident =>
      maintains_onBuilder ((builderInvariant ident).adopt module appId connections id).maintains
  · rw [assembles visit fun name => throw (.unknownModule name)]
    refine maintains_assembling fun ident assembly namedWith => ?_
    have operationInvariant : OperationInvariant setting _ (Builder.NamedWith good ident) :=
      Construction.operationInvariant_tables tableInvariant idle
    exact (operationInvariant.stepInvariant.step step False.elim namedWith).mono
      (fun _ _ namedWith => namedWith) fun _ _ badly => badly.1

theorem maintains_perform (recipe : Recipe) :
    Maintains (RecipeState.Keeps good running) (recipe.perform setting visit) := by
  induction recipe with
  | done => exact .pure _
  | step first rest induction =>
      exact (maintains_step tableInvariant visits first).bind fun _ => induction
  | ifHost yes no rest induction induction' last =>
      unfold Recipe.perform
      split
      · exact induction.bind fun _ => last
      · exact induction'.bind fun _ => last
  | attempt body rest induction last =>
      refine induction.lift.bind fun outcome =>
        .bind (maintains_assembling fun ident => ?_) fun _ => last
      exact .modify fun assembly namedWith =>
        ⟨namedWith.name, tableInvariant.withHoldings _ _ _ namedWith.shared⟩

end Performing

namespace Elaboration

variable {setting : Setting}

structure Retains (earlier shared : Elaboration) : Prop where
  modules : earlier.modules.Grows shared.modules
  finished : ∀ entry ∈ earlier.finished, entry ∈ shared.finished

theorem maintains_retains (earlier : Elaboration) (fuel : Nat) (running : List String)
    (name : String) :
    Maintains earlier.Retains (Elaboration.elaborate setting fuel running name) := by
  refine maintains_elaborate (.of_grows ?_ ?_) ?_ ?_ fuel running name
  · exact fun _ _ _ retains _ _ => ⟨retains.modules, retains.finished⟩
  · exact fun _ _ _ retains => ⟨retains.modules, retains.finished⟩
  · exact fun _ _ retains => ⟨retains.modules, retains.finished⟩
  · exact fun shared _ _ retains =>
      ⟨fun id module held => Arena.grows_push _ _ id module (retains.modules id module held),
        fun entry inside => List.mem_cons_of_mem _ (retains.finished entry inside)⟩

theorem Catalogued.finished?_eq {known : Names} {running : List String} {shared : Elaboration}
    (catalogued : shared.Catalogued known running) {name : String} {id : ModuleId}
    (inside : (name, id) ∈ shared.finished) : shared.finished? name = some id := by
  obtain ⟨-, titles, titled, finished, -⟩ := catalogued
  cases found : shared.finished? name with
  | none =>
      have absent := List.find?_eq_none.1 (Option.map_eq_none_iff.1 found) _ inside
      exact absurd (decide_eq_true rfl) absent
  | some other =>
      have listed := (finished name id).1 inside
      have listed' := (finished name other).1 (mem_of_finished? found)
      have bound := (List.getElem?_eq_some_iff.1 listed).1
      have same := listed'.trans listed.symm
      exact congrArg some ((List.getElem?_inj bound titled.distinct).1 same.symm).symm

theorem ends_declarePorts_error (module : String) (ports : List (String × Ty))
    (shared : Elaboration) : Ends (declarePorts module ports) shared (fun _ _ => True)
      fun error _ => ∀ cycle, error ≠ .recursiveInstantiation cycle := by
  induction ports generalizing shared with
  | nil => exact Ends.pure_iff.2 trivial
  | cons port rest induction =>
      refine Ends.ite (fun _ => Ends.throw_bind fun _ => nofun) fun _ =>
        Ends.bind_iff.2 (Ends.modifyGet_iff.2 ?_)
      refine Ends.bind_iff.2 ((induction _).mono (fun _ _ _ => ?_) fun _ _ => id)
      exact Ends.pure_iff.2 trivial

end Elaboration

namespace VisitState

open Elaboration

variable {setting : Setting} {name : String} {state : VisitState}

/-- What an elaboration does that is told the stack, a call does to the tables. -/
theorem ends_visit {good : ModuleId → Elaboration → Prop} {bad : BuildError → Elaboration → Prop}
    (ends : Ends (Elaboration.elaborate setting (setting.library.modules.length + 1) state.running
      name) state.shared good bad) :
    Ends (visit setting name) state
      (fun id after => good id after.shared ∧ after.running = state.running)
      fun error after => bad error after.shared ∧ after.running = state.running := by
  refine (ends.mono ?_ ?_).focus (fun shared => { state with shared := shared })
    (run_visit_eq_elaborate setting name state)
  · exact fun _ _ holds => ⟨holds, rfl⟩
  · exact fun _ _ holds => ⟨holds, rfl⟩

theorem maintains_visit (setting : Setting) (running : List String) (name : String) :
    Maintains (fun state => state.shared.Catalogued {} running ∧ state.running = running)
      (visit setting name) := by
  rintro state ⟨catalogued, rfl⟩
  exact (ends_visit (catalogued_elaborate _ _ _ name catalogued)).mono
    (fun _ _ ends => ⟨ends.1.1, ends.2⟩) fun _ _ ends => ends

theorem Begins.catalogued {decl : ModuleDecl} {builder : RecipeState}
    (begins : Begins setting name state decl builder)
    (catalogued : state.shared.Catalogued {} state.running) :
    builder.assembly.builder.shared.Catalogued {} (state.running ++ [name]) := by
  obtain ⟨ports, shared, opened, rfl⟩ := begins.opened
  obtain ⟨grown, titles, titled, finished, apart⟩ :=
    (maintains_declarePorts tableInvariant_catalogued decl.name decl.ports state.shared
      (catalogued.start begins.fresh)).of_run_ok opened
  exact ⟨grown.trans (Names.grows_intern _ _), titles, titled.grow (Names.grows_intern _ _),
    finished, apart⟩

end VisitState

namespace Visit

open VisitState

variable {setting : Setting} {top : String} {outer inner : Visit} {before : List Visit}
  {visit : Visit}

def calls (setting : Setting) (visit : Visit) : List Visit :=
  match (enter setting visit.name).run.run visit.state with
  | (.ok (.begun decl builder), _) =>
    ((decl.recipe.perform setting (VisitState.visit setting)).run.run builder).2.visits
  | _ => []

theorem begins_of_mem_calls (inside : inner ∈ outer.calls setting) :
    ∃ decl builder, Begins setting outer.name outer.state decl builder ∧
      inner ∈
        ((decl.recipe.perform setting (VisitState.visit setting)).run.run builder).2.visits := by
  unfold calls at inside
  split at inside
  · rename_i decl builder after entered
    exact ⟨decl, builder, begins_of_enter entered, inside⟩
  · cases inside

/-- The stack at a call is made up of the modules of the calls around it, which are not finished. -/
structure Nested (before : List Visit) (visit : Visit) : Prop where
  stack : visit.state.running = before.map (·.name)
  distinct : visit.state.running.Nodup
  catalogued : visit.state.shared.Catalogued {} visit.state.running

theorem Nested.call (nested : Nested before outer) (inside : inner ∈ outer.calls setting) :
    Nested (before ++ [outer]) inner := by
  obtain ⟨decl, builder, begins, called⟩ := begins_of_mem_calls inside
  have keeps : builder.Keeps (Elaboration.Catalogued {} (outer.state.running ++ [outer.name]))
      (outer.state.running ++ [outer.name]) :=
    ⟨begins.catalogued nested.catalogued, begins.stack, begins.silent ▸ nofun⟩
  have performs : Maintains _ (decl.recipe.perform setting (VisitState.visit setting)) :=
    Performing.maintains_perform Elaboration.tableInvariant_catalogued
      (maintains_visit setting (outer.state.running ++ [outer.name])) decl.recipe
  obtain ⟨catalogued, stack⟩ := (performs.after keeps).visits inner called
  refine ⟨?_, ?_, stack.symm ▸ catalogued⟩
  · rw [stack, nested.stack, List.map_append]
    rfl
  · rw [stack]
    refine List.nodup_append.2 ⟨nested.distinct, List.pairwise_singleton _ _, ?_⟩
    intro other inside last member same
    rw [List.mem_singleton.1 member] at same
    exact begins.apart (same ▸ inside)

theorem nested_of_chain (chain : (before ++ [visit]).IsChain fun outer inner =>
    inner ∈ outer.calls setting) (first : (before ++ [visit]).head? = some ⟨top, {}⟩) :
    Nested before visit := by
  induction before using List.reverseRecOn generalizing visit with
  | nil =>
      cases first
      exact ⟨rfl, List.nodup_nil, Elaboration.catalogued_empty⟩
  | append_singleton before outer induction =>
      rw [List.append_assoc, List.singleton_append, List.isChain_split] at chain
      have inside := List.isChain_pair.1 chain.2
      refine (induction chain.1 ?_).call inside
      rwa [List.head?_append_of_ne_nil _ (by simp)] at first

/-- The call is refused as recursive before any recipe is run. -/
def Raises (setting : Setting) (visit : Visit) (cycle : List String) : Prop :=
  ((enter setting visit.name).run.run visit.state).1 = .error (.recursiveInstantiation cycle)

theorem Nested.run_enter (nested : Nested before visit)
    (inside : visit.name ∈ visit.state.running) :
    (enter setting visit.name).run.run visit.state = (.error (.recursiveInstantiation
      (visit.state.running.dropWhile (· ≠ visit.name) ++ [visit.name])), visit.state) := by
  obtain ⟨-, titles, listed⟩ := nested.catalogued
  have fresh : visit.state.shared.finished? visit.name = none := by
    refine Option.eq_none_iff_forall_ne_some.2 fun id found => ?_
    have known := (listed.finished _ id).1 (Elaboration.mem_of_finished? found)
    exact listed.apart _ (List.mem_of_getElem? known) inside
  rw [VisitState.run_enter, fresh]
  cases ended : visit.state.running.dropWhile (· ≠ visit.name) with
  | nil => exact absurd inside (Elaboration.not_mem_of_dropWhile ended)
  | cons first inner => rfl

theorem mem_of_raises {cycle : List String} (raises : visit.Raises setting cycle) :
    visit.name ∈ visit.state.running := by
  by_contra apart
  have ended : visit.state.running.dropWhile (· ≠ visit.name) = [] := by
    refine List.dropWhile_eq_nil_iff.2 fun other member => decide_eq_true fun same => ?_
    exact apart (same ▸ member)
  unfold Raises at raises
  rw [VisitState.run_enter, ended] at raises
  split at raises
  · cases raises
  dsimp only at raises
  split at raises
  · cases raises
  · rename_i decl _
    have ends := Elaboration.ends_declarePorts_error decl.name decl.ports visit.state.shared
    split at raises
    · rename_i failed
      exact ends.of_run_error failed cycle (Except.error.inj raises)
    · cases raises

theorem Nested.exists_inner (nested : Nested before visit)
    (inside : visit.name ∈ visit.state.running) :
    ∃ front inner, before = front ++ inner ∧
      visit.state.running.dropWhile (· ≠ visit.name) = inner.map (·.name) ∧
      (inner.map (·.name)).head? = some visit.name ∧ (inner.map (·.name)).Nodup := by
  have same : visit.state.running.dropWhile (· ≠ visit.name) =
      (before.dropWhile (·.name ≠ visit.name)).map (·.name) := by
    rw [nested.stack, List.dropWhile_map]
    rfl
  refine ⟨before.takeWhile (·.name ≠ visit.name), before.dropWhile (·.name ≠ visit.name),
    List.takeWhile_append_dropWhile.symm, same, ?_, ?_⟩
  · rw [← same]
    have stops := List.head?_dropWhile_not (· ≠ visit.name) visit.state.running
    cases ended : visit.state.running.dropWhile (· ≠ visit.name) with
    | nil => exact absurd inside (Elaboration.not_mem_of_dropWhile ended)
    | cons first rest =>
        rw [ended] at stops
        exact congrArg some (by simpa using stops)
  · rw [← same]
    exact nested.distinct.sublist (List.dropWhile_sublist _)

/-- An error of a call is raised before a recipe is run, or it is the one the recipe fails with. -/
theorem raised_or_passed_on {error : BuildError}
    (failed : ((VisitState.visit setting visit.name).run.run visit.state).1 = .error error) :
    ((enter setting visit.name).run.run visit.state).1 = .error error ∨
      ∃ decl builder, Begins setting visit.name visit.state decl builder ∧
        ((decl.recipe.perform setting (VisitState.visit setting)).run.run builder).1 =
          .error error := by
  rw [visit_eq, Ends.run_bind] at failed
  cases entered : (enter setting visit.name).run.run visit.state with
  | mk outcome after =>
      rw [entered] at failed
      rcases outcome with known | ⟨id⟩ | ⟨decl, builder⟩
      · exact .inl (congrArg Except.error (Except.error.inj failed))
      · cases failed
      · refine .inr ⟨decl, builder, begins_of_enter entered, ?_⟩
        dsimp only [construct] at failed
        cases performed : (decl.recipe.perform setting (VisitState.visit setting)).run.run
          builder with
        | mk outcome after =>
            rw [performed] at failed
            cases outcome with
            | error other => exact congrArg Except.error (Except.error.inj failed)
            | ok done => cases failed

/-- Of the calls that the elaboration of a top module comes to, just those are refused as recursive
that are made while the recipe of the same module is running. The cycle that is reported goes from
that module through the calls around the refused one back to the module, and meets no other module
twice. Whatever a call comes to, the stack is as before, and no module that was there is changed. -/
theorem calls_are_refused_inside_themselves (setting : Setting) (top : String)
    (chain : (before ++ [visit]).IsChain fun outer inner => inner ∈ outer.calls setting)
    (first : (before ++ [visit]).head? = some ⟨top, {}⟩) :
    let result := (VisitState.visit setting visit.name).run.run visit.state
    result = (onShared (Elaboration.elaborate setting (setting.library.modules.length + 1)
      visit.state.running visit.name)).run.run visit.state ∧
    visit.state.running = before.map (·.name) ∧
    ((∃ cycle, visit.Raises setting cycle) ↔ visit.name ∈ before.map (·.name)) ∧
    (∀ cycle, visit.Raises setting cycle →
      result.1 = .error (.recursiveInstantiation cycle) ∧
      ∃ front inner, before = front ++ inner ∧ cycle = inner.map (·.name) ++ [visit.name] ∧
        (inner.map (·.name)).head? = some visit.name ∧ (inner.map (·.name)).Nodup ∧
        (inner ++ [visit]).IsChain fun outer inner => inner ∈ outer.calls setting) ∧
    (∀ cycle, result.1 = .error (.recursiveInstantiation cycle) →
      visit.Raises setting cycle ∨
      ∃ decl builder, Begins setting visit.name visit.state decl builder ∧
        ((decl.recipe.perform setting (VisitState.visit setting)).run.run builder).1 =
          .error (.recursiveInstantiation cycle)) ∧
    result.2.running = visit.state.running ∧
    visit.state.shared.modules.Grows result.2.shared.modules ∧
    ∀ name id, visit.state.shared.finished? name = some id →
      result.2.shared.finished? name = some id := by
  intro result
  have nested := nested_of_chain chain first
  have elaborates := run_visit_eq_elaborate setting visit.name visit.state
  have retains : visit.state.shared.Retains result.2.shared := by
    dsimp only [result]
    rw [elaborates]
    exact (Elaboration.maintains_retains visit.state.shared _ _ _).after
      ⟨fun _ _ held => held, fun _ inside => inside⟩
  obtain ⟨catalogued, stack⟩ :=
    (maintains_visit setting visit.state.running visit.name).after ⟨nested.catalogued, rfl⟩
  refine ⟨elaborates, nested.stack, ?_, fun cycle raises => ?_, fun cycle => raised_or_passed_on,
    stack, retains.modules, fun name id found => ?_⟩
  · rw [← nested.stack]
    exact ⟨fun ⟨_, raises⟩ => mem_of_raises raises,
      fun inside => ⟨_, congrArg Prod.fst (nested.run_enter inside)⟩⟩
  · have entered : (enter setting visit.name).run.run visit.state = _ :=
      nested.run_enter (mem_of_raises raises)
    obtain ⟨front, inner, split, names, head, distinct⟩ :=
      nested.exists_inner (mem_of_raises raises)
    unfold Raises at raises
    rw [entered] at raises
    cases raises
    refine ⟨?_, front, inner, split, by rw [names], head, distinct, ?_⟩
    · dsimp only [result]
      rw [visit_eq, Ends.run_bind, entered]
    · rw [split, List.append_assoc] at chain
      exact chain.right_of_append
  · exact catalogued.finished?_eq (retains.finished _ (Elaboration.mem_of_finished? found))

/-- Two modules that ask for one another. The inner one catches the refusal. -/
def entwined : Setting where
  library := { modules := [
    { name := "A", recipe := .step (.instantiate "B" ⟨"b", none⟩ []) .done },
    { name := "B", recipe := .attempt (.step (.instantiate "A" ⟨"a", none⟩ []) .done) .done }] }
  preset := .cosim
  capabilities := BackendPreset.cosim.capabilities

theorem entwined_call_is_refused : ∃ outer inner : Visit,
    outer ∈ (⟨"A", {}⟩ : Visit).calls entwined ∧ inner ∈ outer.calls entwined ∧
      inner.name = "A" ∧ inner.Raises entwined ["A", "B", "A"] ∧
      ((VisitState.visit entwined inner.name).run.run inner.state).2.running = ["A", "B"] := by
  have made : (((⟨"A", {}⟩ : Visit).calls entwined).flatMap (·.calls entwined)).map
      (fun visit => (visit.name, visit.state.running)) = [("A", ["A", "B"])] := by decide +kernel
  obtain ⟨inner, inside, same⟩ := List.mem_map.1 (made ▸ List.mem_singleton_self _)
  obtain ⟨outer, called, called'⟩ := List.mem_flatMap.1 inside
  obtain ⟨named, stack⟩ := Prod.mk.inj same
  have chain : ([⟨"A", {}⟩, outer] ++ [inner]).IsChain fun outer inner =>
      inner ∈ Visit.calls entwined outer := .cons_cons called (.cons_cons called' (.singleton _))
  obtain ⟨-, around, refused, cycles, -, kept, -⟩ :=
    calls_are_refused_inside_themselves entwined "A" chain rfl
  rw [stack] at around kept
  obtain ⟨cycle, raises⟩ := refused.2 (by rw [← around, named]; decide)
  obtain ⟨-, front, within, split, rfl, head, -⟩ := cycles cycle raises
  rw [named] at head raises
  have begins : within = [⟨"A", {}⟩, outer] := by
    rcases front with - | ⟨first, - | ⟨second, rest⟩⟩
    · exact split.symm
    · obtain rfl : [outer] = within := (List.cons.inj split).2
      have other : "B" = outer.name := (List.cons.inj (List.cons.inj around).2).1
      have same : outer.name = "A" := Option.some.inj head
      exact absurd (other.trans same) (by decide)
    · obtain ⟨-, none⟩ := List.append_eq_nil_iff.1 (List.cons.inj (List.cons.inj split).2).2.symm
      rw [none] at head
      cases head
  rw [begins, ← around] at raises
  exact ⟨outer, inner, called, called', named, raises, kept⟩

end Visit

end Elastic
