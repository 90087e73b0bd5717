import Elastic.Build.Generate
import Elastic.Designs
import Elastic.Proofs.Build.Steps
import Elastic.Proofs.Build.Invariants
import Mathlib.Data.List.TakeWhile

namespace Elastic

/-! The modules of a generated graph are wired, by way of the recipes that put them together. -/

variable {own : Prop} {setting : Setting} {elaborate : String → Elaborating ModuleId}

namespace Elaboration

variable {services : List Service} {shared : Elaboration}

theorem EndsSound.since {action : Elaborating α} {middle : Elaboration}
    {fact : α → Elaboration → Prop} (endsSound : EndsSound own services action middle fact)
    (grows : shared.Grows middle) :
    Ends action middle
      (fun value after => (after.Sound own services ∧ shared.Grows after) ∧ fact value after)
      fun _ after => after.Sound own services ∧ shared.Grows after :=
  Ends.mono endsSound (fun _ _ ends => ⟨⟨ends.1.1, grows.trans ends.1.2⟩, ends.2⟩)
    fun _ _ ends => ⟨ends.1, grows.trans ends.2⟩

theorem EndsSound.bind {action : Elaborating α} {next : α → Elaborating β}
    {middle : α → Elaboration → Prop} {fact : β → Elaboration → Prop}
    (first : EndsSound own services action shared middle)
    (rest : ∀ value after, after.Sound own services → shared.Grows after → middle value after →
      EndsSound own services (next value) after fact) :
    EndsSound own services (action >>= next) shared fact := by
  refine Ends.bind first ?_ fun _ _ ends => ends
  intro value after facts
  obtain ⟨⟨sound, grows⟩, held⟩ := facts
  exact (rest value after sound grows held).since grows

theorem endsSound_pure {value : α} {fact : α → Elaboration → Prop}
    (sound : shared.Sound own services) (held : fact value shared) :
    EndsSound own services (pure value) shared fact :=
  Ends.pure_iff.2 ⟨⟨sound, .refl _⟩, held⟩

theorem Sound.retable (sound : shared.Sound own services) {types : TyPool}
    (grows : shared.types.Grows types) (names : Names) :
    Sound own services { shared with names := names, types := types } ∧
      shared.Grows { shared with names := names, types := types } := by
  refine ⟨⟨fun id module held => (sound.modules id module held).grow grows (Nat.le_refl _),
    sound.finished, sound.scopes⟩, ⟨grows, fun _ _ held => held, Nat.le_refl _,
    fun _ _ => Nat.le_refl _⟩⟩

theorem endsSound_declarePorts (module : String) (ports : List (String × Ty)) (shared : Elaboration)
    (sound : shared.Sound own services) :
    EndsSound own services (declarePorts module ports) shared fun declared after =>
      ∀ port ∈ declared, port.ty < after.types.size := by
  induction ports generalizing shared with
  | nil => exact endsSound_pure sound nofun
  | cons port rest induction =>
      obtain ⟨name, ty⟩ := port
      unfold declarePorts
      refine Ends.ite (fun _ => Ends.throw_bind ⟨sound, .refl _⟩) fun _ => ?_
      have retabled := sound.retable (shared.types.grows_intern ty) (shared.names.intern name).2
      have interned : (shared.types.intern ty).1 < (shared.types.intern ty).2.size :=
        TyPool.lt_size_of_get? (shared.types.get?_intern ty)
      refine Ends.bind_iff.2 (Ends.modifyGet_iff.2 ?_)
      refine EndsSound.since ?_ retabled.2
      refine (induction _ retabled.1).bind fun declared after sound grows known => ?_
      refine endsSound_pure sound ?_
      intro port member
      rcases List.mem_cons.1 member with rfl | inside
      · exact Nat.lt_of_lt_of_le interned grows.types.size_le
      · exact known port inside

end Elaboration

theorem Module.wired_empty {services : List Service} {types : TyPool} {limit : ModuleId}
    (id : ModuleId) (name : Ident) {ports : List Port} (metadata : Option Metadata)
    (known : ∀ port ∈ ports, port.ty < types.size) :
    Module.Wired own services types limit
      { id := id, name := name, ports := ports, metadata := metadata } := by
  have absent {α : Type} (id : Nat) (item : α) : ({} : Arena α).get? id ≠ some item := by
    rw [Arena.get?_empty]
    nofun
  refine ⟨⟨known, ?_, ?_, ?_, ?_, nofun, nofun⟩, ⟨?_, ?_, ?_⟩, ⟨?_, ?_⟩, fun _ =>
    ⟨?_, ?_, nofun, nofun⟩⟩
  · exact fun id expr held => absurd held (absent id expr)
  · exact fun id channel held => absurd held (absent id channel)
  · exact fun id bundle held => absurd held (absent id bundle)
  · exact fun id instance' held => absurd held (absent id instance')
  · exact fun bundle role id channel held => absurd held (absent id channel)
  · exact fun bundle role id channel held => absurd held (absent id channel)
  · intro bundle role slot side id held
    obtain ⟨known, present, -⟩ := Option.bind_eq_some_iff.1 held
    exact absurd present (absent bundle known)
  · exact fun id bundle side instance' held => absurd held (absent id bundle)
  · exact fun id bundle role slot side held => absurd held (absent id bundle)
  · exact fun id expr held => absurd held (absent id expr)
  · exact fun id channel held => absurd held (absent id channel)

theorem Module.Wired.numbered {services : List Service} {types : TyPool} {limit : ModuleId}
    {module : Module} (wired : module.Wired own services types limit) (id : ModuleId) :
    Module.Wired own services types limit { module with id := id } :=
  ⟨{ wired.placed with }, wired.linked, ⟨wired.served.ends, wired.served.filled⟩,
    fun values => { wired.ordered values with }⟩

namespace Assembly

def begin (name : String) (empty : Module) (shared : Elaboration) : Assembly where
  builder := {
    shared := { shared with nextScope := shared.nextScope + 1 }
    name := name
    scope := shared.nextScope
    module := empty
    appIds := [] }

theorem kept_begin {services : List Service} {shared : Elaboration} {empty : Module}
    (sound : shared.Sound own services) (name : String)
    (wired : empty.Wired own services shared.types shared.modules.size) :
    (begin name empty shared).Kept own services shared [] := by
  have tokens : (begin name empty shared).tokens [] = shared.holdings.tokens := rfl
  refine ⟨⟨wired, sound.modules, sound.finished, ?_⟩, rfl, .refl _, fun _ _ held => held,
    Nat.lt_succ_self _, ?_, ?_, ?_, ?_, fun _ => nofun⟩
  · exact fun token member => Nat.lt_succ_of_lt (sound.scopes token member)
  · rw [tokens]
    exact fun token member => Nat.lt_succ_of_lt (sound.scopes token member)
  · rw [tokens]
    exact fun token member scope => absurd scope (Nat.ne_of_lt (sound.scopes token member))
  · rw [tokens]
    intro token scope
    have absent : token ∉ shared.holdings.tokens := fun member =>
      absurd scope (Nat.ne_of_lt (sound.scopes token member))
    rw [List.count_eq_zero_of_not_mem absent]
    exact Nat.zero_le 1
  · rw [tokens]
    exact fun _ _ => Nat.le_refl _

theorem Kept.grows {services : List Service} {start : Elaboration} {assembly : Assembly}
    {hand : List Token} (kept : assembly.Kept own services start hand) :
    start.Grows assembly.builder.shared := by
  refine ⟨kept.types, kept.modules, Nat.le_of_lt kept.later, fun token earlier => ?_⟩
  have foreign := kept.foreign token earlier
  simp only [tokens, List.count_append] at foreign
  omega

end Assembly

namespace Elaboration

def finish (shared : Elaboration) (name : String) (module : Module) : Elaboration := { shared with
  modules := shared.modules.push { module with id := shared.modules.size }
  finished := (name, shared.modules.size) :: shared.finished }

theorem ends_constructModule {shared : Elaboration} {decl : ModuleDecl}
    {declared : List Port → Elaboration → Prop} {good : ModuleId → Elaboration → Prop}
    {bad : BuildError → Elaboration → Prop}
    (declares : Ends (declarePorts decl.name decl.ports) shared declared bad)
    (runs : ∀ ports first, declared ports first →
      Ends (decl.recipe.run setting elaborate)
        (Assembly.begin decl.name
          { id := 0, name := (first.names.intern decl.name).1, ports := ports,
            metadata := decl.metadata }
          { first with names := (first.names.intern decl.name).2 })
        (fun _ assembly => good assembly.builder.shared.modules.size
          (assembly.builder.shared.finish decl.name assembly.builder.module))
        fun error assembly => bad error assembly.builder.shared) :
    Ends (constructModule setting elaborate decl) shared good bad := by
  unfold constructModule
  refine Ends.bind declares (fun ports first held => ?_) fun _ _ failed => failed
  refine Ends.bind_iff.2 (Ends.modifyGet_iff.2 (Ends.get_bind ?_))
  rcases (runs ports first held).cases_run with
    ⟨done, assembly, ran, holds⟩ | ⟨error, assembly, ran, fails⟩
  · have assembled : assemble setting elaborate decl
        { id := 0, name := (first.names.intern decl.name).1, ports := ports,
          metadata := decl.metadata }
        { first with names := (first.names.intern decl.name).2 } = (.ok done, assembly) := ran
    dsimp only at assembled ⊢
    rw [assembled]
    exact Ends.bind_iff.2 (Ends.set_iff.2 (Ends.modifyGet_iff.2 holds))
  · have assembled : assemble setting elaborate decl
        { id := 0, name := (first.names.intern decl.name).1, ports := ports,
          metadata := decl.metadata }
        { first with names := (first.names.intern decl.name).2 } = (.error error, assembly) := ran
    dsimp only at assembled ⊢
    rw [assembled]
    exact Ends.bind_iff.2 (Ends.set_iff.2 (Ends.throw_iff.2 fails))

theorem mem_of_finished? {shared : Elaboration} {name : String} {id : ModuleId}
    (found : shared.finished? name = some id) : (name, id) ∈ shared.finished := by
  obtain ⟨⟨title, number⟩, known, rfl⟩ := Option.map_eq_some_iff.1 found
  have same := List.find?_some known
  obtain rfl : title = name := of_decide_eq_true same
  exact List.mem_of_find?_eq_some known

theorem not_mem_of_dropWhile {running : List String} {name : String}
    (ended : running.dropWhile (· ≠ name) = []) : name ∉ running :=
  fun inside => of_decide_eq_true (List.dropWhile_eq_nil_iff.1 ended name inside) rfl

theorem ends_open {shared : Elaboration} {fuel : Nat} {running : List String} {name : String}
    {good : ModuleId → Elaboration → Prop} {bad : BuildError → Elaboration → Prop}
    (finished : ∀ id, (name, id) ∈ shared.finished → good id shared)
    (stops : ∀ error : BuildError, ¬ error.Stale → bad error shared)
    (constructs : ∀ inner, fuel = inner + 1 → ∀ decl,
      setting.library.module? name = some decl → shared.finished? name = none → name ∉ running →
      Ends (constructModule setting (Elaboration.elaborate setting inner (running ++ [name])) decl)
        shared good bad) :
    Ends (Elaboration.elaborate setting fuel running name) shared good bad := by
  unfold Elaboration.elaborate
  refine Ends.get_bind ?_
  split
  · rename_i id found
    exact Ends.pure_iff.2 (finished id (mem_of_finished? found))
  · rename_i fresh
    split
    · exact Ends.throw_iff.2 (stops _ id)
    · rename_i ended
      split
      · exact Ends.throw_iff.2 (stops _ id)
      · rename_i decl declared
        cases fuel with
        | zero => exact Ends.throw_iff.2 (stops _ fun stale => by simp [BuildError.Stale] at stale)
        | succ inner =>
            exact constructs inner rfl decl declared fresh (not_mem_of_dropWhile ended)

/-- What holds of finished modules, and of those that are constructed while it holds of the ones
inside them, holds of all that are elaborated. -/
theorem ends_elaborate (before : Elaboration → Prop)
    (good : Elaboration → ModuleId → Elaboration → Prop)
    (bad : Elaboration → BuildError → Elaboration → Prop)
    (finished : ∀ shared, before shared → ∀ entry ∈ shared.finished, good shared entry.2 shared)
    (stops : ∀ shared, before shared → ∀ error : BuildError, ¬ error.Stale →
      bad shared error shared)
    (constructs : ∀ fuel running, (∀ name shared, before shared →
        Ends (Elaboration.elaborate setting fuel running name) shared (good shared) (bad shared)) →
      ∀ decl ∈ setting.library.modules, ∀ shared, before shared →
        Ends (constructModule setting (Elaboration.elaborate setting fuel running) decl) shared
          (good shared) (bad shared))
    (fuel : Nat) (running : List String) (name : String) (shared : Elaboration)
    (holds : before shared) :
    Ends (Elaboration.elaborate setting fuel running name) shared (good shared) (bad shared) := by
  induction fuel generalizing running name shared with
  | zero => exact ends_open (fun _ => finished shared holds _) (stops shared holds) nofun
  | succ fuel induction =>
      refine ends_open (fun _ => finished shared holds _) (stops shared holds)
        fun inner same decl declared _ _ => ?_
      cases same
      exact constructs fuel _ (induction _) decl (List.mem_of_find?_eq_some declared) shared holds

theorem Sound.finish {services : List Service} {shared : Elaboration}
    (sound : shared.Sound own services) (name : String) {module : Module}
    (wired : module.Wired own services shared.types shared.modules.size) :
    (shared.finish name module).Sound own services ∧ shared.Grows (shared.finish name module) := by
  refine ⟨⟨?_, ?_, sound.scopes⟩, ⟨.refl _, Arena.grows_push _ _, Nat.le_refl _,
    fun _ _ => Nat.le_refl _⟩⟩
  · intro id held known
    rw [Elaboration.finish, Arena.get?_push] at known
    split at known
    · rename_i last
      cases known
      rw [last]
      exact wired.numbered _
    · exact sound.modules id held known
  · intro entry member
    rw [Elaboration.finish, Arena.size_push]
    rcases List.mem_cons.1 member with rfl | inside
    · exact Nat.lt_succ_self _
    · exact Nat.lt_succ_of_lt (sound.finished entry inside)

theorem endsSound_constructModule (elaborates : Construction.Elaborates own setting elaborate)
    {shared : Elaboration} (decl : ModuleDecl) (sound : shared.Sound own setting.library.services)
    (owned : own → decl.recipe.borrows = false) :
    EndsSound own setting.library.services (constructModule setting elaborate decl) shared
      fun id after => id < after.modules.size := by
  refine ends_constructModule (endsSound_declarePorts decl.name decl.ports shared sound) ?_
  intro ports first facts
  obtain ⟨⟨sound, grows⟩, known⟩ := facts
  obtain ⟨sound, named⟩ := sound.retable (.refl first.types) (first.names.intern decl.name).2
  have begins := Assembly.kept_begin sound decl.name (Module.wired_empty 0
    (first.names.intern decl.name).1 decl.metadata known)
  refine Ends.mono (decl.recipe.keeps elaborates _ begins owned) ?_ ?_
  · intro _ after kept
    obtain ⟨sound, adds⟩ := kept.sound.shared.finish decl.name kept.sound.module
    exact ⟨⟨sound, ((grows.trans named).trans kept.grows).trans adds⟩,
      Nat.lt_of_lt_of_eq (Nat.lt_succ_self _) (Arena.size_push _ _).symm⟩
  · exact fun _ after kept => ⟨kept.sound.shared, (grows.trans named).trans kept.grows⟩

theorem elaborates_elaborate
    (owned : own → ∀ decl ∈ setting.library.modules, decl.recipe.borrows = false) (fuel : Nat)
    (running : List String) :
    Construction.Elaborates own setting (Elaboration.elaborate setting fuel running) :=
  ends_elaborate _ _ _
    (fun shared sound entry inside => ⟨⟨sound, .refl shared⟩, sound.finished entry inside⟩)
    (fun shared sound _ _ => ⟨sound, .refl shared⟩)
    (fun _ _ elaborates decl member _ sound =>
      endsSound_constructModule elaborates decl sound fun values => owned values decl member)
    fuel running

end Elaboration

/-- No recipe of the library takes what another one has lent, so that each uses its own values and
handles only. -/
def Library.Closed (library : Library) : Prop :=
  ∀ decl ∈ library.modules, decl.recipe.borrows = false

theorem Elaboration.sound_empty {services : List Service} :
    ({} : Elaboration).Sound own services := by
  refine ⟨fun id module held => ?_, nofun, nofun⟩
  rw [Arena.get?_empty] at held
  cases held

theorem elaborated_of_generate {top : String} {graph : Graph}
    {good : ModuleId → Elaboration → Prop} {bad : BuildError → Elaboration → Prop}
    (ends : Ends (Elaboration.elaborateTop setting top) {} good bad)
    (generated : (generate setting top).outcome = .ok graph) :
    ∃ id shared, good id shared ∧ (generate setting top).names = shared.names ∧
      graph = Graph.unfold shared.modules shared.types setting.library.services id top := by
  have run : generate setting top =
      { outcome := ((Elaboration.elaborateTop setting top).run.run {}).1.map fun id =>
          Graph.unfold ((Elaboration.elaborateTop setting top).run.run {}).2.modules
            ((Elaboration.elaborateTop setting top).run.run {}).2.types setting.library.services id
            top
        names := ((Elaboration.elaborateTop setting top).run.run {}).2.names
        notes := ((Elaboration.elaborateTop setting top).run.run {}).2.notes } := rfl
  unfold Ends at ends
  rw [run] at generated ⊢
  split at ends
  · rename_i id shared equal
    rw [equal] at generated ⊢
    cases generated
    exact ⟨id, shared, ends, rfl, rfl⟩
  · rename_i error shared equal
    rw [equal] at generated
    cases generated

theorem services_of_generate {top : String} {graph : Graph}
    (generated : (generate setting top).outcome = .ok graph) :
    graph.services = setting.library.services := by
  obtain ⟨id, shared, -, -, rfl⟩ := elaborated_of_generate (.any _ _) generated
  rfl

/-- A generated graph is unfolded from one of its modules, and all of them are wired. -/
theorem unfolded_of_generate (own : Prop) {top : String} {graph : Graph}
    (generated : (generate setting top).outcome = .ok graph)
    (owned : own → setting.library.Closed) :
    (∃ id, id < graph.modules.size ∧
      graph = Graph.unfold graph.modules graph.types graph.services id top) ∧
    ∀ id module, graph.modules.get? id = some module →
      module.Wired own graph.services graph.types id := by
  have ends := Elaboration.elaborates_elaborate owned (setting.library.modules.length + 1) [] top {}
    Elaboration.sound_empty
  obtain ⟨id, shared, facts, -, rfl⟩ := elaborated_of_generate ends generated
  exact ⟨⟨id, facts.2, rfl⟩, facts.1.1.modules⟩

theorem wired_of_generate (own : Prop) {top : String} {graph : Graph}
    (generated : (generate setting top).outcome = .ok graph)
    (owned : own → setting.library.Closed) :
    ∀ id module, graph.modules.get? id = some module →
      module.Wired own graph.services graph.types id :=
  (unfolded_of_generate own generated owned).2

/-- Every module of a generated graph names existing parts only and earlier operands only; its
channels and the slots of its bundles name one another, and so do its bundles and its service
instances. -/
theorem generated_modules_are_wired {top : String} {graph : Graph}
    (closed : setting.library.Closed) (generated : (generate setting top).outcome = .ok graph)
    {id : ModuleId} {module : Module} (held : graph.modules.get? id = some module) :
    module.Placed graph.services graph.types id ∧ module.Ordered ∧
      Linked module.channels module.bundles.slot? ∧ module.Served := by
  have wired := wired_of_generate True generated (fun _ => closed) id module held
  exact ⟨wired.placed, wired.ordered trivial, wired.linked, wired.served⟩

theorem eq_ok_of_toOption {outcome : Except ε α} {value : α}
    (held : outcome.toOption = some value) : outcome = .ok value := by
  cases outcome with
  | error error => cases held
  | ok known => exact congrArg _ (Option.some.inj held)

def MemoryDesign.hosted : Setting :=
  ⟨library true, .cosim, BackendPreset.cosim.capabilities⟩

theorem memory_writer_is_wired :
    MemoryDesign.hosted.library.Closed ∧
      ∃ graph module, (generate MemoryDesign.hosted "Top").outcome = .ok graph ∧
        graph.modules.get? 1 = some module ∧
        module.Placed graph.services graph.types 1 ∧ module.Ordered ∧
        Linked module.channels module.bundles.slot? ∧ module.Served := by
  have closed : MemoryDesign.hosted.library.Closed := by
    unfold Library.Closed
    decide
  have present : ((generate MemoryDesign.hosted "Top").outcome.toOption.bind fun graph =>
      graph.modules.get? 1).isSome = true := by
    decide +kernel
  obtain ⟨module, found⟩ := Option.isSome_iff_exists.1 present
  obtain ⟨graph, returned, held⟩ := Option.bind_eq_some_iff.1 found
  cases outcome : (generate MemoryDesign.hosted "Top").outcome with
  | error error =>
      rw [outcome] at returned
      cases returned
  | ok generated =>
      rw [outcome] at returned
      cases returned
      exact ⟨closed, graph, module, rfl, held, generated_modules_are_wired closed outcome held⟩

end Elastic
