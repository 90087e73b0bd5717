import Elastic.Proofs.Build.Generated
import Elastic.Proofs.Build.Inference

namespace Elastic

/-! The modules of a generated graph are typed if no recipe takes what another one has lent, by way
of the recipes that put them together. -/

def Holding.Typed (types : TyPool) (module : Module) : Holding → Prop
  | .value held => held.Typed types module
  | .channel _ | .bundle _ | .roles _ => True

theorem Holding.Typed.grow {types later : TyPool} {before after : Module} {held : Holding}
    (typed : held.Typed types before) (grows : types.Grows later)
    (keeps : before.Extends after) : held.Typed later after := by
  cases held with
  | value value => exact Value.Typed.grow typed grows keeps
  | channel handle | bundle handle | roles held => trivial

structure Assembly.Typed (assembly : Assembly) : Prop where
  builder : assembly.builder.Typed
  values : ∀ entry ∈ assembly.holdings,
    entry.2.Typed assembly.builder.shared.types assembly.builder.module

theorem Assembly.Typed.advance {assembly : Assembly} (typed : assembly.Typed) {builder : Builder}
    (retains : assembly.builder.Retains builder) : Assembly.Typed
    { assembly with builder := builder } :=
  ⟨retains.typed, fun entry member =>
    (typed.values entry member).grow retains.types retains.module⟩

theorem Assembly.Typed.holding {assembly : Assembly} (typed : assembly.Typed) {hand : List Holding}
    (given : ∀ held ∈ hand, held.Typed assembly.builder.shared.types assembly.builder.module) :
    ∀ held ∈ hand ++ assembly.holdings.map (·.2),
      held.Typed assembly.builder.shared.types assembly.builder.module := by
  intro held member
  rcases List.mem_append.1 member with inHand | stored
  · exact given held inHand
  · obtain ⟨entry, inside, rfl⟩ := List.mem_map.1 stored
    exact typed.values entry inside

theorem Holding.typed_of_value {types : TyPool} {module : Module} (held : Holding)
    (typed : ∀ value, held = .value value → Holding.Typed types module (.value value)) :
    held.Typed types module := by
  cases held with
  | value value => exact typed value rfl
  | channel handle | bundle handle | roles held => trivial

variable {setting : Setting} {start : Elaboration} {elaborate : String → Elaborating ModuleId}

namespace Call

open Construction

variable {builder : Builder}

abbrev Fits (held : List Holding) (builder : Builder) : Prop :=
  ∀ holding ∈ held, holding.Typed builder.shared.types builder.module

theorem fits_pair {one other : Holding} :
    Fits [one, other] builder ↔ one.Typed builder.shared.types builder.module ∧
      other.Typed builder.shared.types builder.module := by
  rw [Fits, List.forall_mem_cons, List.forall_mem_singleton]

theorem endsTyped_results {operation : Construction α} {results : α → List Holding}
    {fact : α → Builder → Prop} (endsTyped : EndsTyped operation builder fact)
    (fits : ∀ value after, fact value after → Fits (results value) after) :
    EndsTyped (operation >>= fun value => pure (results value)) builder Fits :=
  Ends.bind endsTyped (fun value after ends => Ends.pure_iff.2 ⟨ends.1, fits value after ends.2⟩)
    fun _ _ retains => retains

theorem endsTyped_value {operation : Construction Value}
    (endsTyped : EndsTyped operation builder Construction.Gives) :
    EndsTyped (operation >>= fun value => pure [.value value]) builder Fits :=
  endsTyped_results endsTyped fun _ _ gives => List.forall_mem_singleton.2 gives

theorem endsTyped_unit {operation : Construction PUnit}
    (endsTyped : EndsTyped operation builder fun _ _ => True) : EndsTyped
    (operation >>= fun _ => pure []) builder Fits :=
  endsTyped_results endsTyped fun _ _ _ _ member => absurd member List.not_mem_nil

theorem endsTyped (elaborates : Elaborates True setting elaborate)
    (infers : Infers setting elaborate) (sound : builder.Sound True setting.library.services)
    (typed : builder.Typed) (call : Call) (owns : Owns call.given builder)
    (given : Fits call.given builder) :
    EndsTyped (call.run setting elaborate) builder Fits := by
  cases call with
  | port name => exact endsTyped_value (endsTyped_port typed sound name)
  | constant ty value => exact endsTyped_value (endsTyped_constant typed ty value)
  | bool value => exact endsTyped_value (endsTyped_bool typed value)
  | struct ty fields =>
      exact endsTyped_value (endsTyped_struct typed ty fields fun field member =>
        given (.value field.2) (List.mem_map_of_mem member))
  | field base name =>
      exact endsTyped_value
        (endsTyped_field typed base name (given (.value base) List.mem_cons_self))
  | and first second =>
      obtain ⟨one, other⟩ := fits_pair.1 given
      exact endsTyped_value (endsTyped_gate typed .and "and" .and one other)
  | or first second =>
      obtain ⟨one, other⟩ := fits_pair.1 given
      exact endsTyped_value (endsTyped_gate typed .or "or" .or one other)
  | not operand =>
      exact endsTyped_value (endsTyped_not typed (given (.value operand) List.mem_cons_self))
  | wrap payload data valid =>
      obtain ⟨carried, offered⟩ := fits_pair.1 given
      exact endsTyped_results (endsTyped_wrap typed payload carried offered)
        fun _ _ gives => fits_pair.2 ⟨trivial, gives⟩
  | unwrap channel ready =>
      have known : channel.scope = builder.scope → builder.module.Knows (.channel channel) :=
        owns.known (.channel channel) List.mem_cons_self
      exact endsTyped_results (endsTyped_unwrap typed sound channel known (fits_pair.1 given).2)
        fun _ _ gives => fits_pair.2 gives
  | pack ty channels =>
      exact endsTyped_results (endsTyped_pack typed ty channels)
        fun _ _ _ => fits_pair.2 ⟨trivial, trivial⟩
  | unpack handle channels =>
      exact endsTyped_results (endsTyped_unpack typed handle channels)
        fun _ _ _ => List.forall_mem_singleton.2 trivial
  | call service operation handle appId =>
      exact endsTyped_unit (endsTyped_call typed service operation handle appId)
  | request service operation appId =>
      exact endsTyped_results (endsTyped_request typed service operation appId)
        fun _ _ _ => List.forall_mem_singleton.2 trivial
  | builtin service appId tag results inputs =>
      exact endsTyped_results (endsTyped_builtin typed service appId tag results inputs)
        fun _ _ gives => List.forall_mem_map.2 gives
  | instantiate child appId connections =>
      exact endsTyped_unit
        (endsTyped_instantiate elaborates infers sound typed child appId connections
          fun connection member => given (.value connection.2) (List.mem_map_of_mem member))

end Call

theorem stepInvariant_typed (elaborates : Construction.Elaborates True setting elaborate)
    (infers : Construction.Infers setting elaborate) (start : Elaboration) :
    StepInvariant True setting elaborate
      (fun hand assembly => assembly.Handles True setting.library.services start hand ∧
        assembly.Typed ∧ Call.Fits hand assembly.builder) fun _ => True where
  move {hand hand' assembly} holdings lent both fewer values anywhere := by
    obtain ⟨handles, typed, given⟩ := both
    have fits {held : Holding} (stands : ∀ value, held = .value value →
        .value value ∈ hand' ++ holdings.map (·.2)) :=
      held.typed_of_value fun value same =>
        typed.holding given _ (values trivial value (stands value same))
    refine ⟨(stepInvariant_kept elaborates start).move holdings lent handles fewer values anywhere,
      ⟨⟨typed.builder.module, typed.builder.finished⟩, fun entry member =>
        fits fun value same => ?_⟩,
      fun held member => fits fun value same => ?_⟩
    · exact List.mem_append_right _ (List.mem_map.2 ⟨entry, member, same⟩)
    · exact List.mem_append_left _ (same ▸ member)
  note note both := by
    obtain ⟨handles, typed, given⟩ := both
    exact ⟨(stepInvariant_kept elaborates start).note note handles,
      ⟨⟨typed.builder.module, typed.builder.finished⟩, typed.values⟩, given⟩
  call call both := by
    obtain ⟨handles, typed, given⟩ := both
    have endsTyped := call.endsTyped elaborates infers handles.1.sound typed.builder handles.1.owns
      fun held member => given held (List.mem_append_left _ member)
    refine (((stepInvariant_kept elaborates start).call call handles).and endsTyped).mono ?_ ?_
    · intro results after ends
      obtain ⟨handles, retains, gives⟩ := ends
      refine ⟨handles, typed.advance retains, fun held member => ?_⟩
      rcases List.mem_append.1 member with result | before
      · exact gives held result
      · exact (given held (List.mem_append_right _ before)).grow retains.types retains.module
    · intro error after ends
      obtain ⟨⟨handles, -⟩, retains⟩ := ends
      exact ⟨⟨handles, typed.advance retains, nofun⟩, trivial⟩
  nothing _ := trivial
  role _ _ := trivial

namespace Recipe

theorem leaves (elaborates : Construction.Elaborates True setting elaborate)
    (infers : Construction.Infers setting elaborate) (recipe : Recipe) (assembly : Assembly)
    (kept : assembly.Kept True setting.library.services start []) (typed : assembly.Typed)
    (owned : recipe.borrows = false) :
    Ends (recipe.run setting elaborate) assembly (fun _ after => after.Typed)
      fun _ after => after.Typed :=
  ((stepInvariant_typed elaborates infers start).recipe recipe (fun _ => owned) assembly
    ⟨⟨kept, fun _ => nofun⟩, typed, nofun⟩).mono (fun _ _ ends => ends.2.1)
      fun _ _ ends => ends.1.2.1

end Recipe

namespace Elaboration

variable {shared : Elaboration}

theorem Typed.retable (typed : shared.Typed) {types : TyPool} (grows : shared.types.Grows types)
    (names : Names) : Typed { shared with names := names, types := types } :=
  fun id module held => (typed id module held).grow grows fun _ _ held => held

theorem typed_declarePorts (module : String) (ports : List (String × Ty)) :
    Maintains Typed (declarePorts module ports) := by
  induction ports with
  | nil => exact .pure _
  | cons port rest induction =>
      refine .ite (.throw_bind _) (.bind (.modifyGet fun shared typed => ?_) fun _ =>
        induction.bind fun _ => .pure _)
      exact typed.retable (shared.types.grows_intern _) _

theorem Typed.finish (typed : shared.Typed) (name : String) {module : Module}
    (fits : module.Typed shared.types shared.modules) : (shared.finish name module).Typed := by
  intro id held known
  have grows := Arena.grows_push shared.modules { module with id := shared.modules.size }
  rw [Elaboration.finish, Arena.get?_push] at known
  split at known
  · cases known
    exact (fits.numbered _).grow (.refl _) grows
  · exact (typed id held known).grow (.refl _) grows

theorem typed_constructModule (elaborates : Construction.Elaborates True setting elaborate)
    (infers : Construction.Infers setting elaborate) (decl : ModuleDecl)
    (sound : shared.Sound True setting.library.services) (typed : shared.Typed)
    (owned : decl.recipe.borrows = false) :
    Ends (constructModule setting elaborate decl) shared (fun _ after => after.Typed)
      fun _ after => after.Typed := by
  refine ends_constructModule (((endsSound_declarePorts decl.name decl.ports shared sound).and
    (typed_declarePorts decl.name decl.ports shared typed)).mono (fun _ _ ends => ends)
      fun _ _ ends => ends.2) ?_
  intro ports first facts
  obtain ⟨⟨⟨sound, -⟩, known⟩, typed⟩ := facts
  obtain ⟨sound, -⟩ := sound.retable (.refl first.types) (first.names.intern decl.name).2
  have typed := typed.retable (.refl first.types) (first.names.intern decl.name).2
  have begins := Assembly.kept_begin sound decl.name (Module.wired_empty 0
    (first.names.intern decl.name).1 decl.metadata known)
  refine (decl.recipe.leaves elaborates infers _ begins
    ⟨⟨Module.typed_empty _ _ _ _, typed⟩, nofun⟩ owned).mono ?_ ?_
  · exact fun _ after typed => typed.builder.finished.finish decl.name typed.builder.module
  · exact fun _ after typed => typed.builder.finished

theorem infers_elaborate (closed : setting.library.Closed) (fuel : Nat) (running : List String) :
    Construction.Infers setting (Elaboration.elaborate setting fuel running) := by
  intro name shared sound typed
  refine ends_elaborate
    (fun shared => shared.Sound True setting.library.services ∧ shared.Typed)
    (fun _ _ after => after.Typed) (fun _ _ after => after.Typed) ?_ ?_ ?_ fuel running name shared
    ⟨sound, typed⟩
  · exact fun _ both _ _ => both.2
  · exact fun _ both _ _ => both.2
  · intro fuel running infers decl member shared both
    exact typed_constructModule (elaborates_elaborate (fun _ => closed) fuel running)
      (fun name shared sound typed => infers name shared ⟨sound, typed⟩) decl both.1 both.2
      (closed decl member)

end Elaboration

theorem typed_of_generate {top : String} {graph : Graph} (closed : setting.library.Closed)
    (generated : (generate setting top).outcome = .ok graph) :
    ∀ id module, graph.modules.get? id = some module →
      module.Typed graph.types graph.modules := by
  have ends := Elaboration.infers_elaborate closed (setting.library.modules.length + 1) [] top {}
    Elaboration.sound_empty fun id module held => by
      rw [Arena.get?_empty] at held
      cases held
  obtain ⟨id, shared, typed, -, rfl⟩ := elaborated_of_generate ends generated
  exact typed

end Elastic
