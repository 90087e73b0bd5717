import Elastic.Proofs.Sim.Safety

namespace Elastic

/-! Values conform to their types. In a design whose types of ports, payloads and words hold no
channels and no bundles, all that a simulation makes up, evaluates, stores or queues has the shape
of its type and fits the widths there. -/

namespace Ty

mutual
/-- Whether a type has no channel and no bundle in it, at any depth. -/
def isFlat : Ty → Bool
  | .clock | .bits _ => true
  | .struct fields => flatFields fields
  | .channel _ | .bundle _ => false
termination_by structural ty => ty

def flatFields : List (String × Ty) → Bool
  | [] => true
  | (_, ty) :: rest => isFlat ty && flatFields rest
termination_by structural fields => fields
end

end Ty

namespace SimValue

theorem conformFields_iff {values : List SimValue} {decls : List (String × Ty)} :
    conformFields values decls = true ↔
      List.Forall₂ (fun value decl => value.conforms decl.2 = true) values decls := by
  induction values generalizing decls with
  | nil => cases decls <;> simp [conformFields]
  | cons value values induction =>
      cases decls with
      | nil => simp [conformFields]
      | cons decl decls => simp [conformFields, induction]

mutual
theorem conforms_zero : (ty : Ty) → ty.isFlat = true → (zero ty).conforms ty = true
  | .clock, _ => rfl
  | .bits width, _ => fitsWidth_zero width
  | .struct decls, flat => conformFields_zero decls flat
  | .channel _, flat | .bundle _, flat => nomatch flat
termination_by structural ty => ty

theorem conformFields_zero : (decls : List (String × Ty)) → Ty.flatFields decls = true →
    conformFields (zeroFields decls) decls = true
  | [], _ => rfl
  | (_, ty) :: decls, flat => by
    obtain ⟨first, rest⟩ := Bool.and_eq_true_iff.1 flat
    exact Bool.and_eq_true_iff.2 ⟨conforms_zero ty first, conformFields_zero decls rest⟩
termination_by structural decls => decls
end

end SimValue

def Denotation.exact : Denotation where
  fits value ty := value.conforms ty = true
  plain ty := ty.isFlat = true
  word fits := fits
  bits {value _} fits := by
    cases value with
    | bits word => exact ⟨word, rfl⟩
    | struct values => cases fits
  struct := SimValue.conformFields_iff
  fields {value _} fits := by
    cases value with
    | bits word => cases fits
    | struct values => exact ⟨values, rfl⟩
  conforming := id
  zero := SimValue.conforms_zero _

def Module.isFlat (types : TyPool) (module : Module) : Bool :=
  module.ports.all (fun port => (types.get port.ty).isFlat) &&
    module.channels.toList.all (fun channel => (types.get channel.payload).isFlat) &&
    module.bundles.toList.all fun bundle =>
      bundle.roles.all fun slot => (types.get slot.payload).isFlat

/-- Whether no port, payload or memory word of a design has a channel or a bundle in its type. -/
def Graph.isFlat (graph : Graph) : Bool :=
  graph.modules.toList.all (Module.isFlat graph.types) &&
    graph.services.all fun service => service.memory.all fun shape => shape.word.isFlat

namespace Graph

variable {graph : Graph} {inst : InstanceId}

theorem isFlat_moduleOf (flat : graph.isFlat = true) (inst : InstanceId) :
    (graph.moduleOf inst).isFlat graph.types = true := by
  obtain ⟨modules, -⟩ := Bool.and_eq_true_iff.1 flat
  obtain absent | ⟨place, known⟩ := graph.moduleOf_cases inst
  · rw [absent]
    rfl
  · exact List.all_eq_true.1 modules _ (Arena.mem_toList.2 ⟨place, known⟩)

theorem isFlat_port (flat : graph.isFlat = true) {port : Port}
    (member : port ∈ (graph.moduleOf inst).ports) : (graph.types.get port.ty).isFlat = true := by
  obtain ⟨own, -⟩ := Bool.and_eq_true_iff.1 (isFlat_moduleOf flat inst)
  exact List.all_eq_true.1 (Bool.and_eq_true_iff.1 own).1 port member

theorem isFlat_slot (flat : graph.isFlat = true) {id : BundleId} {bundle : Bundle}
    (held : (graph.moduleOf inst).bundles.get? id = some bundle) {slot : RoleSlot}
    (member : slot ∈ bundle.roles) : (graph.types.get slot.payload).isFlat = true := by
  obtain ⟨-, bundles⟩ := Bool.and_eq_true_iff.1 (isFlat_moduleOf flat inst)
  have roles := List.all_eq_true.1 bundles bundle (Arena.mem_toList.2 ⟨id, held⟩)
  exact List.all_eq_true.1 roles slot member

theorem isFlat_word (flat : graph.isFlat = true) {index : Nat} {shape : MemoryShape}
    (shaped : (graph.serviceAt? index).bind (·.memory) = some shape) :
    shape.word.isFlat = true := by
  obtain ⟨-, services⟩ := Bool.and_eq_true_iff.1 flat
  obtain ⟨service, known, memory⟩ := Option.bind_eq_some_iff.1 shaped
  have word := List.all_eq_true.1 services service (List.mem_of_getElem? known)
  rwa [memory] at word

end Graph

namespace Simulator

variable {design : CompiledDesign} {policy : ArbitrationPolicy} {start sim : Simulator}

theorem plain_of_withPolicy (flat : design.graph.isFlat = true)
    (made : withPolicy design policy = .ok sim) : sim.net.Plain .exact sim.state.frame := by
  obtain ⟨graph, entries, memoriesOf, -⟩ := withPolicy_ok made
  rw [← graph] at flat
  constructor
  · exact fun port member => Graph.isFlat_port flat member
  · intro site slot here
    obtain ⟨bundle, present, known⟩ := Netlist.slot?_eq_some.1 here
    exact Graph.isFlat_slot flat present (List.mem_of_getElem? known)
  · intro memory member
    obtain ⟨held, inside, rfl⟩ := List.mem_map.1 member
    obtain ⟨place, found⟩ := List.mem_iff_getElem?.1 inside
    obtain ⟨builtin, shape, -, shaped, frame⟩ := memoriesOf.frame place held found
    rw [frame]
    rw [← graph] at shaped
    exact Graph.isFlat_word flat shaped

/-- All values of a simulator conform to their types: what expressions and the data of channels
evaluate to in the next cycle, however much of it is settled before them, the words of memories, and
what is on its way to or from the host. -/
structure Conforming (sim : Simulator) : Prop where
  exprs : ∀ inst id, id < (sim.net.graph.moduleOf inst).exprs.size →
    (∃ ty, (sim.net.graph.moduleOf inst).HasTy sim.net.graph.types id ty) ∧
      ∀ ty, (sim.net.graph.moduleOf inst).HasTy sim.net.graph.types id ty →
        sim.Gives (sim.settle (Query.expr inst id)) fun value => value.conforms ty = true
  channels : ∀ inst id channel, (sim.net.graph.moduleOf inst).channels.get? id = some channel →
    sim.Gives (sim.settle (Query.data inst id)) fun value =>
      value.conforms (sim.net.graph.types.get channel.payload) = true
  words : ∀ memory ∈ sim.state.memories, ∀ word ∈ memory.words,
    word.conforms memory.word = true
  queues : ∀ host ∈ sim.state.hosts, ∀ role ∈ host.roles, ∀ value,
    value ∈ role.outbound ∨ value ∈ role.inbound → value.conforms role.payload = true
  received : ∀ path role value next, sim.hostReceive path role = .ok (some value, next) →
    ∃ host index slot, sim.hostRole path role = .ok (host, index, slot) ∧
      value.conforms slot.payload = true

section

variable (conforms : sim.net.Conforms .exact sim.state)
include conforms

/-- What a query settles to meets what the equations promise of it. -/
theorem gives_of_meets {query : Query α} {fact : α → Prop}
    (meets : query.Meets (sim.net.contract .exact sim.state) fact) :
    sim.Gives (sim.settle query) fact := by
  intro memo value after reached answered
  obtain ⟨yields, reached⟩ := gives_settle query memo value after reached answered
  exact ⟨yields.meets (Query.kept_contract conforms) meets, reached⟩

theorem conforming_of_conforms : sim.Conforming := by
  have complete := conforms.complete
  have typed := conforms.typed
  have queues : ∀ host ∈ sim.state.hosts, ∀ role ∈ host.roles, ∀ value,
      value ∈ role.outbound ∨ value ∈ role.inbound → value.conforms role.payload = true := by
    intro host member role inside value queued
    have held := typed.hosts host member role inside
    exact queued.elim (held.outbound value) (held.inbound value)
  constructor
  case exprs =>
    intro inst id bound
    have around := Netlist.lt_size_of_has_part (.inl bound)
    exact ⟨(complete.typed inst around).exprs id bound, fun ty given =>
      gives_of_meets conforms (Query.meets_expr given)⟩
  case channels =>
    exact fun inst id channel known => gives_of_meets conforms (Query.meets_data known)
  case words => exact fun memory member => (typed.memories memory member).words
  case queues => exact queues
  case received =>
    intro path role value next taken
    obtain ⟨host, index, slot, found, -, equal⟩ := (sim.answers_hostReceive path role).of_ok taken
    have first := (Prod.mk.inj equal).1.symm
    obtain ⟨held, known, inside⟩ := Option.bind_eq_some_iff.1 (hostRole?_of_hostRole found)
    exact ⟨host, index, slot, found, queues held (List.mem_of_getElem? known) slot
      (List.mem_of_getElem? inside) value (.inr (List.mem_of_head? first))⟩

end

/-- Values stay typed in every run of a simulator of a design that has flat types and whose modules
use their own values only. -/
theorem values_stay_typed {design : CompiledDesign} {policy : ArbitrationPolicy}
    {start : Simulator} (contained : design.SelfContained) (flat : design.graph.isFlat = true)
    (made : withPolicy design policy = .ok start) (actions : List Action) :
    (start.after actions).Conforming := by
  have plain := plain_of_withPolicy flat made
  obtain ⟨-, conforms⟩ := keeps_after (conforms_of_withPolicy contained made plain) actions
  exact conforming_of_conforms conforms

end Simulator

namespace MemoryDesign

theorem values_stay_typed_after_interruptedRead :
    ∃ design start, CompiledDesign.SelfContained design ∧ design.graph.isFlat = true ∧
      Simulator.withPolicy design .roundRobin = .ok start ∧
      (start.after interruptedRead).Conforming := by
  have closed : hosted.library.Closed := by
    unfold Library.Closed
    decide
  have flatness : ((hosted.simulation? "Top").map fun made => made.1.graph.isFlat) = some true := by
    decide +kernel
  obtain ⟨⟨design, start⟩, simulation, flat⟩ := Option.map_eq_some_iff.1 flatness
  obtain ⟨contained, made⟩ := Setting.selfContained_of_simulation closed composed_hosted simulation
  exact ⟨design, start, contained, flat, made,
    Simulator.values_stay_typed contained flat made interruptedRead⟩

end MemoryDesign

end Elastic
