import Elastic.Proofs.Build.Inferred
import Elastic.Proofs.Sim.Connection

namespace Elastic

/-! What the equations of a netlist read is there. An instance below the root stands for a child of
the module around it, and an endpoint offers the roles of the bundle that it stands at, with their
payloads. -/

/-- What no run changes in a state. -/
structure StateFrame where
  memories : List MemoryFrame
  hosts : List (List Ty)

def SimState.frame (state : SimState) : StateFrame where
  memories := state.memories.map Memory.frame
  hosts := state.hosts.map fun host => host.roles.map (·.payload)

namespace Netlist

theorem mem_parentsOf {graph : Graph} {inner outer : InstanceId} {position : Nat} :
    (inner, outer, position) ∈ parentsOf graph ↔
      ∃ around, graph.instances.get? outer = some around ∧
        around.children[position]? = some inner := by
  simp only [parentsOf, List.mem_reverse, List.mem_flatMap, Prod.exists, Arena.mem_entries,
    List.mem_map, Prod.mk.injEq, List.mem_zipIdx_iff_getElem?]
  constructor
  · intro member
    obtain ⟨_, around, present, _, _, below, rfl, rfl, rfl⟩ := member
    exact ⟨around, present, below⟩
  · intro facts
    obtain ⟨around, present, below⟩ := facts
    exact ⟨outer, around, present, inner, position, below, rfl, rfl, rfl⟩

structure Nested (net : Netlist) : Prop where
  root : ∀ inst, inst < net.graph.instances.size → net.parent? inst = none →
    inst = net.graph.root
  outer : ∀ inst outer position, net.parent? inst = some (outer, position) →
    outer < net.graph.instances.size ∧
      ∃ child, (net.graph.moduleOf outer).children[position]? = some child ∧
        net.graph.modules.get? child.module = some (net.graph.moduleOf inst)

theorem nested_of_rooted {net : Netlist} {module : ModuleId} (rooted : net.graph.Rooted module)
    (parents : net.parents = parentsOf net.graph) : net.Nested := by
  constructor
  · intro inst bound none
    obtain ⟨held, present⟩ := Arena.exists_get?_of_lt_size bound
    by_contra below
    obtain ⟨outer, around, childOf⟩ := rooted.outer present below
    obtain ⟨position, found⟩ := List.mem_iff_getElem?.1 childOf.below
    rw [(rooted.inTree inst held present).number] at found
    have member := mem_parentsOf.2 ⟨around, childOf.present, found⟩
    rw [← parents] at member
    rw [parent?, Option.map_eq_none_iff, List.find?_eq_none] at none
    exact none _ member (decide_eq_true rfl)
  · intro inst outer position found
    obtain ⟨⟨inner, place⟩, held, equal⟩ := Option.map_eq_some_iff.1 found
    cases equal
    have same : inner = inst := by simpa using List.find?_some held
    subst same
    have member := List.mem_of_find?_eq_some held
    rw [parents] at member
    obtain ⟨around, present, below⟩ := mem_parentsOf.1 member
    have covers := (rooted.inTree outer around present).covers
    obtain ⟨length, each⟩ := List.forall₂_iff_get.1 covers
    obtain ⟨bound, rfl⟩ := List.getElem?_eq_some_iff.1 below
    have inside := Nat.lt_of_lt_of_eq bound length
    obtain ⟨_, known⟩ := (each position bound inside).held
    refine ⟨Arena.lt_size_of_get? present,
      (Instance.childrenOf net.graph.modules around.module)[position], ?_, rooted.moduleOf known⟩
    rw [← List.getElem?_eq_getElem inside, Instance.childrenOf, rooted.moduleOf present]
    rfl

end Netlist

def MemoryPort.question (word : Ty) (depth : UInt32) : MemoryPort → Ty
  | .read => .bits (addressWidth depth)
  | .write => .struct [("address", .bits (addressWidth depth)), ("data", word)]

def MemoryPort.answer (word : Ty) : MemoryPort → Ty
  | .read => word
  | .write => .bits 0

def MemoryPort.payload (port : MemoryPort) (word : Ty) (depth : UInt32) : Flow → Ty
  | .toService => port.question word depth
  | .fromService => port.answer word

theorem SlotsOf.payload_of_port {types : TyPool} {port : MemoryPort} {word : Ty} {depth : UInt32}
    {slots : List RoleSlot} (slotsOf : SlotsOf types (port.bundle word depth) slots) {role : Nat}
    {slot : RoleSlot} (known : slots[role]? = some slot) :
    types.get? slot.payload = some (port.payload word depth slot.flow) := by
  obtain ⟨declared, held, flow, found⟩ := slotsOf.role role slot known
  rw [TyPool.get?_of_find? found, flow]
  congr 1
  cases port <;> match role, held with
    | 0, held | 1, held => cases held; rfl

/-- What stands behind an endpoint offers the roles of a bundle. -/
inductive Endpoint.Suits (types : TyPool) (frame : StateFrame) (bundle : Bundle) :
    Endpoint → Prop
  | memory {ref : ClientRef} {memory : MemoryFrame} {depth : UInt32}
      (held : frame.memories[ref.memory]? = some memory)
      (slots : SlotsOf types (ref.port.bundle memory.word depth) bundle.roles)
      (deep : memory.depth = depth.toNat) : Suits types frame bundle ref.endpoint
  | host {host : Nat}
      (held : frame.hosts[host]? = some (bundle.roles.map fun slot => types.get slot.payload)) :
      Suits types frame bundle (.host host)

namespace Netlist

/-- All that equations read is there and of the right type. -/
structure Complete (net : Netlist) (frame : StateFrame) : Prop where
  modules : ∀ inst, inst < net.graph.instances.size → (net.graph.module? inst).isSome
  wired : ∀ inst, inst < net.graph.instances.size →
    ∃ limit, (net.graph.moduleOf inst).Wired True net.graph.services net.graph.types limit
  typed : ∀ inst, inst < net.graph.instances.size →
    (net.graph.moduleOf inst).Typed net.graph.types net.graph.modules
  nested : net.Nested
  endpoints : ∀ inst id bundle side serviceInstance, net.bundle? inst id = some bundle →
    bundle.at side = .service serviceInstance →
    ∃ endpoint, net.endpoint inst serviceInstance = .ok endpoint ∧
      endpoint.Suits net.graph.types frame bundle
  resets : ∀ memory ∈ frame.memories, ∀ reset, memory.reset = some reset →
    reset < (net.graph.moduleOf memory.inst).exprs.size

variable {net : Netlist} {frame : StateFrame} {site : RoleSite} {slot : RoleSlot}

theorem slot?_eq_some : net.slot? site = some slot ↔
    ∃ bundle, net.bundle? site.inst site.bundle = some bundle ∧
      bundle.roles[site.role]? = some slot :=
  Option.bind_eq_some_iff

inductive Attached (net : Netlist) (frame : StateFrame) (site : RoleSite) (slot : RoleSlot)
    (side : ServiceSide) : RoleEnd → Prop
  | channel {channel : ChannelId} {held : Channel}
      (known : (net.graph.moduleOf site.inst).channels.get? channel = some held)
      (payload : held.payload = slot.payload) : Attached net frame site slot side (.channel channel)
  | service {id : ServiceInstanceId} {endpoint : Endpoint} {bundle : Bundle}
      (leads : net.endpoint site.inst id = .ok endpoint)
      (present : net.bundle? site.inst site.bundle = some bundle)
      (known : bundle.roles[site.role]? = some slot) (stands : bundle.at side = .service id)
      (suits : endpoint.Suits net.graph.types frame bundle) :
      Attached net frame site slot side (.service id)
  | nothing : Attached net frame site slot side .nothing

theorem Complete.attached (complete : net.Complete frame) {bundle : Bundle}
    (present : net.bundle? site.inst site.bundle = some bundle)
    (known : bundle.roles[site.role]? = some slot) (side : ServiceSide) :
    net.Attached frame site slot side (.ofBundleEnd (bundle.at side) (slot.at? side)) := by
  obtain ⟨limit, wired⟩ := complete.wired site.inst (inst_lt_of_bundle? present)
  cases stands : bundle.at side with
  | unbound => exact .nothing
  | service id =>
      obtain ⟨endpoint, leads, suits⟩ := complete.endpoints _ _ _ _ _ present stands
      exact .service leads present known stands suits
  | «local» =>
      cases filled : slot.at? side with
      | none => exact .nothing
      | some channel =>
          have here : (net.graph.moduleOf site.inst).bundles.slot? site.bundle site.role =
              some slot := slot?_eq_some.2 ⟨bundle, present, known⟩
          obtain ⟨held, known, payload⟩ := wired.linked.carried _ _ _ _ _ here filled
          exact .channel known payload

theorem Complete.source (complete : net.Complete frame) (here : net.slot? site = some slot) :
    net.Attached frame site slot slot.flow.source (net.source site) := by
  obtain ⟨bundle, present, known⟩ := slot?_eq_some.1 here
  rw [Netlist.source, roleEnds_of_slot present known]
  exact complete.attached present known _

theorem Complete.sink (complete : net.Complete frame) (here : net.slot? site = some slot) :
    net.Attached frame site slot slot.flow.target (net.sink site) := by
  obtain ⟨bundle, present, known⟩ := slot?_eq_some.1 here
  rw [Netlist.sink, roleEnds_of_slot present known]
  exact complete.attached present known _

theorem Complete.produced (complete : net.Complete frame) {inst : InstanceId} {bundle : BundleId}
    {role : Nat} {channel : ChannelId} {held : Channel}
    (known : (net.graph.moduleOf inst).channels.get? channel = some held)
    (starts : held.producer = .bundle bundle role) :
    ∃ slot, net.slot? ⟨inst, bundle, role⟩ = some slot ∧ held.payload = slot.payload := by
  obtain ⟨limit, wired⟩ := complete.wired inst
    (lt_size_of_has_part (.inr (Arena.lt_size_of_get? known)))
  obtain ⟨slot, here, stands⟩ := (wired.linked.producer _ _ _ _ known).1 starts
  obtain ⟨same, present, payload⟩ := wired.linked.carried _ _ _ _ _ here stands
  cases known.symm.trans present
  exact ⟨slot, here, payload⟩

theorem Complete.consumed (complete : net.Complete frame) {inst : InstanceId} {bundle : BundleId}
    {role : Nat} {channel : ChannelId} {held : Channel}
    (known : (net.graph.moduleOf inst).channels.get? channel = some held)
    (ends : held.consumer = .bundle bundle role) :
    ∃ slot, net.slot? ⟨inst, bundle, role⟩ = some slot := by
  obtain ⟨limit, wired⟩ := complete.wired inst
    (lt_size_of_has_part (.inr (Arena.lt_size_of_get? known)))
  obtain ⟨slot, here, -⟩ := (wired.linked.consumer _ _ _ _ known).1 ends
  exact ⟨slot, here⟩

end Netlist

namespace Simulator

theorem withPolicy_starts {design : CompiledDesign} {policy : ArbitrationPolicy} {sim : Simulator}
    (made : withPolicy design policy = .ok sim) :
    sim.net.parents = Netlist.parentsOf design.graph ∧
      sim.state.inputs = (design.graph.moduleOf design.graph.root).ports.map
        (fun port => .zero (design.graph.types.get port.ty)) ∧
      sim.state.hosts = design.services.hosts.map (newHost design.graph design.names) ∧
      sim.inputNames.length = (design.graph.moduleOf design.graph.root).ports.length ∧
      sim.cycle = 0 ∧ sim.monitor = {} := by
  unfold withPolicy at made
  simp only [bind, Except.bind, pure, Except.pure] at made
  split at made
  · cases made
  · cases made
    exact ⟨rfl, rfl, rfl, List.length_map _, rfl, rfl⟩

theorem reset_lt_size {graph : Graph} {module : Module} {builtin : BuiltinSite}
    {shape : MemoryShape} {reset : ExprId} (ordered : module.Ordered)
    (here : graph.moduleOf builtin.inst = module)
    (known : (builtin.frame graph shape).reset = some reset) : reset < module.exprs.size := by
  obtain ⟨realized, present, input⟩ := Option.bind_eq_some_iff.1 known
  rw [here] at present
  exact ordered.builtins realized (List.mem_of_getElem? present) reset (List.mem_of_getElem? input)

variable {design : CompiledDesign} {policy : ArbitrationPolicy} {sim : Simulator}

theorem suits_of_memory {entries : List Entry} {ref : ClientRef} {inst : InstanceId}
    {id : ServiceInstanceId} {module : Module} {held : ServiceInstance} {bundle : Bundle}
    {limit : ModuleId}
    (memoriesOf : MemoriesOf design.graph 0 design.services.builtins sim.state.memories entries)
    (sound : design.services.Sound design.graph)
    (composed : ∀ service ∈ design.graph.services, service.Composed)
    (placed : module.Placed design.graph.services design.graph.types limit)
    (here : design.graph.moduleOf inst = module)
    (known : module.services.get? id = some held)
    (present : module.bundles.get? held.bundle = some bundle)
    (taken : sim.state.clientSite? ref = some (inst, id)) :
    ref.endpoint.Suits design.graph.types sim.state.frame bundle := by
  obtain ⟨memory, held', service, shape, found, known', stands, -, shaped, word, deep, named⟩ :=
    memoriesOf.serves sound taken
  rw [here] at known'
  cases known.symm.trans known'
  obtain ⟨service', operation, bundle', stands', offered, first, present', typed, -⟩ :=
    placed.instances _ held known
  cases present.symm.trans present'
  cases stands.symm.trans stands'
  obtain ⟨ty, typed', slots⟩ := placed.bundles _ bundle present
  cases typed.symm.trans typed'
  rw [offered] at named
  rw [(composed service (List.mem_of_getElem? stands)).bundle shaped offered first named,
    ← word] at slots
  have listed : sim.state.frame.memories[ref.memory]? = some memory.frame := by
    rw [SimState.frame, List.getElem?_map, found, Option.map_some]
  exact .memory listed slots deep

theorem suits_of_host {place : Nat} {host : HostEndpoint} {bundle : Bundle}
    (hosts : sim.state.hosts = design.services.hosts.map (newHost design.graph design.names))
    (present : design.services.hosts[place]? = some host)
    (stands : bundleOf? design.graph host.inst host.serviceInstance = some bundle) :
    (Endpoint.host place).Suits design.graph.types sim.state.frame bundle := by
  have roles : (newHost design.graph design.names host).roles.map (·.payload) =
      bundle.roles.map fun slot => design.graph.types.get slot.payload := by
    simp only [newHost, stands, Option.map_some, Option.getD_some, List.map_map]
    rfl
  refine .host ?_
  rw [SimState.frame, hosts, List.map_map, List.getElem?_map, present, Option.map_some, ← roles]
  rfl

end Simulator

/-- A built design whose recipes use no values but their own. -/
inductive CompiledDesign.SelfContained : CompiledDesign → Prop
  | compile {setting : Setting} {top : String} {graph : Graph} {name version : String}
      {names : Names} {backend : BackendPreset} {capabilities : Capabilities}
      {policy : ArbitrationPolicy} {design : CompiledDesign} {warnings : List Diagnostic}
      (closed : setting.library.Closed)
      (composed : ∀ service ∈ setting.library.services, service.Composed)
      (generated : (generate setting top).outcome = .ok graph)
      (compiled : CompiledDesign.compile name version graph names backend capabilities policy =
        (.ok design, warnings)) : SelfContained design

namespace CompiledDesign

variable {design : CompiledDesign}

theorem SelfContained.built (contained : design.SelfContained) : design.Built := by
  cases contained with
  | compile closed composed generated compiled => exact .compile composed generated compiled

theorem SelfContained.modules (contained : design.SelfContained) :
    (∃ top, design.graph.Rooted top) ∧
      ∀ id module, design.graph.modules.get? id = some module →
        module.Wired True design.graph.services design.graph.types id ∧
          module.Typed design.graph.types design.graph.modules := by
  cases contained with
  | compile closed composed generated compiled =>
      obtain ⟨rfl, -⟩ := resolve_of_compile compiled
      obtain ⟨⟨top, bound, equal⟩, wired⟩ := unfolded_of_generate True generated fun _ => closed
      constructor
      · rw [equal]
        exact ⟨top, Graph.rooted_unfold bound fun id module held child member =>
          (wired id module held).placed.children child member⟩
      · exact fun id module held =>
          ⟨wired id module held, typed_of_generate closed generated id module held⟩

theorem SelfContained.places (contained : design.SelfContained) {inst : InstanceId}
    {id : ServiceInstanceId} {held : ServiceInstance}
    (known : (design.graph.moduleOf inst).services.get? id = some held) :
    (inst, id) ∈ design.services.placed := by
  cases contained with
  | compile closed composed generated compiled =>
      obtain ⟨rfl, resolved⟩ := resolve_of_compile compiled
      exact ServiceMap.mem_placed_of_resolve resolved known

end CompiledDesign

namespace Simulator

variable {design : CompiledDesign} {policy : ArbitrationPolicy} {sim : Simulator}

/-- A service instance is answered by an endpoint with the roles of its bundle. -/
theorem endpoint_of_placed (contained : design.SelfContained)
    (made : withPolicy design policy = .ok sim) {inst : InstanceId} {id : ServiceInstanceId}
    {held : ServiceInstance} {bundle : Bundle} {limit : ModuleId}
    (placed : (design.graph.moduleOf inst).Placed design.graph.services design.graph.types limit)
    (known : (design.graph.moduleOf inst).services.get? id = some held)
    (present : (design.graph.moduleOf inst).bundles.get? held.bundle = some bundle) :
    ∃ endpoint, sim.net.endpoint inst id = .ok endpoint ∧
      endpoint.Suits design.graph.types sim.state.frame bundle := by
  obtain ⟨composed, -, sound, nodup⟩ := contained.built.facts
  obtain ⟨-, entries, memoriesOf, endpoints⟩ := withPolicy_ok made
  obtain ⟨-, -, hosts, -, -⟩ := withPolicy_starts made
  have single := nodup_endpoints made nodup
  rcases List.mem_append.1 (contained.places known) with client | host
  · rw [← memoriesOf.sites] at client
    obtain ⟨⟨site, endpoint⟩, member, rfl⟩ := List.mem_map.1 client
    obtain ⟨place, memory, builtin, -, -, client, -, port, number, -, -, equal⟩ :=
      memoriesOf.origin _ member
    obtain rfl : endpoint = ClientRef.endpoint ⟨0 + place, port, number⟩ := equal
    refine ⟨_, ?_, suits_of_memory memoriesOf sound composed placed rfl known present
      (memoriesOf.mem_entries.1 member)⟩
    rw [Netlist.endpoint_eq_ok single, endpoints]
    exact List.mem_append_left _ member
  · obtain ⟨endpoint, member, site⟩ := List.mem_map.1 host
    obtain ⟨place, listed⟩ := List.mem_iff_getElem?.1 member
    obtain ⟨rfl, rfl⟩ := Prod.mk.inj site
    refine ⟨.host place, ?_, suits_of_host hosts listed ?_⟩
    · rw [Netlist.endpoint_eq_ok single, endpoints]
      apply List.mem_append_right
      exact List.mem_map.2 ⟨(endpoint, place), List.mem_zipIdx_iff_getElem?.2 listed, rfl⟩
    · rw [bundleOf?, known, Option.bind_some, present]

theorem reset_of_memory (contained : design.SelfContained)
    (made : withPolicy design policy = .ok sim) {memory : MemoryFrame} {reset : ExprId}
    (member : memory ∈ sim.state.frame.memories) (known : memory.reset = some reset) :
    reset < (design.graph.moduleOf memory.inst).exprs.size := by
  obtain ⟨-, modules⟩ := contained.modules
  obtain ⟨-, entries, memoriesOf, -⟩ := withPolicy_ok made
  obtain ⟨held, inside, rfl⟩ := List.mem_map.1 member
  obtain ⟨place, found⟩ := List.mem_iff_getElem?.1 inside
  obtain ⟨builtin, shape, -, -, frame⟩ := memoriesOf.frame place held found
  rw [frame] at known ⊢
  change reset < (design.graph.moduleOf builtin.inst).exprs.size
  cases design.graph.moduleOf_cases builtin.inst with
  | inl absent =>
      obtain ⟨realized, present, -⟩ := Option.bind_eq_some_iff.1 known
      rw [absent] at present
      cases present
  | inr module =>
      obtain ⟨place, found⟩ := module
      exact reset_lt_size ((modules place _ found).1.ordered trivial) rfl known

theorem complete_of_withPolicy (contained : design.SelfContained)
    (made : withPolicy design policy = .ok sim) : sim.net.Complete sim.state.frame := by
  obtain ⟨⟨top, rooted⟩, modules⟩ := contained.modules
  obtain ⟨graph, -⟩ := withPolicy_ok made
  obtain ⟨parents, -⟩ := withPolicy_starts made
  have standing : ∀ inst, inst < sim.net.graph.instances.size →
      ∃ held, design.graph.instances.get? inst = some held ∧
        design.graph.modules.get? held.module = some (design.graph.moduleOf inst) := by
    intro inst bound
    rw [graph] at bound
    obtain ⟨held, present⟩ := Arena.exists_get?_of_lt_size bound
    exact ⟨held, present, rooted.moduleOf present⟩
  constructor
  case modules =>
    intro inst bound
    obtain ⟨held, present, known⟩ := standing inst bound
    simp [Graph.module?, graph, present, known]
  case wired =>
    intro inst bound
    obtain ⟨held, -, known⟩ := standing inst bound
    rw [graph]
    exact ⟨held.module, (modules _ _ known).1⟩
  case typed =>
    intro inst bound
    obtain ⟨held, -, known⟩ := standing inst bound
    rw [graph]
    exact (modules _ _ known).2
  case nested =>
    rw [← graph] at rooted parents
    exact Netlist.nested_of_rooted rooted parents
  case endpoints =>
    intro inst id bundle side serviceInstance present stands
    rw [Netlist.bundle?, graph] at present
    rw [graph]
    cases design.graph.moduleOf_cases inst with
    | inl absent =>
        rw [absent] at present
        cases present
    | inr module =>
        obtain ⟨place, found⟩ := module
        obtain ⟨wired, -⟩ := modules place _ found
        obtain ⟨held, known, rfl, rfl⟩ :=
          (wired.served.ends id bundle side serviceInstance present).1 stands
        exact endpoint_of_placed contained made wired.placed known present
  case resets =>
    intro memory member reset known
    rw [graph]
    exact reset_of_memory contained made member known

end Simulator

end Elastic
