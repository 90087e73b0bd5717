import Elastic.Proofs.Build.Generated
import Elastic.Proofs.Sim.Evaluation
import Elastic.Proofs.Sim.Clients

namespace Elastic

/-! The bundles between the clients of memories and their ports. In a netlist that is made of a
generated design a client has one role for its requests and one for its responses, and no other
role leads to its place at the port. -/

def MemoryPort.bundle (word : Ty) (depth : UInt32) : MemoryPort → BundleTy
  | .read => Service.readBundle word depth
  | .write => Service.writeBundle word depth

theorem MemoryPort.flows_bundle (port : MemoryPort) (word : Ty) (depth : UInt32) :
    (port.bundle word depth).map (·.flow) = [.toService, .fromService] := by
  cases port <;> rfl

namespace Service

inductive Composed : Service → Prop
  | randomAccessMemory (name : String) (word : Ty) (depth : UInt32) :
      Composed (.randomAccessMemory name word depth)
  | host (name : String) : Composed (.host name)
  | withOperation {service : Service} (name : String) (bundle : BundleTy)
      (composed : Composed service) : Composed (service.withOperation name bundle)

theorem Composed.operations {service : Service} {shape : MemoryShape}
    (composed : service.Composed) (memory : service.memory = some shape) :
    ∃ others, service.operations = ⟨"read", readBundle shape.word shape.depth⟩ ::
      ⟨"write", writeBundle shape.word shape.depth⟩ :: others := by
  induction composed with
  | randomAccessMemory name word depth =>
      cases memory
      exact ⟨[], rfl⟩
  | host name => cases memory
  | withOperation name bundle composed induction =>
      obtain ⟨others, equal⟩ := induction memory
      exact ⟨others ++ [⟨name, bundle⟩], by simp [Service.withOperation, equal]⟩

theorem Composed.bundle {service : Service} {shape : MemoryShape} {operation : Operation}
    {index : Nat} {port : MemoryPort} (composed : service.Composed)
    (memory : service.memory = some shape) (held : service.operations[index]? = some operation)
    (first : service.operationIndex? operation.name = some index)
    (named : MemoryPort.ofOperation? operation.name = some port) :
    operation.bundle = port.bundle shape.word shape.depth := by
  obtain ⟨others, equal⟩ := composed.operations memory
  unfold operationIndex? at first
  rw [equal] at held first
  unfold MemoryPort.ofOperation? at named
  split at named
  · rename_i read
    have place : index = 0 := by simpa [read, List.findIdx?_cons] using first.symm
    subst place
    cases held
    cases named
    rfl
  · rename_i write
    have place : index = 1 := by simpa [write, List.findIdx?_cons] using first.symm
    subst place
    cases held
    cases named
    rfl
  · cases named

end Service

theorem SlotsOf.flows {types : TyPool} {ty : BundleTy} {slots : List RoleSlot}
    (slotsOf : SlotsOf types ty slots) : slots.map (·.flow) = ty.map (·.flow) := by
  refine List.ext_getElem? fun index => ?_
  rw [List.getElem?_map, List.getElem?_map]
  cases held : slots[index]? with
  | some slot =>
      obtain ⟨role, known, flow, -⟩ := slotsOf.role index slot held
      simp [known, flow]
  | none =>
      have beyond := List.getElem?_eq_none_iff.1 held
      rw [slotsOf.length] at beyond
      simp [List.getElem?_eq_none beyond]

namespace RoleEnd

theorem ofBundleEnd_eq_service {held : BundleEnd} {channel : Option ChannelId}
    {serviceInstance : ServiceInstanceId} :
    ofBundleEnd held channel = .service serviceInstance ↔ held = .service serviceInstance := by
  cases held with
  | unbound => simp [ofBundleEnd]
  | service id => simp [ofBundleEnd]
  | «local» => cases channel <;> simp [ofBundleEnd]

end RoleEnd

namespace Netlist

variable {net : Netlist} {site : RoleSite} {serviceInstance : ServiceInstanceId}

theorem roleEnds_of_slot {bundle : Bundle} {slot : RoleSlot}
    (held : net.bundle? site.inst site.bundle = some bundle)
    (known : bundle.roles[site.role]? = some slot) :
    net.roleEnds site =
      (.ofBundleEnd (bundle.at slot.flow.source) (slot.at? slot.flow.source),
        .ofBundleEnd (bundle.at slot.flow.target) (slot.at? slot.flow.target)) := by
  unfold roleEnds
  simp only [held, known]
  cases slot.flow <;> rfl

theorem roleEnds_of_service (apart : net.roleEnds site ≠ (.absent, .absent)) :
    ∃ bundle slot, net.bundle? site.inst site.bundle = some bundle ∧
      bundle.roles[site.role]? = some slot := by
  unfold roleEnds at apart
  split at apart
  · exact absurd rfl apart
  · rename_i bundle held
    split at apart
    · exact absurd rfl apart
    · rename_i slot known
      exact ⟨bundle, slot, held, known⟩

theorem source_eq_service : net.source site = .service serviceInstance ↔
    ∃ bundle slot, net.bundle? site.inst site.bundle = some bundle ∧
      bundle.roles[site.role]? = some slot ∧
      bundle.at slot.flow.source = .service serviceInstance := by
  constructor
  · intro source
    have apart : net.roleEnds site ≠ (.absent, .absent) := fun nothing => by
      simp [Netlist.source, nothing] at source
    obtain ⟨bundle, slot, held, known⟩ := roleEnds_of_service apart
    rw [Netlist.source, roleEnds_of_slot held known, RoleEnd.ofBundleEnd_eq_service] at source
    exact ⟨bundle, slot, held, known, source⟩
  · intro facts
    obtain ⟨bundle, slot, held, known, served⟩ := facts
    rw [Netlist.source, roleEnds_of_slot held known, RoleEnd.ofBundleEnd_eq_service, served]

theorem sink_eq_service : net.sink site = .service serviceInstance ↔
    ∃ bundle slot, net.bundle? site.inst site.bundle = some bundle ∧
      bundle.roles[site.role]? = some slot ∧
      bundle.at slot.flow.target = .service serviceInstance := by
  constructor
  · intro sink
    have apart : net.roleEnds site ≠ (.absent, .absent) := fun nothing => by
      simp [Netlist.sink, nothing] at sink
    obtain ⟨bundle, slot, held, known⟩ := roleEnds_of_service apart
    rw [Netlist.sink, roleEnds_of_slot held known, RoleEnd.ofBundleEnd_eq_service] at sink
    exact ⟨bundle, slot, held, known, sink⟩
  · intro facts
    obtain ⟨bundle, slot, held, known, served⟩ := facts
    rw [Netlist.sink, roleEnds_of_slot held known, RoleEnd.ofBundleEnd_eq_service, served]

theorem exists_rolePayload? {driver : RoleEnd} (source : net.source site = driver)
    (present : driver ≠ .absent) : ∃ payload, net.rolePayload? site = some payload := by
  subst source
  rw [Netlist.source, roleEnds] at present
  rw [rolePayload?, slot?]
  cases held : net.bundle? site.inst site.bundle with
  | none =>
      rw [held] at present
      exact absurd rfl present
  | some bundle =>
      cases known : bundle.roles[site.role]? with
      | none =>
          simp only [held, known] at present
          exact absurd rfl present
      | some slot => exact ⟨net.graph.types.get slot.payload, by simp [known]⟩

theorem inst_lt_of_bundle? {bundle : Bundle}
    (held : net.bundle? site.inst site.bundle = some bundle) :
    site.inst < net.graph.instances.size := by
  refine Nat.lt_of_not_le fun beyond => ?_
  unfold bundle? at held
  rw [Graph.moduleOf_of_size_le beyond] at held
  cases held

theorem mem_servedRoles : site ∈ net.servedRoles ↔
    site.inst < net.graph.instances.size ∧
      ∃ bundle, net.bundle? site.inst site.bundle = some bundle ∧ isServed bundle = true ∧
        site.role < bundle.roles.length := by
  obtain ⟨inst, id, role⟩ := site
  simp only [servedRoles, List.mem_flatMap, Arena.ids, List.mem_range, Prod.exists,
    Arena.mem_entries, bundle?]
  constructor
  · intro member
    obtain ⟨inst', bound, id', bundle, held, inside⟩ := member
    split at inside
    · rename_i served
      obtain ⟨role', small, equal⟩ := List.mem_map.1 inside
      cases equal
      exact ⟨bound, bundle, held, served, List.mem_range.1 small⟩
    · cases inside
  · intro facts
    obtain ⟨bound, bundle, held, served, small⟩ := facts
    refine ⟨inst, bound, id, bundle, held, ?_⟩
    rw [if_pos served]
    exact List.mem_map.2 ⟨role, List.mem_range.2 small, rfl⟩

theorem nodup_servedRoles (net : Netlist) : net.servedRoles.Nodup := by
  have names {inst : InstanceId} {id : BundleId} {bundle : Bundle} {site : RoleSite}
      (member : site ∈ if isServed bundle then
        (List.range bundle.roles.length).map fun role => (⟨inst, id, role⟩ : RoleSite)
      else []) : site.inst = inst ∧ site.bundle = id := by
    split at member
    · obtain ⟨role, -, rfl⟩ := List.mem_map.1 member
      exact ⟨rfl, rfl⟩
    · cases member
  refine List.nodup_flatMap.2 ⟨fun inst _ => List.nodup_flatMap.2 ⟨?_, ?_⟩, ?_⟩
  · intro entry _
    dsimp only
    split
    · exact List.nodup_range.map fun role role' equal => by cases equal; rfl
    · exact List.nodup_nil
  · have distinct : ((net.graph.moduleOf inst).bundles.entries.map (·.1)).Nodup := by
      rw [Arena.map_fst_entries]
      exact List.nodup_range
    refine (List.pairwise_map.1 distinct).imp fun {entry entry'} apart => ?_
    intro site one other
    exact apart ((names one).2.symm.trans (names other).2)
  · refine List.nodup_range.imp fun {inst inst'} apart => ?_
    intro site one other
    obtain ⟨entry, -, one⟩ := List.mem_flatMap.1 one
    obtain ⟨entry', -, other⟩ := List.mem_flatMap.1 other
    exact apart ((names one).1.symm.trans (names other).1)

theorem not_mem_of_servedRoles {earlier later : List RoleSite} {site : RoleSite}
    (equal : net.servedRoles = earlier ++ site :: later) : site ∉ earlier ∧ site ∉ later := by
  have nodup := net.nodup_servedRoles
  rw [equal, List.nodup_middle, List.nodup_cons, List.mem_append, not_or] at nodup
  exact nodup.1

def clientRole? (net : Netlist) (client : ServiceSite) (flow : Flow) : Option RoleSite := do
  let held ← (net.graph.moduleOf client.1).services.get? client.2
  let bundle ← net.bundle? client.1 held.bundle
  let role ← bundle.roles.findIdx? (·.flow = flow)
  return ⟨client.1, held.bundle, role⟩

structure Connects (net : Netlist) (client : ServiceSite) (request response : RoleSite) :
    Prop where
  requests : net.clientRole? client .toService = some request
  responses : net.clientRole? client .fromService = some response
  apart : request ≠ response
  inside : request.inst = client.1 ∧ response.inst = client.1
  sink : net.sink request = .service client.2
  source : net.source response = .service client.2
  served : request ∈ net.servedRoles ∧ response ∈ net.servedRoles
  sole : ∀ site : RoleSite, site.inst = client.1 →
    (net.sink site = .service client.2 → site = request) ∧
      (net.source site = .service client.2 → site = response)

/-- Endpoints lead to the places of the clients they stand for, and each client serves a bundle with
one role in each direction. -/
structure Routed (net : Netlist) (clients : ClientRef → Option ServiceSite) : Prop where
  endpoint : ∀ inst id (ref : ClientRef), net.endpoint inst id = .ok ref.endpoint ↔
    clients ref = some (inst, id)
  bundle : ∀ ref client, clients ref = some client →
    ∃ held bundle, (net.graph.moduleOf client.1).services.get? client.2 = some held ∧
      held.side = .server ∧ net.bundle? client.1 held.bundle = some bundle ∧
      bundle.roles.map (·.flow) = [.toService, .fromService]
  ends : ∀ inst id bundle side serviceInstance, net.bundle? inst id = some bundle →
    (bundle.at side = .service serviceInstance ↔
      ∃ held, (net.graph.moduleOf inst).services.get? serviceInstance = some held ∧
        held.bundle = id ∧ held.side = side)

theorem roles_of_flows {roles : List RoleSlot}
    (flows : roles.map (·.flow) = [.toService, .fromService]) :
    ∃ request response : RoleSlot, roles = [request, response] ∧ request.flow = .toService ∧
      response.flow = .fromService := by
  obtain ⟨request, rest, rfl, forward, flows⟩ := List.map_eq_cons_iff.1 flows
  obtain ⟨response, rest, rfl, backward, flows⟩ := List.map_eq_cons_iff.1 flows
  rw [List.map_eq_nil_iff.1 flows]
  exact ⟨request, response, rfl, forward, backward⟩

theorem clientRole?_eq_some {client : ServiceSite} {held : ServiceInstance} {bundle : Bundle}
    (known : (net.graph.moduleOf client.1).services.get? client.2 = some held)
    (present : net.bundle? client.1 held.bundle = some bundle)
    (flows : bundle.roles.map (·.flow) = [.toService, .fromService]) :
    net.clientRole? client .toService = some ⟨client.1, held.bundle, 0⟩ ∧
      net.clientRole? client .fromService = some ⟨client.1, held.bundle, 1⟩ := by
  obtain ⟨request, response, roles, forward, backward⟩ := roles_of_flows flows
  simp [clientRole?, known, present, roles, forward, backward, List.findIdx?_cons]

variable {clients : ClientRef → Option ServiceSite} {ref : ClientRef}

namespace Routed

theorem own_end (routed : net.Routed clients) {bundle : Bundle} {side : ServiceSide}
    (leads : net.endpoint site.inst serviceInstance = .ok ref.endpoint)
    (present : net.bundle? site.inst site.bundle = some bundle)
    (stands : bundle.at side = .service serviceInstance) :
    side = .server ∧ bundle.roles.map (·.flow) = [.toService, .fromService] ∧
      clients ref = some (site.inst, serviceInstance) ∧
      net.clientRole? (site.inst, serviceInstance) .toService = some ⟨site.inst, site.bundle, 0⟩ ∧
      net.clientRole? (site.inst, serviceInstance) .fromService =
        some ⟨site.inst, site.bundle, 1⟩ := by
  have taken := (routed.endpoint _ _ _).1 leads
  obtain ⟨held, bundle', known, server, present', flows⟩ := routed.bundle ref _ taken
  obtain ⟨held', known', names, same⟩ := (routed.ends _ _ _ _ _ present).1 stands
  rw [known] at known'
  cases known'
  rw [names] at present'
  have equal : bundle' = bundle := Option.some.inj (present'.symm.trans present)
  subst equal
  have roles := clientRole?_eq_some known (names ▸ present') flows
  rw [names] at roles
  exact ⟨same.symm.trans server, flows, taken, roles⟩

theorem request_of_sink (routed : net.Routed clients)
    (sink : net.sink site = .service serviceInstance)
    (leads : net.endpoint site.inst serviceInstance = .ok ref.endpoint) :
    ∃ client, clients ref = some client ∧ net.clientRole? client .toService = some site := by
  obtain ⟨bundle, slot, present, held, stands⟩ := sink_eq_service.1 sink
  obtain ⟨server, flows, taken, forward, -⟩ := routed.own_end leads present stands
  obtain ⟨request, response, roles, one, other⟩ := roles_of_flows flows
  refine ⟨_, taken, forward.trans ?_⟩
  rw [roles] at held
  obtain ⟨inst, id, role⟩ := site
  match role, held with
  | 0, held => rfl
  | 1, held =>
      cases held
      rw [other] at server
      cases server

theorem response_of_source (routed : net.Routed clients)
    (source : net.source site = .service serviceInstance)
    (leads : net.endpoint site.inst serviceInstance = .ok ref.endpoint) :
    ∃ client, clients ref = some client ∧ net.clientRole? client .fromService = some site := by
  obtain ⟨bundle, slot, present, held, stands⟩ := source_eq_service.1 source
  obtain ⟨server, flows, taken, -, backward⟩ := routed.own_end leads present stands
  obtain ⟨request, response, roles, one, other⟩ := roles_of_flows flows
  refine ⟨_, taken, backward.trans ?_⟩
  rw [roles] at held
  obtain ⟨inst, id, role⟩ := site
  match role, held with
  | 0, held =>
      cases held
      rw [one] at server
      cases server
  | 1, held => rfl

/-- Every client has its two roles, and both are looked at in every cycle. -/
theorem connects (routed : net.Routed clients) {client : ServiceSite}
    (taken : clients ref = some client) :
    ∃ request response, net.Connects client request response := by
  obtain ⟨held, bundle, known, server, present, flows⟩ := routed.bundle ref client taken
  obtain ⟨request, response, roles, one, other⟩ := roles_of_flows flows
  have named := clientRole?_eq_some known present flows
  have stands : bundle.at .server = .service client.2 :=
    (routed.ends _ _ _ _ _ present).2 ⟨held, known, rfl, server⟩
  have bound : client.1 < net.graph.instances.size := by
    refine Nat.lt_of_not_le fun beyond => ?_
    rw [Graph.moduleOf_of_size_le beyond] at known
    cases known
  have serves : isServed bundle = true := by
    unfold isServed
    rw [show bundle.server = .service client.2 from stands]
    cases bundle.client <;> rfl
  refine ⟨_, _, named.1, named.2, ?_, ⟨rfl, rfl⟩, ?_, ?_, ⟨?_, ?_⟩, fun site inst => ⟨?_, ?_⟩⟩
  · intro equal
    cases equal
  · refine sink_eq_service.2 ⟨bundle, request, present, by rw [roles]; rfl, ?_⟩
    rw [one]
    exact stands
  · exact source_eq_service.2
      ⟨bundle, response, present, by rw [roles]; rfl, by rw [other]; exact stands⟩
  · exact mem_servedRoles.2 ⟨bound, bundle, present, serves, by simp [roles]⟩
  · exact mem_servedRoles.2 ⟨bound, bundle, present, serves, by simp [roles]⟩
  · intro sink
    have leads := (routed.endpoint site.inst client.2 ref).2 (by rw [inst, taken])
    obtain ⟨client', taken', role⟩ := routed.request_of_sink sink leads
    cases taken.symm.trans taken'
    exact Option.some.inj (role.symm.trans named.1)
  · intro source
    have leads := (routed.endpoint site.inst client.2 ref).2 (by rw [inst, taken])
    obtain ⟨client', taken', role⟩ := routed.response_of_source source leads
    cases taken.symm.trans taken'
    exact Option.some.inj (role.symm.trans named.2)

end Routed

end Netlist

/-- A design that was generated and compiled from composed services. -/
inductive CompiledDesign.Built : CompiledDesign → Prop
  | compile {setting : Setting} {top : String} {graph : Graph} {name version : String}
      {names : Names} {backend : BackendPreset} {capabilities : Capabilities}
      {policy : ArbitrationPolicy} {design : CompiledDesign} {warnings : List Diagnostic}
      (composed : ∀ service ∈ setting.library.services, service.Composed)
      (generated : (generate setting top).outcome = .ok graph)
      (compiled : CompiledDesign.compile name version graph names backend capabilities policy =
        (.ok design, warnings)) : Built design

namespace CompiledDesign

theorem Built.facts {design : CompiledDesign} (built : design.Built) :
    (∀ service ∈ design.graph.services, service.Composed) ∧
      (∀ id module, design.graph.modules.get? id = some module →
        module.Wired False design.graph.services design.graph.types id) ∧
      design.services.Sound design.graph ∧ design.services.placed.Nodup := by
  cases built with
  | compile composed generated compiled =>
      obtain ⟨rfl, resolved⟩ := resolve_of_compile compiled
      rw [← services_of_generate generated] at composed
      have wired := wired_of_generate False generated nofun
      exact ⟨composed, wired, ServiceMap.sound_of_resolve resolved⟩

end CompiledDesign

namespace Netlist

theorem endpoint_eq_ok {net : Netlist} (nodup : (net.endpoints.map (·.1)).Nodup)
    {inst : InstanceId} {serviceInstance : ServiceInstanceId} {endpoint : Endpoint} :
    net.endpoint inst serviceInstance = .ok endpoint ↔
      ((inst, serviceInstance), endpoint) ∈ net.endpoints := by
  have found {entry : ServiceSite × Endpoint}
      (known : net.endpoints.find? (·.1 = (inst, serviceInstance)) = some entry) :
      entry ∈ net.endpoints ∧ entry.1 = (inst, serviceInstance) := by
    refine ⟨List.mem_of_find?_eq_some known, ?_⟩
    simpa only [decide_eq_true_eq] using List.find?_some known
  unfold Netlist.endpoint
  constructor
  · intro answered
    split at answered
    · rename_i key held known
      cases answered
      obtain ⟨member, same⟩ := found known
      rw [← same]
      exact member
    · cases answered
  · intro member
    split
    · rename_i key held known
      obtain ⟨member', same⟩ := found known
      have equal := List.inj_on_of_nodup_map nodup member' member same
      rw [(Prod.mk.inj equal).2]
    · rename_i unknown
      have absent := List.find?_eq_none.1 unknown _ member
      simp at absent

end Netlist

namespace Simulator

theorem withPolicy_ok {design : CompiledDesign} {policy : ArbitrationPolicy} {sim : Simulator}
    (made : withPolicy design policy = .ok sim) :
    sim.net.graph = design.graph ∧
      ∃ entries, MemoriesOf design.graph 0 design.services.builtins sim.state.memories entries ∧
        sim.net.endpoints = entries ++ hostEndpoints design.services.hosts := by
  unfold withPolicy at made
  simp only [bind, Except.bind, pure, Except.pure] at made
  split at made
  · cases made
  · rename_i result memories
    obtain ⟨memories, entries⟩ := result
    cases made
    exact ⟨rfl, entries, memoriesOf_of_newMemories memories, rfl⟩

theorem map_fst_hostEndpoints (hosts : List HostEndpoint) :
    (hostEndpoints hosts).map (·.1) = hosts.map HostEndpoint.site := by
  have same := congrArg (List.map HostEndpoint.site) (List.zipIdx_map_fst 0 hosts)
  rw [← same]
  simp only [hostEndpoints, List.map_map]
  rfl

theorem nodup_endpoints {design : CompiledDesign} {policy : ArbitrationPolicy} {sim : Simulator}
    (made : withPolicy design policy = .ok sim) (nodup : design.services.placed.Nodup) :
    (sim.net.endpoints.map (·.1)).Nodup := by
  obtain ⟨-, entries, memoriesOf, endpoints⟩ := withPolicy_ok made
  rw [endpoints, List.map_append, memoriesOf.sites, map_fst_hostEndpoints]
  exact nodup

theorem MemoriesOf.mem_entries {graph : Graph} {builtins : List BuiltinSite} {state : SimState}
    {entries : List Entry} (memoriesOf : MemoriesOf graph 0 builtins state.memories entries)
    {site : ServiceSite} {ref : ClientRef} :
    (site, ref.endpoint) ∈ entries ↔
      state.clientSite? ref = some site := by
  constructor
  · intro member
    obtain ⟨place, memory, builtin, found, -, client, -, port, position, -, -, equal⟩ :=
      memoriesOf.origin _ member
    have number : ref.memory = place := by
      rw [Nat.zero_add] at equal
      injection equal
    subst number
    refine Option.map_eq_some_iff.2 ⟨⟨site.1, site.2, none⟩, ?_, rfl⟩
    rw [SimState.client?, found, Option.bind_some, memoriesOf.refs _ memory _ _ _ found,
      Nat.zero_add]
    exact ⟨member, rfl⟩
  · intro taken
    obtain ⟨client, present, rfl⟩ := Option.map_eq_some_iff.1 taken
    obtain ⟨memory, found, held⟩ := Option.bind_eq_some_iff.1 present
    have known := ((memoriesOf.refs _ memory _ _ _ found).1 held).1
    rwa [Nat.zero_add] at known

theorem MemoriesOf.serves {graph : Graph} {builtins : List BuiltinSite} {state : SimState}
    {entries : List Entry} (memoriesOf : MemoriesOf graph 0 builtins state.memories entries)
    (sound : ∀ builtin ∈ builtins, ∀ client ∈ builtin.clients, client.Serves graph builtin)
    {ref : ClientRef} {client : ServiceSite} (taken : state.clientSite? ref = some client) :
    ∃ memory held service shape, state.memories[ref.memory]? = some memory ∧
      (graph.moduleOf client.1).services.get? client.2 = some held ∧
      graph.serviceAt? held.service = some service ∧ service.provider = .builtin ∧
      service.memory = some shape ∧ memory.word = shape.word ∧
      memory.depth = shape.depth.toNat ∧
      MemoryPort.ofOperation? (((service.operations[held.operation]?).map (·.name)).getD "") =
        some ref.port := by
  have member := memoriesOf.mem_entries.2 taken
  obtain ⟨place, memory, builtin, found, stands, other, inside, port, number, site, named,
    equal⟩ := memoriesOf.origin _ member
  rw [Nat.zero_add] at equal
  obtain ⟨rfl, rfl, -⟩ := Endpoint.memory.inj equal
  obtain ⟨builtin', shape, stands', shaped, frame⟩ := memoriesOf.frame _ memory found
  rw [stands] at stands'
  cases stands'
  obtain ⟨held, service, known, same, declared, provider, operation⟩ :=
    sound builtin (List.mem_of_getElem? stands) other inside
  rw [declared, Option.bind_some] at shaped
  have inst : client.1 = other.inst := congrArg Prod.fst site
  have id : client.2 = other.serviceInstance := congrArg Prod.snd site
  rw [← inst, ← id] at known
  rw [operation] at named
  exact ⟨memory, held, service, shape, found, known, same ▸ declared, provider, shaped,
    congrArg MemoryFrame.word frame, congrArg MemoryFrame.depth frame, named⟩

/-- The clients of memories have their places as soon as a simulator is made. -/
theorem routed_of_withPolicy {design : CompiledDesign} {policy : ArbitrationPolicy}
    {sim : Simulator} (built : design.Built) (made : withPolicy design policy = .ok sim) :
    sim.net.Routed sim.state.clientSite? := by
  obtain ⟨composed, wired, sound, nodup⟩ := built.facts
  obtain ⟨graph, entries, memoriesOf, endpoints⟩ := withPolicy_ok made
  have single := nodup_endpoints made nodup
  have ref_iff (inst : InstanceId) (id : ServiceInstanceId) (ref : ClientRef) :
      sim.net.endpoint inst id = .ok ref.endpoint ↔
        ((inst, id), ref.endpoint) ∈ entries := by
    rw [Netlist.endpoint_eq_ok single, endpoints, List.mem_append]
    refine ⟨fun member => member.resolve_right fun host => ?_, .inl⟩
    obtain ⟨entry, -, equal⟩ := List.mem_map.1 host
    cases (Prod.mk.inj equal).2
  refine ⟨?_, ?_, ?_⟩
  · intro inst id ref
    rw [ref_iff]
    exact memoriesOf.mem_entries
  · intro ref client taken
    obtain ⟨-, held, service, shape, -, known, stands, provider, memory, -, -, named⟩ :=
      memoriesOf.serves sound taken
    rw [graph]
    refine ⟨held, ?_⟩
    cases design.graph.moduleOf_cases client.1 with
    | inl absent =>
        rw [absent] at known
        cases known
    | inr module =>
        obtain ⟨place, found⟩ := module
        have placed := (wired place _ found).placed
        obtain ⟨service', operation, bundle, stands', offered, first, present, typed, side⟩ :=
          placed.instances _ held known
        have same : service = service' := Option.some.inj (stands.symm.trans stands')
        subst same
        rw [offered] at named
        obtain ⟨ty, typed', slots⟩ := placed.bundles _ bundle present
        rw [typed] at typed'
        cases typed'
        refine ⟨bundle, known, ?_, by rw [Netlist.bundle?, graph]; exact present, ?_⟩
        · cases taken : held.side with
          | server => rfl
          | client =>
              rw [side taken] at provider
              cases provider
        · rw [slots.flows, (composed service (List.mem_of_getElem? stands')).bundle memory offered
            first named, MemoryPort.flows_bundle]
  · intro inst id bundle side serviceInstance present
    rw [Netlist.bundle?, graph] at present
    rw [graph]
    cases design.graph.moduleOf_cases inst with
    | inl absent =>
        rw [absent] at present
        cases present
    | inr module =>
        obtain ⟨place, known⟩ := module
        exact (wired place _ known).served.ends id bundle side serviceInstance present

end Simulator

namespace MemoryDesign

theorem composed_hosted : ∀ service ∈ hosted.library.services, service.Composed := by
  intro service member
  obtain rfl | rfl : service = memoryService ∨ service = hostService := by
    simpa [hosted, library] using member
  · exact .randomAccessMemory _ _ _
  · exact .withOperation _ _ (.withOperation _ _ (.host _))

def simulation? : Option (CompiledDesign × Simulator) := do
  let graph ← (generate hosted "Top").outcome.toOption
  let design ← (CompiledDesign.compile "memory" "0.1.0" graph (generate hosted "Top").names .cosim
    BackendPreset.cosim.capabilities .roundRobin).1.toOption
  let sim ← (Simulator.withPolicy design .roundRobin).toOption
  return (design, sim)

theorem built_of_simulation {design : CompiledDesign} {sim : Simulator}
    (held : simulation? = some (design, sim)) :
    design.Built ∧ Simulator.withPolicy design .roundRobin = .ok sim := by
  obtain ⟨graph, generated, held⟩ := Option.bind_eq_some_iff.1 held
  obtain ⟨compiled, known, held⟩ := Option.bind_eq_some_iff.1 held
  obtain ⟨made, stands, held⟩ := Option.bind_eq_some_iff.1 held
  cases held
  have succeeds := eq_ok_of_toOption known
  exact ⟨.compile composed_hosted (eq_ok_of_toOption generated) (Prod.ext succeeds rfl),
    eq_ok_of_toOption stands⟩

end MemoryDesign

end Elastic
