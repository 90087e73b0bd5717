import Elastic.Proofs.Build.Spelling
import Elastic.Proofs.Compile.Assignment
import Elastic.Proofs.Compile.EndpointTable
import Elastic.Proofs.Sim.HostRoles
import Elastic.Proofs.Sim.Lookups

namespace Elastic

/-! The table of host endpoints and the simulator. The table lists the roles of operations that are
looked up by name, the simulator those of bundles, and the netlist tells directions by the ends of
bundles; all three agree, since a bundle is spelled as the operation of its service instance. -/

def RoleLabel.ofRole (side : ServiceSide) (role : Role) : RoleLabel :=
  ⟨role.name, role.payload, hostSends side role.flow⟩

variable {setting : Setting} {top : String} {graph : Graph}

namespace Simulator

theorem labels_of_slots {names : Names} {ty : BundleTy} {slots : List RoleSlot}
    (slotsOf : SlotsOf graph.types ty slots) (spells : Spells names ty (slots.map (·.name)))
    (side : ServiceSide) :
    (slots.map (newHostRole graph names side)).map HostRole.label =
      ty.map (RoleLabel.ofRole side) := by
  rw [List.map_map]
  refine List.ext_getElem? fun index => ?_
  rw [List.getElem?_map, List.getElem?_map]
  cases here : slots[index]? with
  | none =>
      have beyond := List.getElem?_eq_none_iff.1 here
      rw [slotsOf.length] at beyond
      rw [List.getElem?_eq_none_iff.2 beyond]
      rfl
  | some slot =>
      obtain ⟨role, known, flow, payload⟩ := slotsOf.role index slot here
      have named : (slots.map (·.name))[index]? = some slot.name := by
        rw [List.getElem?_map, here, Option.map_some]
      obtain ⟨role', known', spelled⟩ := spells index slot.name named
      cases known.symm.trans known'
      have name : names.text slot.name = role.name := by rw [Names.text, spelled]; rfl
      have ty : graph.types.get slot.payload = role.payload := TyPool.get_of_find? payload
      rw [known]
      simp [newHostRole, HostRole.label, RoleLabel.ofRole, name, ty, flow]

end Simulator

/-- The service instance of a host endpoint is of an operation that is found by the names in the
endpoint, and its bundle gives the host the roles of that operation. -/
structure HostEndpoint.Serves (graph : Graph) (names : Names) (host : HostEndpoint)
    (operation : Operation) (held : ServiceInstance) : Prop where
  found : ∃ service, graph.services.find? (·.name = host.service) = some service ∧
    service.operation? host.operation = some operation
  known : (graph.moduleOf host.inst).services.get? host.serviceInstance = some held
  side : held.side = host.side
  label : (Simulator.newHost graph names host).label =
    ⟨AppPath.text host.path, operation.bundle.map (RoleLabel.ofRole host.side)⟩

theorem HostEndpoint.serves_of_generate (generated : (generate setting top).outcome = .ok graph)
    {map : ServiceMap} (resolved : ServiceMap.resolve graph (generate setting top).names = .ok map)
    {place : Nat} {host : HostEndpoint} (listed : map.hosts[place]? = some host) :
    ∃ operation held, host.Serves graph (generate setting top).names operation held := by
  have ready := CompiledDesign.ready_of_generate generated
  obtain ⟨root, rooted⟩ := ready.rooted
  have assigns := ((ServiceMap.covers_start graph _).resolveAll rooted
    (fun site member => (ready.named site member).1) resolved).assigns
  obtain ⟨held, known, side⟩ := ServiceMap.stands_of_resolve resolved host
    (List.mem_of_getElem? listed)
  obtain ⟨-, service, operation, declared, found, present, first⟩ :=
    ready.named _ (ServiceMap.mem_serviceSites_of_get? known)
  obtain ⟨resolution, resolves, kind⟩ := assigns.resolved _ _ held known
  cases (assigns.hosts place host listed).symm.trans resolves
  obtain ⟨declared', -, endpoint⟩ := kind
  cases declared.symm.trans declared'
  have same := Option.some.inj (listed.symm.trans endpoint)
  have titled : host.service = service.name := congrArg HostEndpoint.service same
  have named : host.operation = operation.name := by
    refine (congrArg HostEndpoint.operation same).trans ?_
    rw [present]
    rfl
  obtain absent | ⟨id, module⟩ := graph.moduleOf_cases host.inst
  · rw [absent] at known
    cases known
  have wired := wired_of_generate False generated nofun id _ module
  have legible : Module.Legible _ _ _ := legible_of_generate generated module
  obtain ⟨service', operation', bundle, declared', present', -, filled, typed, -⟩ :=
    wired.placed.instances _ held known
  cases declared.symm.trans declared'
  cases present.symm.trans present'
  obtain ⟨-, slots⟩ := (wired.placed.bundles _ bundle filled).of_get (TyPool.get_of_get? typed)
  obtain ⟨ty, typed', spells⟩ := legible _ bundle filled
  cases typed.symm.trans typed'
  refine ⟨operation, held, ⟨⟨service, ?_, ?_⟩, known, side, ?_⟩⟩
  · rw [titled, found]
  · rw [named, first]
  · have labels := Simulator.labels_of_slots slots spells host.side
    simp only [Host.label, Simulator.newHost, Simulator.bundleOf?, known, filled, Option.bind_some,
      Option.map_some, Option.getD_some, labels]

theorem HostEndpoint.Serves.entry {names : Names} {host : HostEndpoint} {operation : Operation}
    {held : ServiceInstance} (serves : host.Serves graph names operation held) {entry : TableEntry}
    (describes : Artifact.Describes graph host entry) : entry = .ofEndpoint host operation := by
  obtain ⟨service, declared, offered⟩ := serves.found
  obtain ⟨service', operation', declared', offered', rfl⟩ := describes
  cases declared.symm.trans declared'
  cases offered.symm.trans offered'
  rfl

namespace Simulator

variable {design : CompiledDesign} {policy : ArbitrationPolicy} {start : Simulator} {place : Nat}

theorem roleEnd_iff_sends (produced : design.Produced) (made : withPolicy design policy = .ok start)
    {host : HostEndpoint} (listed : design.services.hosts[place]? = some host)
    {held : ServiceInstance}
    (known : (design.graph.moduleOf host.inst).services.get? host.serviceInstance = some held)
    {position : Nat} {role : HostRole} (present : start.state.hostRole? place position = some role)
    (drives : Bool) :
    start.net.roleEnd drives ⟨host.inst, held.bundle, position⟩ = .service host.serviceInstance ↔
      role.sends = drives := by
  have routed : start.state.hostRole? (HostRef.mk place position).host
      (HostRef.mk place position).role = some role := present
  obtain ⟨site, host', slot, slotted, rfl⟩ := (hostRole?_eq_some produced made).1 routed
  have ⟨listed', owner, index, ⟨held', known', _, bundle⟩, _⟩ := slotted
  cases listed.symm.trans listed'
  cases known.symm.trans known'
  have stood : site = ⟨host.inst, held.bundle, position⟩ := by
    rw [← owner, ← bundle]
    exact congrArg (RoleSite.mk site.inst site.bundle) index
  rw [← stood]
  constructor
  · intro stands
    have attached : start.net.Attaches ⟨place, position⟩ drives site :=
      ⟨_, stands, (endpoint_eq_host produced made).2 ⟨host, listed, by rw [owner]; rfl⟩, index⟩
    obtain ⟨host'', slot'', other, sends⟩ := (attaches_iff produced made).1 attached
    obtain ⟨-, rfl, rfl⟩ := slotted.unique other
    exact sends
  · intro sends
    obtain ⟨id, stands, leads, -⟩ := (attaches_iff produced made).2 ⟨host, slot, slotted, sends⟩
    obtain ⟨other, listed'', reached⟩ := (endpoint_eq_host produced made).1 leads
    cases listed.symm.trans listed''
    rw [(Prod.mk.inj reached).2]
    exact stands

/-- A host endpoint of a simulator at any time is the one that the design lists there, apart from
the values on their way. -/
theorem host_after (made : withPolicy design policy = .ok start) (actions : List Action)
    {held : Host} (stands : (start.after actions).state.hosts[place]? = some held) :
    ∃ host, design.services.hosts[place]? = some host ∧
      held.label = (newHost design.graph design.names host).label := by
  obtain ⟨-, -, hosts, -⟩ := withPolicy_starts made
  have alike : (start.after actions).state.hosts.map Host.label =
      start.state.hosts.map Host.label :=
    (alike_after start actions).hosts
  have here := congrArg (fun labels : List HostLabel => labels[place]?) alike
  simp only [List.getElem?_map, stands, Option.map_some, hosts] at here
  obtain ⟨_, mapped, same⟩ := Option.map_eq_some_iff.1 here.symm
  obtain ⟨host, listed, rfl⟩ := Option.map_eq_some_iff.1 mapped
  exact ⟨host, listed, same.symm⟩

end Simulator

theorem Host.role_of_label {host other : Host} (same : host.label = other.label) {position : Nat}
    {role : HostRole} (present : host.roles[position]? = some role) :
    ∃ held, other.roles[position]? = some held ∧ held.label = role.label := by
  have here := congrArg (fun label : HostLabel => label.roles[position]?) same
  simp only [Host.label, List.getElem?_map, present, Option.map_some] at here
  exact Option.map_eq_some_iff.1 here.symm

/-- An entry of the table and a host endpoint of a simulator are of one endpoint. Position by
position they have the same roles, which are those of the operation named in the entry; and in the
netlist the service instance of the endpoint is the source of those that the host sends, and the
sink of the others. -/
structure TableEntry.Agrees (net : Netlist) (place : Nat) (entry : TableEntry) (host : Host) :
    Prop where
  path : entry.path = host.path
  channels : entry.channels = host.roles.map fun role =>
    ⟨role.name, role.sends, role.payload.text⟩
  operation : ∃ service operation,
    net.graph.services.find? (·.name = entry.service) = some service ∧
    service.operation? entry.operation = some operation ∧
    operation.bundle.map (fun role => (role.name, role.payload)) =
      host.roles.map fun role => (role.name, role.payload)
  ends : ∃ inst id held, net.graph.Shows (.service inst id) entry.path ∧
    net.endpoint inst id = .ok (.host place) ∧
    (net.graph.moduleOf inst).services.get? id = some held ∧
    ∀ position role, host.roles[position]? = some role →
      (net.source ⟨inst, held.bundle, position⟩ = .service id ↔ role.sends = true) ∧
        (net.sink ⟨inst, held.bundle, position⟩ = .service id ↔ role.sends = false)

theorem TableEntry.agrees_of_serves {design : CompiledDesign} {policy : ArbitrationPolicy}
    {start : Simulator} (produced : design.Produced)
    (made : Simulator.withPolicy design policy = .ok start) {place : Nat} {endpoint : HostEndpoint}
    (listed : design.services.hosts[place]? = some endpoint)
    (shows : design.graph.Shows endpoint.part (AppPath.text endpoint.path)) {operation : Operation}
    {held : ServiceInstance} (serves : endpoint.Serves design.graph design.names operation held)
    {host : Host}
    (label : host.label = (Simulator.newHost design.graph design.names endpoint).label) :
    (TableEntry.ofEndpoint endpoint operation).Agrees start.net place host := by
  obtain ⟨graph, -⟩ := Simulator.withPolicy_ok made
  obtain ⟨-, -, hosts, -⟩ := Simulator.withPolicy_starts made
  have labels := HostLabel.mk.inj (label.trans serves.label)
  have roles : operation.bundle.map (RoleLabel.ofRole endpoint.side) =
      host.roles.map HostRole.label := labels.2.symm
  have started : start.state.hosts[place]? =
      some (Simulator.newHost design.graph design.names endpoint) := by
    rw [hosts, List.getElem?_map, listed, Option.map_some]
  refine ⟨labels.1.symm, ?_, ?_, endpoint.inst, endpoint.serviceInstance, held, ?_, ?_, ?_, ?_⟩
  · have channels := congrArg (List.map fun role : RoleLabel =>
      (⟨role.name, role.sends, role.payload.text⟩ : TableChannel)) roles
    rwa [List.map_map, List.map_map] at channels
  · obtain ⟨service, declared, offered⟩ := serves.found
    have types := congrArg (List.map fun role : RoleLabel => (role.name, role.payload)) roles
    rw [List.map_map, List.map_map] at types
    exact ⟨service, operation, graph ▸ declared, offered, types⟩
  · rwa [graph]
  · exact (Simulator.endpoint_eq_host produced made).2 ⟨endpoint, listed, rfl⟩
  · rw [graph]
    exact serves.known
  · intro position role present
    obtain ⟨role', standing, same⟩ := Host.role_of_label label present
    have held : start.state.hostRole? place position = some role' := by
      rw [SimState.hostRole?, started]
      exact standing
    have drives := Simulator.roleEnd_iff_sends produced made listed serves.known held
    have sends : role'.sends = role.sends := congrArg RoleLabel.sends same
    rw [sends] at drives
    exact ⟨drives true, drives false⟩

/-- The table of host endpoints and a simulator of the same design describe the same endpoints at
any time. -/
theorem CompiledDesign.endpoint_table_agrees
    (generated : (generate setting top).outcome = .ok graph) {name version : String}
    {capabilities : Capabilities} {policy : ArbitrationPolicy} {design : CompiledDesign}
    {warnings : List Diagnostic}
    (compiled : compile name version graph (generate setting top).names .cosim capabilities policy =
      (.ok design, warnings)) :
    ∃ artifact entries, design.artifact? "cosim/endpoints.json" = some artifact ∧
      artifact.text?.bind EndpointTable.read? = some ⟨name, entries⟩ ∧
      ∀ arbitration start actions, Simulator.withPolicy design arbitration = .ok start →
        entries.map (·.path) = (start.after actions).state.hosts.map (·.path) ∧
        ∀ (place : Nat) (entry : TableEntry) (host : Host), entries[place]? = some entry →
          (start.after actions).state.hosts[place]? = some host →
          entry.Agrees (start.after actions).net place host := by
  obtain ⟨artifact, entries, found, read, describes⟩ := table_of_compile compiled
  obtain ⟨rfl, names, resolved⟩ := parts_of_compile compiled
  have produced : design.Produced := .compile generated compiled
  refine ⟨artifact, entries, found, read, fun arbitration start actions made => ⟨?_, ?_⟩⟩
  · rw [Artifact.paths_of_describes describes, (Simulator.paths_after made actions).2]
  · intro place entry host present stands
    obtain ⟨endpoint, listed, label⟩ := Simulator.host_after made actions stands
    obtain ⟨operation, held, serves⟩ := HostEndpoint.serves_of_generate generated resolved listed
    have shows : design.graph.Shows endpoint.part (AppPath.text endpoint.path) :=
      (ServiceMap.lists_of_resolve resolved).shows_host endpoint (List.mem_of_getElem? listed)
    have agrees := TableEntry.agrees_of_serves produced made listed shows (names ▸ serves) label
    rw [(Simulator.after_keeps start actions).1]
    rwa [serves.entry (Artifact.describes_get describes listed present)]

theorem MemoryDesign.endpoint_table_of_memory :
    ∃ graph design start artifact entries,
      (generate MemoryDesign.hosted "Top").outcome = .ok graph ∧
      Simulator.withPolicy design .roundRobin = .ok start ∧
      design.artifact? "cosim/endpoints.json" = some artifact ∧
      artifact.text?.bind EndpointTable.read? = some ⟨"design", entries⟩ ∧
      entries.map (·.path) = ["Top.write", "Top.read"] ∧
      ∀ place entry host, entries[place]? = some entry → start.state.hosts[place]? = some host →
        TableEntry.Agrees start.net place entry host := by
  have facts : ((MemoryDesign.hosted.simulation? "Top").map fun made =>
      made.2.state.hosts.map (·.path)) = some ["Top.write", "Top.read"] := by
    decide +kernel
  obtain ⟨⟨design, start⟩, simulation, paths⟩ := Option.map_eq_some_iff.1 facts
  obtain ⟨graph, generated, compiled, made⟩ := Setting.stages_of_simulation simulation
  obtain ⟨artifact, entries, found, read, agree⟩ :=
    CompiledDesign.endpoint_table_agrees generated (Prod.ext compiled rfl)
  obtain ⟨listed, agree⟩ := agree .roundRobin start [] made
  exact ⟨graph, design, start, artifact, entries, generated, made, found, read, listed.trans paths,
    agree⟩

end Elastic
