import Elastic.Proofs.Sim.Layout
import Elastic.Proofs.Sim.Transfers

namespace Elastic

open Query

/-! The roles of host endpoints. Each belongs to one role of one bundle, where the host stands at
one end; and in a cycle nothing but a transfer there changes what is queued for it. -/

structure HostRef where
  host : Nat
  role : Nat
deriving DecidableEq

namespace Flow

def side (flow : Flow) (drives : Bool) : ServiceSide :=
  if drives then flow.source else flow.target

theorem hostSends_iff {side : ServiceSide} {flow : Flow} {sends : Bool} :
    hostSends side flow = sends ↔ side = flow.side sends := by
  cases side <;> cases flow <;> cases sends <;> simp [hostSends, Flow.side, source, target]

end Flow

namespace Netlist

variable {net : Netlist} {site : RoleSite} {ref : HostRef} {sends : Bool}

def roleEnd (net : Netlist) (drives : Bool) (site : RoleSite) : RoleEnd :=
  if drives then net.source site else net.sink site

theorem roleEnd_eq_service {id : ServiceInstanceId} : net.roleEnd sends site = .service id ↔
    ∃ bundle slot, net.bundle? site.inst site.bundle = some bundle ∧
      bundle.roles[site.role]? = some slot ∧ bundle.at (slot.flow.side sends) = .service id := by
  cases sends with
  | true => exact source_eq_service
  | false => exact sink_eq_service

/-- The host stands, with a role of an endpoint, at an end of a role of a bundle. -/
def Attaches (net : Netlist) (ref : HostRef) (sends : Bool) (site : RoleSite) : Prop :=
  ∃ id, net.roleEnd sends site = .service id ∧
    net.endpoint site.inst id = .ok (.host ref.host) ∧ site.role = ref.role

/-- The one place where a role of a host endpoint stands, at the end that drives or at the one that
takes. -/
structure Hosts (net : Netlist) (ref : HostRef) (sends : Bool) (site : RoleSite) : Prop where
  attached : net.Attaches ref sends site
  served : site ∈ net.servedRoles
  sole : ∀ sends' site', net.Attaches ref sends' site' → sends' = sends ∧ site' = site

end Netlist

namespace CompiledDesign

theorem Produced.resolved {design : CompiledDesign} (produced : design.Produced) :
    ∃ names, ServiceMap.resolve design.graph names = .ok design.services := by
  cases produced with
  | compile generated compiled =>
      obtain ⟨rfl, resolved⟩ := resolve_of_compile compiled
      exact ⟨_, resolved⟩

theorem Built.produced {design : CompiledDesign} (built : design.Built) : design.Produced := by
  cases built with
  | compile composed generated compiled => exact .compile generated compiled

end CompiledDesign

namespace Simulator

variable {design : CompiledDesign} {policy : ArbitrationPolicy} {sim : Simulator}

theorem endpoint_eq_host (produced : design.Produced)
    (made : withPolicy design policy = .ok sim) {inst : InstanceId} {id : ServiceInstanceId}
    {place : Nat} : sim.net.endpoint inst id = .ok (.host place) ↔
      ∃ host, design.services.hosts[place]? = some host ∧ host.site = (inst, id) := by
  obtain ⟨names, resolved⟩ := produced.resolved
  obtain ⟨-, nodup⟩ := ServiceMap.sound_of_resolve resolved
  obtain ⟨-, entries, memoriesOf, endpoints⟩ := withPolicy_ok made
  rw [Netlist.endpoint_eq_ok (nodup_endpoints made nodup), endpoints, List.mem_append]
  constructor
  · intro member
    obtain routed | listed := member
    · obtain ⟨_, _, _, _, _, _, _, _, _, _, _, equal⟩ := memoriesOf.origin _ routed
      cases equal
    · obtain ⟨⟨host, index⟩, inside, equal⟩ := List.mem_map.1 listed
      cases equal
      exact ⟨host, List.mem_zipIdx_iff_getElem?.1 inside, rfl⟩
  · intro facts
    obtain ⟨host, known, site⟩ := facts
    refine .inr (List.mem_map.2 ⟨(host, place), List.mem_zipIdx_iff_getElem?.2 known, ?_⟩)
    rw [← site]
    rfl

structure HostSlot (design : CompiledDesign) (ref : HostRef) (site : RoleSite)
    (host : HostEndpoint) (slot : RoleSlot) : Prop where
  listed : design.services.hosts[ref.host]? = some host
  inst : site.inst = host.inst
  role : site.role = ref.role
  stands : ∃ service,
    (design.graph.moduleOf host.inst).services.get? host.serviceInstance = some service ∧
      service.side = host.side ∧ site.bundle = service.bundle
  filled : ∃ bundle, (design.graph.moduleOf site.inst).bundles.get? site.bundle = some bundle ∧
    bundle.roles[site.role]? = some slot

theorem HostSlot.unique {ref : HostRef} {site site' : RoleSite} {host host' : HostEndpoint}
    {slot slot' : RoleSlot} (one : HostSlot design ref site host slot)
    (other : HostSlot design ref site' host' slot') :
    site = site' ∧ host = host' ∧ slot = slot' := by
  obtain ⟨listed, inst, role, ⟨service, known, -, bundle⟩, held, filled, inside⟩ := one
  obtain ⟨listed', inst', role', ⟨service', known', -, bundle'⟩, held', filled', inside'⟩ := other
  cases listed.symm.trans listed'
  cases known.symm.trans known'
  obtain ⟨_, _, _⟩ := site
  obtain ⟨_, _, _⟩ := site'
  cases inst.trans inst'.symm
  cases bundle.trans bundle'.symm
  cases role.trans role'.symm
  cases filled.symm.trans filled'
  cases inside.symm.trans inside'
  exact ⟨rfl, rfl, rfl⟩

theorem hostRole?_eq_some (produced : design.Produced)
    (made : withPolicy design policy = .ok sim) {ref : HostRef} {held : HostRole} :
    sim.state.hostRole? ref.host ref.role = some held ↔
      ∃ site host slot, HostSlot design ref site host slot ∧
        newHostRole design.graph design.names host.side slot = held := by
  obtain ⟨names, resolved⟩ := produced.resolved
  obtain ⟨-, -, hosts, -⟩ := withPolicy_starts made
  rw [SimState.hostRole?, hosts, List.getElem?_map]
  constructor
  · intro present
    obtain ⟨_, mapped, present⟩ := Option.bind_eq_some_iff.1 present
    obtain ⟨host, listed, rfl⟩ := Option.map_eq_some_iff.1 mapped
    obtain ⟨service, known, side⟩ := ServiceMap.stands_of_resolve resolved host
      (List.mem_of_getElem? listed)
    simp only [newHost, bundleOf?, known, Option.bind_some] at present
    cases filled : (design.graph.moduleOf host.inst).bundles.get? service.bundle with
    | none => simp [filled] at present
    | some bundle =>
        simp only [filled, Option.map_some, Option.getD_some, List.getElem?_map] at present
        obtain ⟨slot, inside, made⟩ := Option.map_eq_some_iff.1 present
        exact ⟨⟨host.inst, service.bundle, ref.role⟩, host, slot,
          ⟨listed, rfl, rfl, ⟨service, known, side, rfl⟩, bundle, filled, inside⟩, made⟩
  · intro facts
    obtain ⟨site, host, slot, ⟨listed, inst, role, ⟨service, known, -, bundle⟩, held, filled,
      inside⟩, rfl⟩ := facts
    rw [inst, bundle] at filled
    rw [role] at inside
    simp [listed, newHost, bundleOf?, known, filled, inside]

theorem attaches_iff (produced : design.Produced) (made : withPolicy design policy = .ok sim)
    {ref : HostRef} {sends : Bool} {site : RoleSite} : sim.net.Attaches ref sends site ↔
      ∃ host slot, HostSlot design ref site host slot ∧ hostSends host.side slot.flow = sends := by
  obtain ⟨names, resolved⟩ := produced.resolved
  obtain ⟨graph, -⟩ := withPolicy_ok made
  have ends {bundle : Bundle} {side : ServiceSide} {id : ServiceInstanceId}
      (held : sim.net.bundle? site.inst site.bundle = some bundle) :
      bundle.at side = .service id ↔
        ∃ service, (design.graph.moduleOf site.inst).services.get? id = some service ∧
          service.bundle = site.bundle ∧ service.side = side := by
    rw [Netlist.bundle?, graph] at held
    obtain absent | ⟨place, module⟩ := design.graph.moduleOf_cases site.inst
    · rw [absent] at held
      cases held
    · exact (produced.wired place _ module).served.ends site.bundle bundle side id held
  constructor
  · intro attached
    obtain ⟨id, stands, leads, role⟩ := attached
    obtain ⟨host, listed, same⟩ := (endpoint_eq_host produced made).1 leads
    obtain ⟨bundle, slot, held, inside, serves⟩ := Netlist.roleEnd_eq_service.1 stands
    obtain ⟨service, known, own, side⟩ := (ends held).1 serves
    obtain ⟨inst, rfl⟩ := Prod.mk.inj same
    rw [← inst] at known
    obtain ⟨service', known', side'⟩ := ServiceMap.stands_of_resolve resolved host
      (List.mem_of_getElem? listed)
    cases known.symm.trans known'
    rw [Netlist.bundle?, graph] at held
    exact ⟨host, slot, ⟨listed, inst.symm, role, ⟨service, known, side', own.symm⟩, bundle, held,
      inside⟩, Flow.hostSends_iff.2 (side'.symm.trans side)⟩
  · intro facts
    obtain ⟨host, slot, ⟨listed, inst, role, ⟨service, known, side, own⟩, bundle, held, inside⟩,
      drives⟩ := facts
    rw [← inst] at known
    have here : sim.net.bundle? site.inst site.bundle = some bundle := by
      rw [Netlist.bundle?, graph]
      exact held
    have serves := (ends here).2 ⟨service, known, own.symm, side⟩
    rw [Flow.hostSends_iff.1 drives] at serves
    refine ⟨host.serviceInstance, ?_, ?_, role⟩
    · exact Netlist.roleEnd_eq_service.2 ⟨bundle, slot, here, inside, serves⟩
    · exact (endpoint_eq_host produced made).2 ⟨host, listed, by rw [inst]; rfl⟩

theorem hosts_of_withPolicy (produced : design.Produced)
    (made : withPolicy design policy = .ok sim) {ref : HostRef} {held : HostRole}
    (present : sim.state.hostRole? ref.host ref.role = some held) :
    ∃ site, sim.net.Hosts ref held.sends site := by
  obtain ⟨site, host, slot, slotted, rfl⟩ := (hostRole?_eq_some produced made).1 present
  have attached := (attaches_iff produced made).2 ⟨host, slot, slotted, rfl⟩
  refine ⟨site, attached, ?_, fun sends' site' attached' => ?_⟩
  · obtain ⟨id, stands, -⟩ := attached
    obtain ⟨bundle, slot, held, inside, serves⟩ := Netlist.roleEnd_eq_service.1 stands
    exact Netlist.mem_servedRoles_of_service held inside serves
  · obtain ⟨host', slot', slotted', rfl⟩ := (attaches_iff produced made).1 attached'
    obtain ⟨rfl, rfl, rfl⟩ := slotted.unique slotted'
    exact ⟨rfl, rfl⟩

theorem hosts_of_attaches (produced : design.Produced)
    (made : withPolicy design policy = .ok sim) {ref : HostRef} {sends : Bool} {site : RoleSite}
    (attached : sim.net.Attaches ref sends site) : sim.net.Hosts ref sends site := by
  obtain ⟨host, slot, slotted, -⟩ := (attaches_iff produced made).1 attached
  obtain ⟨site', hosts⟩ := hosts_of_withPolicy produced made
    ((hostRole?_eq_some produced made).2 ⟨site, host, slot, slotted, rfl⟩)
  obtain ⟨rfl, rfl⟩ := hosts.sole _ _ attached
  exact hosts

end Simulator

theorem SimState.hostRole?_modifyHostRole {state : SimState} {host role : Nat}
    {change : HostRole → HostRole} (ref : HostRef) :
    (state.modifyHostRole host role change).hostRole? ref.host ref.role =
      if HostRef.mk host role = ref then (state.hostRole? ref.host ref.role).map change
      else state.hostRole? ref.host ref.role := by
  obtain ⟨host', role'⟩ := ref
  simp only [hostRole?, modifyHostRole, List.getElem?_modify, HostRef.mk.injEq]
  cases state.hosts[host']? with
  | none => simp
  | some held =>
      by_cases same : host = host'
      · by_cases here : role = role' <;> simp [same, here, Host.modifyRole]
      · simp [same]

namespace Effect

def hostRef? : Effect → Option HostRef
  | .pop host role | .push host role _ => some ⟨host, role⟩
  | .retire _ _ _ | .accept _ _ _ => none

def about (ref : HostRef) (effects : List Effect) : List Effect :=
  effects.filter (·.hostRef? = some ref)

theorem about_append (ref : HostRef) (first second : List Effect) :
    about ref (first ++ second) = about ref first ++ about ref second :=
  List.filter_append ..

end Effect

def HostRole.handle (held : HostRole) : Effect → HostRole
  | .pop _ _ => { held with outbound := held.outbound.drop 1 }
  | .push _ _ value => { held with inbound := held.inbound ++ [value] }
  | .retire _ _ _ | .accept _ _ _ => held

namespace Effect

variable {state : SimState} {effect : Effect} {effects : List Effect}

theorem hostRole?_apply (ref : HostRef) :
    (effect.apply state).hostRole? ref.host ref.role =
      if effect.hostRef? = some ref then
        (state.hostRole? ref.host ref.role).map (·.handle effect)
      else state.hostRole? ref.host ref.role := by
  cases effect with
  | retire memory port client | accept memory client request => rfl
  | pop host role | push host role value =>
      rw [apply, SimState.hostRole?_modifyHostRole, hostRef?]
      simp only [Option.some.injEq, HostRole.handle]

theorem hostRole?_applyAll (ref : HostRef) :
    (applyAll state effects).hostRole? ref.host ref.role =
      (state.hostRole? ref.host ref.role).map ((about ref effects).foldl HostRole.handle) := by
  induction effects generalizing state with
  | nil => exact Option.map_id'.symm
  | cons effect rest induction =>
      rw [applyAll_cons, induction, hostRole?_apply]
      by_cases own : effect.hostRef? = some ref
      · rw [if_pos own, Option.map_map, about, about, List.filter_cons_of_pos (by simpa using own)]
        rfl
      · rw [if_neg own, about, about, List.filter_cons_of_neg (by simpa using own)]

end Effect

namespace Simulator

theorem hostRole?_nextState {state : SimState} {effects : List Effect} {high : List Nat}
    (ref : HostRef) : (nextState state effects high).hostRole? ref.host ref.role =
      (state.hostRole? ref.host ref.role).map
        ((Effect.about ref effects).foldl HostRole.handle) := by
  rw [← Effect.hostRole?_applyAll]
  unfold nextState
  generalize Effect.applyAll state effects = state
  induction high generalizing state with
  | nil => rfl
  | cons memory rest induction => exact induction _

variable {sim : Simulator} {site : RoleSite} {ref : HostRef} {value : SimValue}
  {effect : Effect} {effects : List Effect}

theorem attaches_of_source (source : sim.sourceEffects site = .ok effects)
    (member : effect ∈ effects) (about : effect.hostRef? = some ref) :
    sim.net.Attaches ref true site := by
  obtain ⟨id, endpoint, stands, leads, rfl⟩ := mem_sourceEffects source member
  cases endpoint with
  | memory memory port client => cases about
  | host host =>
      cases about
      exact ⟨id, stands, leads, rfl⟩

theorem attaches_of_sink (sink : sim.sinkEffects site value = .ok effects)
    (member : effect ∈ effects) (about : effect.hostRef? = some ref) :
    sim.net.Attaches ref false site := by
  obtain ⟨id, endpoint, stands, leads, -, served⟩ := mem_sinkEffects sink member
  cases endpoint with
  | memory memory port client =>
      obtain ⟨_, _, -, -, rfl⟩ := sinkEffect_memory served
      cases about
  | host host =>
      cases served
      cases about
      exact ⟨id, stands, leads, rfl⟩

def hostEffect (ref : HostRef) (sends : Bool) (value : SimValue) : Effect :=
  if sends then .pop ref.host ref.role else .push ref.host ref.role value

section

variable {sends : Bool} {sites : List RoleSite} (hosts : sim.net.Hosts ref sends site)

include hosts

theorem about_of_rests (performs : sim.Performs sites effects)
    (rests : site ∈ sites → sim.net.Rests sim.state site) : Effect.about ref effects = [] := by
  refine List.filter_eq_nil_iff.2 fun effect member about => ?_
  have about := of_decide_eq_true about
  obtain ⟨site', inside, value, first, second, moves, source, sink, own⟩ := performs.origin member
  have same : site' = site := by
    cases own with
    | inl own => exact (hosts.sole _ _ (attaches_of_source source own about)).2
    | inr own => exact (hosts.sole _ _ (attaches_of_sink sink own about)).2
  subst same
  exact moves.not_rests (rests inside)

theorem about_of_transfer {first second : List Effect} (source : sim.sourceEffects site = .ok first)
    (sink : sim.sinkEffects site value = .ok second) :
    Effect.about ref (first ++ second) = [hostEffect ref sends value] := by
  obtain ⟨id, stands, leads, role⟩ := hosts.attached
  rw [Effect.about_append]
  cases sends with
  | true =>
      have own : first = [.pop ref.host ref.role] := by
        have stands : sim.net.source site = .service id := stands
        unfold sourceEffects at source
        simp only [stands, leads, Except.map, Except.ok.injEq] at source
        rw [← source, sourceEffect, role]
      have other : Effect.about ref second = [] := by
        refine List.filter_eq_nil_iff.2 fun effect member about => ?_
        have attached := attaches_of_sink sink member (of_decide_eq_true about)
        cases (hosts.sole _ _ attached).1
      rw [own, other]
      simp [Effect.about, Effect.hostRef?, hostEffect]
  | false =>
      have own : second = [.push ref.host ref.role value] := by
        have stands : sim.net.sink site = .service id := stands
        unfold sinkEffects at sink
        simp only [stands, leads, bind, Except.bind, sinkEffect, pure, Except.pure,
          Except.ok.injEq] at sink
        rw [← sink, role]
      have other : Effect.about ref first = [] := by
        refine List.filter_eq_nil_iff.2 fun effect member about => ?_
        have attached := attaches_of_source source member (of_decide_eq_true about)
        cases (hosts.sole _ _ attached).1
      rw [own, other]
      simp [Effect.about, Effect.hostRef?, hostEffect]

/-- In a cycle the place of a role rests, with no effect about the role, or transfers one value,
with one effect. -/
theorem Cycle.about {high : List Nat} (cycle : sim.Cycle effects high) :
    (sim.net.Rests sim.state site ∧ Effect.about ref effects = []) ∨
      ∃ value, sim.net.Transfers sim.state site value ∧
        Effect.about ref effects = [hostEffect ref sends value] := by
  obtain rests | ⟨value, moves⟩ := cycle.performs.settled hosts.served
  · exact .inl ⟨rests, about_of_rests hosts cycle.performs fun _ => rests⟩
  · refine .inr ⟨value, moves, ?_⟩
    obtain ⟨earlier, later, equal⟩ := List.append_of_mem hosts.served
    have performs := cycle.performs
    rw [equal] at performs
    obtain ⟨before, first, second, after, rfl, performs, source, sink, others⟩ :=
      performs.around moves
    have single := Netlist.not_mem_of_servedRoles equal
    have early := about_of_rests hosts performs fun inside => absurd inside single.1
    have late := about_of_rests hosts others fun inside => absurd inside single.2
    have own := about_of_transfer hosts source sink
    rw [Effect.about_append, Effect.about_append, early, late, own]
    rfl

theorem outbound_of_transfer (drives : sends = true)
    (moves : sim.net.Transfers sim.state site value) :
    sim.state.outboundAt? ref.host ref.role = some value := by
  obtain ⟨id, stands, leads, role⟩ := hosts.attached
  rw [drives] at stands
  have stands : sim.net.source site = .service id := stands
  rw [← role]
  exact offered_of_source stands leads moves.valid moves.data

end

end Simulator

end Elastic
