import Elastic.Proofs.Sim.Connection
import Elastic.Proofs.Sim.Cycle
import Elastic.Proofs.Sim.Effects

namespace Elastic

open Query

/-! What the signals of a cycle say about the clients of memories: who is granted a port, when a
response is offered, and that both never happen to one client at once. -/

namespace SimState

def pendingAt? (state : SimState) (ref : ClientRef) : Option SimValue :=
  (state.client? ref).bind (·.pending)

def outboundAt? (state : SimState) (host role : Nat) : Option SimValue :=
  (state.hostRole? host role).bind (·.outbound.head?)

def offered? (state : SimState) (role : Nat) : Endpoint → Option SimValue
  | .memory memory port client => state.pendingAt? ⟨memory, port, client⟩
  | .host host => state.outboundAt? host role

variable {state : SimState} {ref : ClientRef}

theorem pending_eq (present : (state.client? ref).isSome = true) :
    pending state ref = pure (state.pendingAt? ref) := by
  obtain ⟨held, present⟩ := Option.isSome_iff_exists.1 present
  unfold pending pendingAt?
  simp only [present]
  rfl

theorem isSome_client? {client : ServiceSite} (taken : state.clientSite? ref = some client) :
    (state.client? ref).isSome = true := by
  obtain ⟨held, present, -⟩ := Option.map_eq_some_iff.1 taken
  rw [present]
  rfl

end SimState

namespace Query

variable {net : Netlist} {state : SimState} {ref : ClientRef} {bit : Bool}

variable {inst : InstanceId} {id : ServiceInstanceId}

theorem ofExcept_bind {outcome : Except SimError α} {first : α} {next : α → Query β}
    (known : outcome = .ok first) : (ofExcept outcome >>= next) = next first := by
  rw [known]
  rfl

theorem yields_serviceReady (leads : net.endpoint inst id = .ok ref.endpoint) :
    Yields net state (serviceReady net inst id) bit ↔
      ∃ granted, (Signal.grant ref.memory ref.port).Settles net state granted ∧
        decide (granted = some ref.client) = bit := by
  unfold serviceReady
  rw [ofExcept_bind leads]
  exact yields_bind.trans (exists_congr fun granted => and_congr yields_demand yields_pure)

theorem yields_serviceValid (leads : net.endpoint inst id = .ok ref.endpoint)
    (present : (state.client? ref).isSome = true) {role : Nat} :
    Yields net state (serviceValid net state inst id role) bit ↔
      ∃ high, Yields net state (inReset state ref.memory) high ∧
        (!high && (state.pendingAt? ref).isSome) = bit := by
  unfold serviceValid
  rw [ofExcept_bind leads]
  refine yields_bind.trans (exists_congr fun high => and_congr_right fun _ => ?_)
  cases high with
  | true => exact yields_pure
  | false =>
      change Yields net state (pending state ref >>= _) bit ↔ _
      rw [SimState.pending_eq present]
      exact yields_pure

theorem yields_serviceData (leads : net.endpoint inst id = .ok ref.endpoint)
    (present : (state.client? ref).isSome = true) {role : Nat} {payload : Ty} {value : SimValue} :
    Yields net state (serviceData net state inst id role payload) value ↔
      (state.pendingAt? ref).getD (.zero payload) = value := by
  unfold serviceData
  rw [ofExcept_bind leads]
  change Yields net state (pending state ref >>= _) value ↔ _
  rw [SimState.pending_eq present]
  exact yields_pure

theorem yields_pending {held : Option SimValue}
    (yields : Yields net state (pending state ref) held) : state.pendingAt? ref = held := by
  unfold pending at yields
  unfold SimState.pendingAt?
  cases taken : state.client? ref with
  | none =>
      rw [taken] at yields
      cases yields
  | some client =>
      rw [taken] at yields
      exact yields_pure.1 yields

theorem yields_outbound {host role : Nat} {first : Option SimValue}
    (yields : Yields net state (outbound state host role) first) :
    state.outboundAt? host role = first := by
  unfold outbound at yields
  unfold SimState.outboundAt?
  cases present : state.hostRole? host role with
  | none =>
      rw [present] at yields
      cases yields
  | some held =>
      rw [present] at yields
      exact yields_pure.1 yields

theorem offered_of_service {endpoint : Endpoint} {role : Nat} {payload : Ty} {value : SimValue}
    (leads : net.endpoint inst id = .ok endpoint)
    (offers : Yields net state (serviceValid net state inst id role) true)
    (carries : Yields net state (serviceData net state inst id role payload) value) :
    state.offered? role endpoint = some value := by
  unfold serviceValid at offers
  unfold serviceData at carries
  rw [ofExcept_bind leads] at offers carries
  cases endpoint with
  | memory memory port client =>
      obtain ⟨high, -, offers⟩ := yields_bind.1 offers
      cases high with
      | true => cases yields_pure.1 offers
      | false =>
          obtain ⟨held, waits, offers⟩ := yields_bind.1 offers
          obtain ⟨held', waits', carries⟩ := yields_bind.1 carries
          obtain rfl := (yields_pending waits).symm.trans (yields_pending waits')
          obtain ⟨response, rfl⟩ := Option.isSome_iff_exists.1 (yields_pure.1 offers)
          cases yields_pure.1 carries
          exact yields_pending waits
  | host host =>
      obtain ⟨first, queued, offers⟩ := yields_bind.1 offers
      obtain ⟨first', queued', carries⟩ := yields_bind.1 carries
      obtain rfl := (yields_outbound queued).symm.trans (yields_outbound queued')
      obtain ⟨response, rfl⟩ := Option.isSome_iff_exists.1 (yields_pure.1 offers)
      cases yields_pure.1 carries
      exact yields_outbound queued

theorem requests_forall₂ {clients : List PortClient} {requested : List Bool}
    (yields : Yields net state (requests net state clients) requested) :
    List.Forall₂ (fun client bit => bit = true ↔
      client.pending = none ∧ Yields net state (requestValid net state client) true)
      clients requested := by
  induction clients generalizing requested with
  | nil =>
      cases yields_pure.1 yields
      exact .nil
  | cons client rest induction =>
      unfold requests at yields
      split at yields
      · rename_i waits
        obtain ⟨first, one, rest⟩ := yields_bind.1 yields
        obtain ⟨others, later, equal⟩ := yields_bind.1 rest
        cases yields_pure.1 one
        cases yields_pure.1 equal
        refine .cons ⟨fun raised => absurd raised Bool.false_ne_true, fun asks => ?_⟩
          (induction later)
        rw [asks.1] at waits
        cases waits
      · rename_i vacant
        obtain ⟨first, one, rest⟩ := yields_bind.1 yields
        obtain ⟨others, later, equal⟩ := yields_bind.1 rest
        cases yields_pure.1 equal
        refine .cons ⟨fun high => ?_, fun asks => one.unique asks.2⟩ (induction later)
        exact ⟨by simpa using vacant, high ▸ one⟩

theorem yields_requests {clients : List PortClient} {requested : List Bool}
    (yields : Yields net state (requests net state clients) requested) {index : Nat}
    (asks : requested.getD index false = true) :
    ∃ client, clients[index]? = some client ∧ client.pending = none ∧
      Yields net state (requestValid net state client) true := by
  obtain ⟨length, decided⟩ := List.forall₂_iff_get.1 (requests_forall₂ yields)
  have bound : index < requested.length := by
    refine Nat.lt_of_not_le fun beyond => ?_
    rw [List.getD_eq_getElem?_getD, List.getElem?_eq_none beyond] at asks
    cases asks
  have inside : index < clients.length := length ▸ bound
  rw [List.getD_eq_getElem?_getD, List.getElem?_eq_getElem bound] at asks
  exact ⟨clients[index], List.getElem?_eq_getElem inside, (decided index inside bound).1 asks⟩

end Query

namespace Arbiter

theorem select_requests {arbiter : Arbiter} {requests : List Bool} {client : Nat}
    (selected : arbiter.select requests = some client) : requests.getD client false = true := by
  unfold select at selected
  split at selected
  · obtain ⟨bound, holds, -⟩ := List.findIdx?_eq_some_iff_getElem.1 selected
    simpa [List.getD_eq_getElem?_getD, List.getElem?_eq_getElem bound] using holds
  · exact search_requests selected

end Arbiter

namespace Query

variable {net : Netlist} {state : SimState} {memory client : Nat} {port : MemoryPort}

/-- A port is granted to nobody in reset, and to the client that its arbiter selects otherwise. -/
theorem settles_grant_cases {granted : Option Nat}
    (settles : (Signal.grant memory port).Settles net state granted) :
    (Yields net state (inReset state memory) true ∧ granted = none) ∨
      Yields net state (inReset state memory) false ∧
        ∃ held requested, state.memories[memory]? = some held ∧
          Yields net state (requests net state (held.port port).clients) requested ∧
          (held.port port).arbiter.select requested = granted := by
  simp only [Signal.Settles, equation, ofGrant] at settles
  cases found : state.memories[memory]? with
  | none =>
      rw [found] at settles
      cases settles
  | some held =>
      rw [found] at settles
      simp only [yields_bind] at settles
      obtain ⟨high, reset, rest⟩ := settles
      cases high with
      | true => exact .inl ⟨reset, (yields_pure.1 rest).symm⟩
      | false =>
          obtain ⟨requested, yields, selected⟩ := yields_bind.1 rest
          exact .inr ⟨reset, held, requested, rfl, yields, yields_pure.1 selected⟩

theorem settles_grant_some (settles : (Signal.grant memory port).Settles net state (some client)) :
    Yields net state (inReset state memory) false ∧
      ∃ held, state.client? ⟨memory, port, client⟩ = some held ∧ held.pending = none ∧
        Yields net state (requestValid net state held) true := by
  obtain ⟨-, nobody⟩ | ⟨low, held, requested, found, yields, selected⟩ :=
    settles_grant_cases settles
  · cases nobody
  · obtain ⟨taken, present, idle, valid⟩ :=
      yields_requests yields (Arbiter.select_requests selected)
    refine ⟨low, taken, ?_, idle, valid⟩
    rw [SimState.client?, found]
    exact present

theorem settles_grant_none_of_reset (reset : Yields net state (inReset state memory) true) :
    (Signal.grant memory port).Settles net state none := by
  simp only [Signal.Settles, equation, ofGrant]
  cases found : state.memories[memory]? with
  | none =>
      unfold inReset at reset
      rw [found] at reset
      cases reset
  | some held =>
      exact yields_bind.2 ⟨true, reset, yields_pure.2 rfl⟩

end Query

namespace Netlist

section Client

variable {net : Netlist} {state : SimState} {ref : ClientRef} {client : ServiceSite}
  {request response : RoleSite} {value : SimValue} {bit : Bool}

theorem requestValid_eq (connects : net.Connects client request response) {held : PortClient}
    (stands : held.site = client) : requestValid net state held = roleValid net state request := by
  subst stands
  have named := connects.requests
  unfold clientRole? at named
  obtain ⟨service, known, named⟩ := Option.bind_eq_some_iff.1 named
  obtain ⟨bundle, present, named⟩ := Option.bind_eq_some_iff.1 named
  obtain ⟨role, first, named⟩ := Option.bind_eq_some_iff.1 named
  cases named
  have asked : requestRole? bundle = some role := first
  unfold requestValid
  rw [show (net.graph.moduleOf held.inst).services.get? held.serviceInstance = some service
    from known]
  simp only [show net.bundle? held.inst service.bundle = some bundle from present, asked]
  rfl

variable (routed : net.Routed state.clientSite?) (taken : state.clientSite? ref = some client)
  (connects : net.Connects client request response)

include routed taken connects

theorem ready_request : Yields net state (roleReady net request) bit ↔
    ∃ granted, (Signal.grant ref.memory ref.port).Settles net state granted ∧
      decide (granted = some ref.client) = bit := by
  unfold roleReady
  rw [connects.sink]
  refine yields_serviceReady ((routed.endpoint _ _ _).2 ?_)
  rw [connects.inside.1, taken]

theorem valid_response : Yields net state (roleValid net state response) bit ↔
    ∃ high, Yields net state (inReset state ref.memory) high ∧
      (!high && (state.pendingAt? ref).isSome) = bit := by
  unfold roleValid
  rw [connects.source]
  refine yields_serviceValid ((routed.endpoint _ _ _).2 ?_) (SimState.isSome_client? taken)
  rw [connects.inside.2, taken]

theorem data_response : Yields net state (roleData net state response) value ↔
    ∃ payload, net.rolePayload? response = some payload ∧
      (state.pendingAt? ref).getD (.zero payload) = value := by
  obtain ⟨payload, carries⟩ := exists_rolePayload? connects.source nofun
  unfold roleData
  rw [carries]
  simp only [connects.source, Option.some.injEq, exists_eq_left']
  refine yields_serviceData ((routed.endpoint _ _ _).2 ?_) (SimState.isSome_client? taken)
  rw [connects.inside.2, taken]

theorem client_of_grant
    (granted : (Signal.grant ref.memory ref.port).Settles net state (some ref.client)) :
    Yields net state (inReset state ref.memory) false ∧ state.pendingAt? ref = none ∧
      Yields net state (roleValid net state request) true ∧
      Yields net state (roleReady net request) true := by
  obtain ⟨low, held, present, idle, valid⟩ := settles_grant_some granted
  have stands : held.site = client := by
    rw [SimState.clientSite?, show state.client? ref = some held from present] at taken
    exact Option.some.inj taken
  refine ⟨low, ?_, ?_, ?_⟩
  · rw [SimState.pendingAt?, show state.client? ref = some held from present]
    exact idle
  · rwa [requestValid_eq connects stands] at valid
  · exact (ready_request routed taken connects).2 ⟨_, granted, by simp⟩

theorem Transfers.granted (moves : net.Transfers state request value) :
    (Signal.grant ref.memory ref.port).Settles net state (some ref.client) := by
  obtain ⟨granted, settles, same⟩ := (ready_request routed taken connects).1 moves.ready
  rwa [of_decide_eq_true same] at settles

theorem Transfers.pending (moves : net.Transfers state response value) :
    Yields net state (inReset state ref.memory) false ∧
      state.pendingAt? ref = some value := by
  obtain ⟨high, reset, offers⟩ := (valid_response routed taken connects).1 moves.valid
  simp only [Bool.and_eq_true, Bool.not_eq_true'] at offers
  obtain ⟨rfl, some⟩ := offers
  obtain ⟨held, pending⟩ := Option.isSome_iff_exists.1 some
  obtain ⟨_, -, carried⟩ := (data_response routed taken connects).1 moves.data
  rw [pending, Option.getD_some] at carried
  exact ⟨reset, pending.trans (congrArg _ carried)⟩

theorem offers_response (low : Yields net state (inReset state ref.memory) false)
    (pending : state.pendingAt? ref = some value) :
    Yields net state (roleValid net state response) true ∧
      Yields net state (roleData net state response) value := by
  constructor
  · exact (valid_response routed taken connects).2 ⟨false, low, by rw [pending]; rfl⟩
  · obtain ⟨payload, carries⟩ := exists_rolePayload? connects.source nofun
    exact (data_response routed taken connects).2 ⟨payload, carries, by rw [pending]; rfl⟩

theorem still_of_reset (high : Yields net state (inReset state ref.memory) true) :
    Yields net state (roleValid net state response) false ∧
      Yields net state (roleReady net request) false := by
  constructor
  · exact (valid_response routed taken connects).2 ⟨true, high, rfl⟩
  · exact (ready_request routed taken connects).2
      ⟨none, settles_grant_none_of_reset high, rfl⟩

end Client

end Netlist

theorem exists_of_map_ok {outcome : Except ε α} {change : α → β} {value : β}
    (mapped : outcome.map change = .ok value) :
    ∃ held, outcome = .ok held ∧ change held = value := by
  cases outcome with
  | error error => cases mapped
  | ok held => exact ⟨held, rfl, Except.ok.inj mapped⟩

theorem Memory.port_of_request {memory : Memory} {port : MemoryPort} {value : SimValue}
    {request : Request} (served : memory.request port value = .ok request) :
    request.port = port := by
  unfold Memory.request at served
  split at served
  · obtain ⟨place, -, rfl⟩ := exists_of_map_ok served
    rfl
  · obtain ⟨place, -, rfl⟩ := exists_of_map_ok served
    rfl
  · cases served

theorem Memory.request_cases {memory : Memory} {port : MemoryPort} {value : SimValue}
    {served : Request} (serves : memory.request port value = .ok served) :
    (∃ address, port = .read ∧ value = .bits address ∧ address.toNat < memory.words.size ∧
      served = .read address.toNat) ∨
    ∃ address word, port = .write ∧ value = .struct [.bits address, word] ∧
      address.toNat < memory.words.size ∧ served = .write address.toNat word := by
  have place {address : UInt64} {place : Nat} (placed : memory.place address = .ok place) :
      address.toNat < memory.words.size ∧ place = address.toNat := by
    unfold Memory.place at placed
    split at placed
    · rename_i bound
      exact ⟨bound, (Except.ok.inj placed).symm⟩
    · cases placed
  unfold Memory.request at serves
  split at serves
  · rename_i address
    obtain ⟨_, placed, rfl⟩ := exists_of_map_ok serves
    obtain ⟨bound, rfl⟩ := place placed
    exact .inl ⟨address, rfl, rfl, bound, rfl⟩
  · rename_i address word
    obtain ⟨_, placed, rfl⟩ := exists_of_map_ok serves
    obtain ⟨bound, rfl⟩ := place placed
    exact .inr ⟨address, word, rfl, rfl, bound, rfl⟩
  · cases serves

namespace Simulator

variable {sim : Simulator} {site : RoleSite} {value : SimValue} {effect : Effect}
  {effects : List Effect} {ref : ClientRef}

theorem mem_sourceEffects (source : sim.sourceEffects site = .ok effects)
    (member : effect ∈ effects) :
    ∃ id endpoint, sim.net.source site = .service id ∧
      sim.net.endpoint site.inst id = .ok endpoint ∧
      effect = sourceEffect site.role endpoint := by
  unfold sourceEffects at source
  split at source
  · rename_i id stands
    obtain ⟨endpoint, leads, rfl⟩ := exists_of_map_ok source
    exact ⟨id, endpoint, stands, leads, List.mem_singleton.1 member⟩
  · cases source
    cases member

theorem mem_sinkEffects (sink : sim.sinkEffects site value = .ok effects)
    (member : effect ∈ effects) :
    ∃ id endpoint, sim.net.sink site = .service id ∧ sim.net.endpoint site.inst id = .ok endpoint ∧
      effects = [effect] ∧ sinkEffect sim.state site.role value endpoint = .ok effect := by
  unfold sinkEffects at sink
  split at sink
  · rename_i id stands
    cases leads : sim.net.endpoint site.inst id with
    | error error =>
        rw [leads] at sink
        cases sink
    | ok endpoint =>
        cases effect' : sinkEffect sim.state site.role value endpoint with
        | error error =>
            rw [leads] at sink
            simp only [bind, Except.bind, effect'] at sink
            cases sink
        | ok held =>
            rw [leads] at sink
            simp only [bind, Except.bind, effect'] at sink
            cases sink
            cases List.mem_singleton.1 member
            exact ⟨id, endpoint, stands, leads, rfl, effect'⟩
  · cases sink
    cases member

theorem written_sourceEffects (source : sim.sourceEffects site = .ok effects) (memory : Nat) :
    effects.flatMap (Effect.written memory) = [] := by
  rw [List.flatMap_eq_nil_iff]
  intro effect member
  obtain ⟨id, endpoint, -, -, rfl⟩ := mem_sourceEffects source member
  cases endpoint <;> rfl

theorem endpoint_of_sourceEffect {role : Nat} {endpoint : Endpoint}
    (about : (sourceEffect role endpoint).ref? = some ref) : endpoint = ref.endpoint := by
  cases endpoint with
  | memory memory port client =>
      cases about
      rfl
  | host host => cases about

theorem sinkEffect_memory {state : SimState} {role memory client : Nat} {port : MemoryPort}
    (served : sinkEffect state role value (.memory memory port client) = .ok effect) :
    ∃ held request, state.memories[memory]? = some held ∧
      held.request port value = .ok request ∧ effect = .accept memory client request := by
  unfold sinkEffect at served
  dsimp only at served
  split at served
  · cases served
  · rename_i held present
    obtain ⟨request, known, rfl⟩ := exists_of_map_ok served
    exact ⟨held, request, present, known, rfl⟩

theorem endpoint_of_sinkEffect {state : SimState} {role : Nat} {endpoint : Endpoint}
    (served : sinkEffect state role value endpoint = .ok effect)
    (about : effect.ref? = some ref) : endpoint = ref.endpoint := by
  cases endpoint with
  | memory memory port client =>
      obtain ⟨held, request, -, known, rfl⟩ := sinkEffect_memory served
      cases about
      rw [ClientRef.endpoint, Memory.port_of_request known]
  | host host =>
      cases served
      cases about

section Client

variable {client : ServiceSite} {request response : RoleSite} {sites : List RoleSite}
  (routed : sim.net.Routed sim.state.clientSite?)
  (taken : sim.state.clientSite? ref = some client)
  (connects : sim.net.Connects client request response)

include routed taken connects

theorem sinkEffects_request (sink : sim.sinkEffects request value = .ok effects) :
    ∃ held served, sim.state.memories[ref.memory]? = some held ∧
      held.request ref.port value = .ok served ∧
      effects = [.accept ref.memory ref.client served] := by
  have leads : sim.net.endpoint request.inst client.2 = .ok ref.endpoint := by
    refine (routed.endpoint _ _ _).2 ?_
    rw [connects.inside.1, taken]
  unfold sinkEffects at sink
  simp only [connects.sink, leads, bind, Except.bind] at sink
  cases served : sinkEffect sim.state request.role value ref.endpoint with
  | error error =>
      rw [served] at sink
      cases sink
  | ok effect =>
      rw [served] at sink
      cases sink
      obtain ⟨held, known, present, request, rfl⟩ := sinkEffect_memory served
      exact ⟨held, known, present, request, rfl⟩

theorem sourceEffects_response (source : sim.sourceEffects response = .ok effects) :
    effects = [.retire ref.memory ref.port ref.client] := by
  have leads : sim.net.endpoint response.inst client.2 = .ok ref.endpoint := by
    refine (routed.endpoint _ _ _).2 ?_
    rw [connects.inside.2, taken]
  unfold sourceEffects at source
  simp only [connects.source, leads] at source
  cases source
  rfl

theorem role_of_source {site : RoleSite} (source : sim.sourceEffects site = .ok effects)
    (member : effect ∈ effects) (about : effect.ref? = some ref) : site = response := by
  obtain ⟨id, endpoint, stands, leads, rfl⟩ := mem_sourceEffects source member
  rw [endpoint_of_sourceEffect about] at leads
  obtain ⟨other, taken', role⟩ := routed.response_of_source stands leads
  cases taken.symm.trans taken'
  exact Option.some.inj (role.symm.trans connects.responses)

theorem role_of_sink {site : RoleSite} (sink : sim.sinkEffects site value = .ok effects)
    (member : effect ∈ effects) (about : effect.ref? = some ref) : site = request := by
  obtain ⟨id, endpoint, stands, leads, -, served⟩ := mem_sinkEffects sink member
  rw [endpoint_of_sinkEffect served about] at leads
  obtain ⟨other, taken', role⟩ := routed.request_of_sink stands leads
  cases taken.symm.trans taken'
  exact Option.some.inj (role.symm.trans connects.requests)

theorem Performs.spares (performs : sim.Performs sites effects)
    (request_rests : request ∈ sites → sim.net.Rests sim.state request)
    (response_rests : response ∈ sites → sim.net.Rests sim.state response) :
    ∀ effect ∈ effects, effect.ref? ≠ some ref := by
  intro effect member about
  obtain ⟨site, inside, value, first, second, moves, source, sink, own⟩ := performs.origin member
  cases own with
  | inl own =>
      have same := role_of_source routed taken connects source own about
      subst same
      exact moves.not_rests (response_rests inside)
  | inr own =>
      have same := role_of_sink routed taken connects sink own about
      subst same
      exact moves.not_rests (request_rests inside)

end Client

/-- What a memory accepts in a cycle comes from a transfer at the request role of the client. -/
theorem Performs.transfer_of_accept {sites : List RoleSite} {memory client : Nat}
    {request : Request} (performs : sim.Performs sites effects)
    (routed : sim.net.Routed sim.state.clientSite?)
    (member : .accept memory client request ∈ effects) :
    ∃ site ∈ sites, ∃ stands value,
      sim.state.clientSite? ⟨memory, request.port, client⟩ = some stands ∧
      sim.net.clientRole? stands .toService = some site ∧
      sim.net.Transfers sim.state site value := by
  obtain ⟨site, inside, value, first, second, moves, source, sink, own⟩ := performs.origin member
  cases own with
  | inl own =>
      obtain ⟨id, endpoint, -, -, equal⟩ := mem_sourceEffects source own
      cases endpoint <;> cases equal
  | inr own =>
      obtain ⟨id, endpoint, stands, leads, -, served⟩ := mem_sinkEffects sink own
      rw [endpoint_of_sinkEffect served rfl] at leads
      obtain ⟨client', taken, role⟩ := routed.request_of_sink stands leads
      exact ⟨site, inside, client', value, taken, role, moves⟩

/-- A client's request is accepted in a cycle, with its payload. -/
def Accepts (sim : Simulator) (ref : ClientRef) (value : SimValue) : Prop :=
  ∃ client request, sim.state.clientSite? ref = some client ∧
    sim.net.clientRole? client .toService = some request ∧
    sim.net.Transfers sim.state request value

theorem Accepts.granted (routed : sim.net.Routed sim.state.clientSite?)
    (accepts : sim.Accepts ref value) :
    (Signal.grant ref.memory ref.port).Settles sim.net sim.state (some ref.client) ∧
      Yields sim.net sim.state (inReset sim.state ref.memory) false ∧
      sim.state.pendingAt? ref = none := by
  obtain ⟨client, request, taken, asks, moves⟩ := accepts
  obtain ⟨request', response, connects⟩ := routed.connects taken
  cases asks.symm.trans connects.requests
  have grant := moves.granted routed taken connects
  obtain ⟨low, vacant, -⟩ := Netlist.client_of_grant routed taken connects grant
  exact ⟨grant, low, vacant⟩

theorem Accepts.single (routed : sim.net.Routed sim.state.clientSite?)
    (accepts : sim.Accepts ref value) {other : ClientRef} {value' : SimValue}
    (accepts' : sim.Accepts other value') (memory : other.memory = ref.memory)
    (port : other.port = ref.port) : other = ref := by
  have grant := (accepts.granted routed).1
  have grant' := (accepts'.granted routed).1
  rw [memory, port] at grant'
  have client := Option.some.inj (grant'.unique grant)
  obtain ⟨_, _, _⟩ := other
  subst memory port client
  rfl

end Simulator

end Elastic
