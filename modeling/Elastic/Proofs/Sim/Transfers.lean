import Elastic.Proofs.Sim.Runs

namespace Elastic

open Query

/-! Handshakes at the two sides of a bundle. A channel that ends in a role, or starts from one, has
the valid, ready and data of the role; so both ends of a role see the same handshake, and a role
with a service at an end is transferred exactly when the channel at its other end is. -/

/-- A design that was generated and compiled. -/
inductive CompiledDesign.Produced : CompiledDesign → Prop
  | compile {setting : Setting} {top : String} {graph : Graph} {name version : String}
      {names : Names} {backend : BackendPreset} {capabilities : Capabilities}
      {policy : ArbitrationPolicy} {design : CompiledDesign} {warnings : List Diagnostic}
      (generated : (generate setting top).outcome = .ok graph)
      (compiled : CompiledDesign.compile name version graph names backend capabilities policy =
        (.ok design, warnings)) : Produced design

theorem CompiledDesign.Produced.wired {design : CompiledDesign} (produced : design.Produced) :
    ∀ id module, design.graph.modules.get? id = some module →
      module.Wired False design.graph.services design.graph.types id := by
  cases produced with
  | compile generated compiled =>
      obtain ⟨rfl, -⟩ := resolve_of_compile compiled
      exact wired_of_generate False generated nofun

def ServiceSide.opposite : ServiceSide → ServiceSide
  | .client => .server
  | .server => .client

theorem ServiceSide.eq_source_or_target (side : ServiceSide) (flow : Flow) :
    side = flow.source ∧ side.opposite = flow.target ∨
      side = flow.target ∧ side.opposite = flow.source := by
  cases side <;> cases flow <;> simp [opposite, Flow.source, Flow.target]

namespace Netlist

variable {net : Netlist} {state : SimState} {site : RoleSite} {channel : ChannelId}

/-- The signals of a channel are those of a role. -/
structure SameSignals (net : Netlist) (state : SimState) (site : RoleSite) (channel : ChannelId) :
    Prop where
  valid : ∀ bit, (Signal.valid site.inst channel).Settles net state bit ↔
    Yields net state (roleValid net state site) bit
  ready : ∀ bit, (Signal.ready site.inst channel).Settles net state bit ↔
    Yields net state (roleReady net site) bit
  data : ∀ value, (Signal.data site.inst channel).Settles net state value ↔
    Yields net state (roleData net state site) value

theorem sameSignals_of_source {held : Channel} (source : net.source site = .channel channel)
    (known : (net.graph.moduleOf site.inst).channels.get? channel = some held)
    (ends : held.consumer = .bundle site.bundle site.role) :
    net.SameSignals state site channel := by
  refine ⟨fun bit => ?_, fun bit => ?_, fun value => ?_⟩
  · unfold roleValid
    rw [source]
    exact yields_demand.symm
  · simp only [Signal.Settles, equation, withChannel, known, ends]
  · obtain ⟨payload, carries⟩ := exists_rolePayload? source (by simp)
    unfold roleData
    rw [carries, source]
    exact yields_demand.symm

theorem sameSignals_of_sink {held : Channel} (sink : net.sink site = .channel channel)
    (known : (net.graph.moduleOf site.inst).channels.get? channel = some held)
    (starts : held.producer = .bundle site.bundle site.role) :
    net.SameSignals state site channel := by
  refine ⟨fun bit => ?_, fun bit => ?_, fun value => ?_⟩
  · simp only [Signal.Settles, equation, withChannel, known, starts]
  · unfold roleReady
    rw [sink]
    exact yields_demand.symm
  · simp only [Signal.Settles, equation, withChannel, known, starts]

theorem mem_channelSites {inst : InstanceId} : (inst, channel) ∈ net.channelSites ↔
    inst < net.graph.instances.size ∧ channel < (net.graph.moduleOf inst).channels.size := by
  simp only [channelSites, List.mem_flatMap, List.mem_map, Arena.ids, List.mem_range,
    Prod.mk.injEq]
  constructor
  · intro member
    obtain ⟨_, bound, _, inside, rfl, rfl⟩ := member
    exact ⟨bound, inside⟩
  · intro bounds
    exact ⟨inst, bounds.1, channel, bounds.2, rfl, rfl⟩

section Wired

variable {services : List Service} {types : TyPool}
  (wired : ∀ id module, net.graph.modules.get? id = some module →
    module.Wired False services types id)
  {bundle : Bundle} {slot : RoleSlot} {side : ServiceSide}
  (held : net.bundle? site.inst site.bundle = some bundle)
  (known : bundle.roles[site.role]? = some slot) (stands : slot.at? side = some channel)

include wired held known stands

theorem channel_of_stands :
    ∃ held, (net.graph.moduleOf site.inst).channels.get? channel = some held ∧
      (side = slot.flow.source → net.source site = .channel channel ∧
        held.consumer = .bundle site.bundle site.role) ∧
      (side = slot.flow.target → net.sink site = .channel channel ∧
        held.producer = .bundle site.bundle site.role) := by
  obtain absent | ⟨place, module⟩ := net.graph.moduleOf_cases site.inst
  · rw [bundle?, absent] at held
    cases held
  have wired := wired place _ module
  have here : (net.graph.moduleOf site.inst).bundles.slot? site.bundle site.role = some slot :=
    Option.bind_eq_some_iff.2 ⟨bundle, held, known⟩
  have kept := wired.served.filled _ _ _ _ side held known (by rw [stands]; rfl)
  obtain ⟨channel', present, -⟩ := wired.linked.carried _ _ _ _ _ here stands
  refine ⟨channel', present, fun same => ⟨?_, ?_⟩, fun same => ⟨?_, ?_⟩⟩
  · rw [source, roleEnds_of_slot held known, ← same, kept, stands]
    rfl
  · exact (wired.linked.consumer _ _ _ _ present).2 ⟨slot, here, same ▸ stands⟩
  · rw [sink, roleEnds_of_slot held known, ← same, kept, stands]
    rfl
  · exact (wired.linked.producer _ _ _ _ present).2 ⟨slot, here, same ▸ stands⟩

theorem sameSignals_of_stands :
    net.SameSignals state site channel ∧ (site.inst, channel) ∈ net.channelSites := by
  obtain ⟨channel', present, drives, receives⟩ := channel_of_stands wired held known stands
  refine ⟨?_, mem_channelSites.2 ⟨inst_lt_of_bundle? held, Arena.lt_size_of_get? present⟩⟩
  obtain ⟨same, -⟩ | ⟨same, -⟩ := side.eq_source_or_target slot.flow
  · exact sameSignals_of_source (drives same).1 present (drives same).2
  · exact sameSignals_of_sink (receives same).1 present (receives same).2

end Wired

theorem mem_servedRoles_of_service {bundle : Bundle} {slot : RoleSlot} {side : ServiceSide}
    {id : ServiceInstanceId} (held : net.bundle? site.inst site.bundle = some bundle)
    (known : bundle.roles[site.role]? = some slot) (serves : bundle.at side = .service id) :
    site ∈ net.servedRoles := by
  refine mem_servedRoles.2 ⟨inst_lt_of_bundle? held, bundle, held, ?_,
    (List.getElem?_eq_some_iff.1 known).1⟩
  unfold isServed
  cases side with
  | client => rw [show bundle.client = .service id from serves]
  | server =>
      rw [show bundle.server = .service id from serves]
      cases bundle.client <;> rfl

end Netlist

namespace Simulator

variable {sim : Simulator} {sites : List RoleSite}

/-- A transfer of a cycle, with what it does to the services at the ends of its role. -/
structure Transfer where
  site : RoleSite
  value : SimValue
  effects : List Effect

/-- The transfers of a cycle on roles, in order. -/
inductive Tally (sim : Simulator) : List RoleSite → List Transfer → Prop
  | nil : Tally sim [] []
  | rest {site : RoleSite} {sites : List RoleSite} {transfers : List Transfer}
      (rests : sim.net.Rests sim.state site) (others : Tally sim sites transfers) :
      Tally sim (site :: sites) transfers
  | transfer {site : RoleSite} {sites : List RoleSite} {value : SimValue}
      {first second : List Effect} {transfers : List Transfer}
      (moves : sim.net.Transfers sim.state site value)
      (source : sim.sourceEffects site = .ok first)
      (sink : sim.sinkEffects site value = .ok second) (others : Tally sim sites transfers) :
      Tally sim (site :: sites) (⟨site, value, first ++ second⟩ :: transfers)

namespace Tally

variable {transfers : List Transfer}

theorem sublist (tally : sim.Tally sites transfers) :
    (transfers.map (·.site)).Sublist sites := by
  induction tally with
  | nil => exact .slnil
  | rest rests others induction => exact induction.cons _
  | transfer moves source sink others induction => exact induction.cons_cons _

theorem moves (tally : sim.Tally sites transfers) :
    ∀ transfer ∈ transfers, sim.net.Transfers sim.state transfer.site transfer.value ∧
      ∃ first second, sim.sourceEffects transfer.site = .ok first ∧
        sim.sinkEffects transfer.site transfer.value = .ok second ∧
        transfer.effects = first ++ second := by
  induction tally with
  | nil => exact nofun
  | rest rests others induction => exact induction
  | transfer moves source sink others induction =>
      intro transfer member
      cases List.mem_cons.1 member with
      | inl first =>
          subst first
          exact ⟨moves, _, _, source, sink, rfl⟩
      | inr later => exact induction transfer later

theorem mem_of_moves (tally : sim.Tally sites transfers) {site : RoleSite} (member : site ∈ sites)
    (valid : Yields sim.net sim.state (roleValid sim.net sim.state site) true)
    (ready : Yields sim.net sim.state (roleReady sim.net site) true) :
    site ∈ transfers.map (·.site) := by
  induction tally with
  | nil => cases member
  | rest rests others induction =>
      cases List.mem_cons.1 member with
      | inl first =>
          subst first
          obtain idle | ⟨-, stalls⟩ := rests
          · cases idle.unique valid
          · cases stalls.unique ready
      | inr later => exact induction later
  | transfer moves source sink others induction =>
      cases List.mem_cons.1 member with
      | inl first => exact first ▸ List.mem_cons_self ..
      | inr later => exact List.mem_cons_of_mem _ (induction later)

end Tally

theorem gives_tally (sites : List RoleSite) :
    sim.Gives (sim.transfers sites) fun result => ∃ transfers, sim.Tally sites transfers ∧
      result = (transfers.length, transfers.flatMap (·.effects)) := by
  induction sites with
  | nil => exact gives_pure ⟨[], .nil, rfl⟩
  | cons site rest induction =>
      unfold transfers
      refine (gives_transfer? site).bind fun result cases => ?_
      obtain ⟨rfl, rests⟩ | ⟨value, rfl, moves⟩ := cases
      · intro memo result after reached answered
        obtain ⟨⟨transfers, tally, equal⟩, reached⟩ := induction memo result after reached answered
        exact ⟨⟨transfers, .rest rests tally, equal⟩, reached⟩
      · refine (gives_lift _).bind fun first source => ?_
        refine (gives_lift _).bind fun second sink => ?_
        refine induction.bind fun others known => ?_
        obtain ⟨transfers, tally, rfl⟩ := known
        exact gives_pure ⟨_, .transfer moves source sink tally, rfl⟩

/-- A channel of an instance settled: its handshake has a value, and so has its data while it is
valid. -/
def Settled (sim : Simulator) (inst : InstanceId) (channel : ChannelId) : Prop :=
  ∃ valid ready, (Signal.valid inst channel).Settles sim.net sim.state valid ∧
    (Signal.ready inst channel).Settles sim.net sim.state ready ∧
    (valid = true → ∃ value, (Signal.data inst channel).Settles sim.net sim.state value)

theorem Observes.settled {seen : Observation} (observes : sim.Observes seen) :
    sim.Settled seen.site.1 seen.site.2 := by
  refine ⟨seen.valid, seen.ready, observes.valid, observes.ready, fun high => ?_⟩
  obtain ⟨value, -, carries⟩ := observes.carries high
  exact ⟨value, carries⟩

theorem settled_of_observeAll {memo : Memo}
    (observed : (sim.observeAll sim.net.channelSites [] sim.monitor).1 = .ok memo) :
    Settling.Reached sim.net sim.state memo ∧
      ∀ site ∈ sim.net.channelSites, sim.Settled site.1 site.2 := by
  obtain ⟨seen, watches, all⟩ := watches_of_observeAll .fresh (Prod.ext observed rfl)
  obtain ⟨reached, sites⟩ := all memo rfl
  refine ⟨reached, fun site member => ?_⟩
  rw [← sites] at member
  obtain ⟨one, inside, rfl⟩ := List.mem_map.1 member
  exact (watches.observes one inside).settled

theorem gives_outcome_tally : sim.Gives sim.outcome fun result => ∃ transfers,
    sim.Tally sim.net.servedRoles transfers ∧
      sim.Resets (List.range sim.state.memories.length) result.2.2 ∧
      result.1 = transfers.length ∧ result.2.1 = transfers.flatMap (·.effects) := by
  unfold outcome
  refine (gives_tally _).bind fun result known => ?_
  obtain ⟨transfers, tally, rfl⟩ := known
  exact (gives_resets _).bind fun high resets => gives_pure ⟨transfers, tally, resets, rfl, rfl⟩

/-- In a cycle that completes all channels are observed, and the count is that of the transfers. -/
theorem step_ok {count : Nat} {next : Simulator} (stepped : sim.step = (.ok count, next)) :
    (∃ memo, (sim.observeAll sim.net.channelSites [] sim.monitor).1 = .ok memo) ∧
      ∃ transfers high, sim.Tally sim.net.servedRoles transfers ∧
        sim.Resets (List.range sim.state.memories.length) high ∧ count = transfers.length ∧
        next.state = nextState sim.state (transfers.flatMap (·.effects)) high := by
  unfold step at stepped
  split at stepped
  · cases stepped
  · rename_i memo monitor observed
    have observed : (sim.observeAll sim.net.channelSites [] sim.monitor).1 = .ok memo := by
      rw [observed]
    refine ⟨⟨memo, observed⟩, ?_⟩
    split at stepped
    · cases stepped
    · rename_i count' effects high after answered
      cases stepped
      obtain ⟨⟨transfers, tally, resets, counted, rfl⟩, -⟩ :=
        gives_outcome_tally _ _ _ (settled_of_observeAll observed).1 answered
      exact ⟨transfers, high, tally, resets, counted, rfl⟩

/-- What a transfer takes out of the service that drives its role: the pending response of a memory,
or the first queued value of the host. -/
inductive Releases (sim : Simulator) (site : RoleSite) (value : SimValue)
    (id : ServiceInstanceId) : Effect → Prop
  | retire {ref : ClientRef} (leads : sim.net.endpoint site.inst id = .ok ref.endpoint)
      (gives : sim.state.pendingAt? ref = some value) :
      Releases sim site value id (.retire ref.memory ref.port ref.client)
  | pop {host : Nat} (leads : sim.net.endpoint site.inst id = .ok (.host host))
      (gives : sim.state.outboundAt? host site.role = some value) :
      Releases sim site value id (.pop host site.role)

/-- What a transfer hands to the service that its role leads to: the request that its value stands
for to a memory, and the value itself to the host. -/
inductive Receives (sim : Simulator) (site : RoleSite) (value : SimValue)
    (id : ServiceInstanceId) : Effect → Prop
  | accept {ref : ClientRef} {held : Memory} {request : Request}
      (leads : sim.net.endpoint site.inst id = .ok ref.endpoint)
      (known : sim.state.memories[ref.memory]? = some held)
      (takes : held.request ref.port value = .ok request) :
      Receives sim site value id (.accept ref.memory ref.client request)
  | push {host : Nat} (leads : sim.net.endpoint site.inst id = .ok (.host host)) :
      Receives sim site value id (.push host site.role value)

theorem offered_of_source {site : RoleSite} {value : SimValue} {id : ServiceInstanceId}
    {endpoint : Endpoint} (source : sim.net.source site = .service id)
    (leads : sim.net.endpoint site.inst id = .ok endpoint)
    (valid : Yields sim.net sim.state (roleValid sim.net sim.state site) true)
    (data : Yields sim.net sim.state (roleData sim.net sim.state site) value) :
    sim.state.offered? site.role endpoint = some value := by
  obtain ⟨payload, carries⟩ := Netlist.exists_rolePayload? source nofun
  unfold roleValid at valid
  unfold roleData at data
  rw [carries] at data
  simp only [source] at valid data
  exact offered_of_service leads valid data

theorem releases_of_source {site : RoleSite} {value : SimValue} {id : ServiceInstanceId}
    {effects : List Effect} (moves : sim.net.Transfers sim.state site value)
    (source : sim.net.source site = .service id)
    (driven : sim.sourceEffects site = .ok effects) :
    ∃ effect, effects = [effect] ∧ sim.Releases site value id effect := by
  unfold sourceEffects at driven
  rw [source] at driven
  obtain ⟨endpoint, leads, rfl⟩ := exists_of_map_ok driven
  have offered := offered_of_source source leads moves.valid moves.data
  refine ⟨_, rfl, ?_⟩
  cases endpoint with
  | memory memory port client =>
      have routed : sim.net.endpoint site.inst id =
        .ok (ClientRef.endpoint ⟨memory, port, client⟩) :=
        leads
      exact .retire routed offered
  | host host => exact .pop leads offered

theorem receives_of_sink {site : RoleSite} {value : SimValue} {id : ServiceInstanceId}
    {effects : List Effect} (sink : sim.net.sink site = .service id)
    (taken : sim.sinkEffects site value = .ok effects) :
    ∃ effect, effects = [effect] ∧ sim.Receives site value id effect := by
  unfold sinkEffects at taken
  simp only [sink] at taken
  cases leads : sim.net.endpoint site.inst id with
  | error error =>
      rw [leads] at taken
      cases taken
  | ok endpoint =>
      simp only [leads, bind, Except.bind] at taken
      cases served : sinkEffect sim.state site.role value endpoint with
      | error error =>
          rw [served] at taken
          cases taken
      | ok effect =>
          rw [served] at taken
          cases taken
          refine ⟨effect, rfl, ?_⟩
          cases endpoint with
          | memory memory port client =>
              obtain ⟨held, request, known, takes, rfl⟩ := sinkEffect_memory served
              have routed : sim.net.endpoint site.inst id =
                  .ok (ClientRef.endpoint ⟨memory, port, client⟩) := leads
              exact .accept routed known takes
          | host host =>
              cases served
              exact .push leads

theorem sourceEffects_of_channel {site : RoleSite} {channel : ChannelId}
    (source : sim.net.source site = .channel channel) : sim.sourceEffects site = .ok [] := by
  unfold sourceEffects
  rw [source]

theorem sinkEffects_of_channel {site : RoleSite} {channel : ChannelId} {value : SimValue}
    (sink : sim.net.sink site = .channel channel) : sim.sinkEffects site value = .ok [] := by
  unfold sinkEffects
  rw [sink]

theorem Tally.mem_iff {sites : List RoleSite} {transfers : List Transfer} {site : RoleSite}
    {channel : ChannelId} (tally : sim.Tally sites transfers)
    (sameSignals : sim.net.SameSignals sim.state site channel) (listed : site ∈ sites) :
    site ∈ transfers.map (·.site) ↔
      (Signal.valid site.inst channel).Settles sim.net sim.state true ∧
        (Signal.ready site.inst channel).Settles sim.net sim.state true := by
  rw [sameSignals.valid, sameSignals.ready]
  constructor
  · intro member
    obtain ⟨transfer, inside, rfl⟩ := List.mem_map.1 member
    obtain ⟨moves, -⟩ := tally.moves transfer inside
    exact ⟨moves.valid, moves.ready⟩
  · exact fun moves => tally.mem_of_moves listed moves.1 moves.2

theorem Tally.effect_of_service {sites : List RoleSite} {transfers : List Transfer}
    {services : List Service} {types : TyPool} {bundle : Bundle} {slot : RoleSlot}
    {side : ServiceSide} {channel : ChannelId} {id : ServiceInstanceId} {transfer : Transfer}
    (tally : sim.Tally sites transfers)
    (wired : ∀ id module, sim.net.graph.modules.get? id = some module →
      module.Wired False services types id)
    (held : sim.net.bundle? transfer.site.inst transfer.site.bundle = some bundle)
    (known : bundle.roles[transfer.site.role]? = some slot)
    (stands : slot.at? side = some channel) (serves : bundle.at side.opposite = .service id)
    (inside : transfer ∈ transfers) :
    ∃ effect, transfer.effects = [effect] ∧
      (side = slot.flow.target → sim.Releases transfer.site transfer.value id effect) ∧
      (side = slot.flow.source → sim.Receives transfer.site transfer.value id effect) := by
  obtain ⟨moves, first, second, source, sink, equal⟩ := tally.moves transfer inside
  obtain ⟨_, _, drives, receives⟩ := Netlist.channel_of_stands wired held known stands
  obtain ⟨driver, receiver⟩ | ⟨receiver, driver⟩ := side.eq_source_or_target slot.flow
  · cases (sourceEffects_of_channel (drives driver).1).symm.trans source
    obtain ⟨effect, rfl, receives⟩ := receives_of_sink
      (Netlist.sink_eq_service.2 ⟨bundle, slot, held, known, receiver ▸ serves⟩) sink
    refine ⟨effect, equal, fun target => ?_, fun _ => receives⟩
    exact absurd (driver.symm.trans target) slot.flow.source_ne_target
  · cases (sinkEffects_of_channel (receives receiver).1).symm.trans sink
    obtain ⟨effect, rfl, releases⟩ := releases_of_source moves
      (Netlist.source_eq_service.2 ⟨bundle, slot, held, known, driver ▸ serves⟩) source
    refine ⟨effect, by rw [equal, List.append_nil], fun _ => releases, fun source' => ?_⟩
    exact absurd (source'.symm.trans receiver) slot.flow.source_ne_target

/-- Two channels of an instance have the same valid, the same ready and the same data. -/
structure SameHandshake (sim : Simulator) (inst : InstanceId) (first second : ChannelId) :
    Prop where
  valid : ∃ bit, (Signal.valid inst first).Settles sim.net sim.state bit ∧
    (Signal.valid inst second).Settles sim.net sim.state bit
  ready : ∃ bit, (Signal.ready inst first).Settles sim.net sim.state bit ∧
    (Signal.ready inst second).Settles sim.net sim.state bit
  data : ∀ value, (Signal.data inst first).Settles sim.net sim.state value ↔
    (Signal.data inst second).Settles sim.net sim.state value
  carried : (Signal.valid inst first).Settles sim.net sim.state true →
    ∃ value, (Signal.data inst first).Settles sim.net sim.state value

theorem sameHandshake_of_sameSignals {site : RoleSite} {first second : ChannelId}
    (one : sim.net.SameSignals sim.state site first)
    (other : sim.net.SameSignals sim.state site second) (settled : sim.Settled site.inst first) :
    sim.SameHandshake site.inst first second := by
  obtain ⟨valid, ready, offers, takes, carried⟩ := settled
  refine ⟨⟨valid, offers, ?_⟩, ⟨ready, takes, ?_⟩, fun value => ?_, fun high => ?_⟩
  · exact (other.valid valid).2 ((one.valid valid).1 offers)
  · exact (other.ready ready).2 ((one.ready ready).1 takes)
  · exact (one.data value).trans (other.data value).symm
  · exact carried (offers.unique high)

/-- In every run of a produced design the channels at the two ends of a role have the same handshake
in each cycle whose channels settle, even if the cycle fails later. In a cycle that completes, a
role between a channel and a service is counted once exactly if the channel is valid and ready, with
the channel's data going to or coming from the service. -/
theorem handshakes_agree {design : CompiledDesign} {policy : ArbitrationPolicy}
    {start sim : Simulator} (produced : design.Produced)
    (made : withPolicy design policy = .ok start) {actions : List Action}
    (runs : start.after actions = sim) :
    (∀ memo, (sim.observeAll sim.net.channelSites [] sim.monitor).1 = .ok memo →
      ∀ (site : RoleSite) bundle slot driver receiver,
        sim.net.bundle? site.inst site.bundle = some bundle →
        bundle.roles[site.role]? = some slot →
        slot.at? slot.flow.source = some driver → slot.at? slot.flow.target = some receiver →
        sim.SameHandshake site.inst driver receiver) ∧
    ∀ count next, sim.step = (.ok count, next) →
      (∃ memo, (sim.observeAll sim.net.channelSites [] sim.monitor).1 = .ok memo) ∧
      ∃ (transfers : List Transfer) (high : List Nat), count = transfers.length ∧
        (transfers.map (·.site)).Nodup ∧
        sim.Resets (List.range sim.state.memories.length) high ∧
        next.state = nextState sim.state (transfers.flatMap (·.effects)) high ∧
        ∀ (site : RoleSite) bundle slot side channel id,
          sim.net.bundle? site.inst site.bundle = some bundle →
          bundle.roles[site.role]? = some slot →
          slot.at? side = some channel → bundle.at side.opposite = .service id →
          (site ∈ transfers.map (·.site) ↔
            (Signal.valid site.inst channel).Settles sim.net sim.state true ∧
              (Signal.ready site.inst channel).Settles sim.net sim.state true) ∧
          ∀ transfer ∈ transfers, transfer.site = site →
            (Signal.data site.inst channel).Settles sim.net sim.state transfer.value ∧
            ∃ effect, transfer.effects = [effect] ∧
              (side = slot.flow.target → sim.Releases site transfer.value id effect) ∧
              (side = slot.flow.source → sim.Receives site transfer.value id effect) := by
  have net : sim.net.graph = design.graph := by
    rw [← runs, (start.after_keeps actions).1, (withPolicy_ok made).1]
  have wired := produced.wired
  rw [← net] at wired
  constructor
  · intro memo observes site bundle slot driver receiver held known drives receives
    obtain ⟨sameSignals, observed⟩ := Netlist.sameSignals_of_stands wired held known drives
    obtain ⟨sameSignals', -⟩ := Netlist.sameSignals_of_stands wired held known receives
    exact sameHandshake_of_sameSignals sameSignals sameSignals'
      ((settled_of_observeAll observes).2 _ observed)
  intro count next settles
  obtain ⟨observes, transfers, high, tally, resets, counted, state⟩ := step_ok settles
  refine ⟨observes, ?_⟩
  refine ⟨transfers, high, counted, tally.sublist.nodup sim.net.nodup_servedRoles, resets, state,
    ?_⟩
  intro site bundle slot side channel id held known stands serves
  have sameSignals : sim.net.SameSignals sim.state site channel :=
    (Netlist.sameSignals_of_stands wired held known stands).1
  constructor
  · exact tally.mem_iff sameSignals (Netlist.mem_servedRoles_of_service held known serves)
  · intro transfer inside same
    subst same
    refine ⟨(sameSignals.data _).2 (tally.moves transfer inside).1.data, ?_⟩
    exact tally.effect_of_service wired held known stands serves inside

end Simulator

def Setting.simulation? (setting : Setting) (top : String) : Option (CompiledDesign × Simulator) :=
  do
    let graph ← (generate setting top).outcome.toOption
    let design ← (CompiledDesign.compile "design" "0.1.0" graph (generate setting top).names
      setting.preset setting.capabilities .roundRobin).1.toOption
    let sim ← (Simulator.withPolicy design .roundRobin).toOption
    return (design, sim)

theorem Setting.stages_of_simulation {setting : Setting} {top : String} {design : CompiledDesign}
    {sim : Simulator} (held : setting.simulation? top = some (design, sim)) :
    ∃ graph, (generate setting top).outcome = .ok graph ∧
      (CompiledDesign.compile "design" "0.1.0" graph (generate setting top).names setting.preset
        setting.capabilities .roundRobin).1 = .ok design ∧
      Simulator.withPolicy design .roundRobin = .ok sim := by
  obtain ⟨graph, generated, held⟩ := Option.bind_eq_some_iff.1 held
  obtain ⟨compiled, known, held⟩ := Option.bind_eq_some_iff.1 held
  obtain ⟨made, stands, held⟩ := Option.bind_eq_some_iff.1 held
  cases held
  exact ⟨graph, eq_ok_of_toOption generated, eq_ok_of_toOption known, eq_ok_of_toOption stands⟩

theorem Setting.produced_of_simulation {setting : Setting} {top : String} {design : CompiledDesign}
    {sim : Simulator} (held : setting.simulation? top = some (design, sim)) :
    design.Produced ∧ Simulator.withPolicy design .roundRobin = .ok sim := by
  obtain ⟨graph, generated, compiled, made⟩ := stages_of_simulation held
  exact ⟨.compile generated (Prod.ext compiled rfl), made⟩

theorem Setting.built_of_simulation {setting : Setting} {top : String} {design : CompiledDesign}
    {sim : Simulator} (composed : ∀ service ∈ setting.library.services, service.Composed)
    (held : setting.simulation? top = some (design, sim)) :
    design.Built ∧ Simulator.withPolicy design .roundRobin = .ok sim := by
  obtain ⟨graph, generated, compiled, made⟩ := stages_of_simulation held
  exact ⟨.compile composed generated (Prod.ext compiled rfl), made⟩

namespace RelayDesign

open MemoryDesign

def steps : List Step := [
  .constant addressTy 2 (some "place"),
  .bool true (some "always"),
  .wrap addressTy "place" "always" (some "question") none,
  .pack (Service.readBundle word depth) [("address", "question")] (some "inner") (some "answers"),
  .constant word 7 (some "seven"),
  .wrap word "seven" "always" (some "reply") none,
  .unpack "inner" [("data", "reply")] (some "asked"),
  .wrap addressTy "place" "always" (some "address") none,
  .pack (Service.readBundle word depth) [("address", "address")] (some "reads") none,
  .call memoryService "read" "reads" ⟨"reader", none⟩]

def setting : Setting where
  library := {
    modules := [{
      name := "Top"
      ports := [("clk", .clock), ("rst", .bit)]
      recipe := .ofSteps steps <|
        .ofSteps [.port "clk" (some "clk"), .port "rst" (some "rst")] <|
          .ofSteps realization .done }]
    services := [memoryService] }
  preset := .xrt
  capabilities := BackendPreset.xrt.capabilities

def channelsAt? (net : Netlist) (site : RoleSite) : Option (Option ChannelId × Option ChannelId) :=
  (net.slot? site).map fun slot => (slot.at? slot.flow.source, slot.at? slot.flow.target)

def serverAt? (net : Netlist) (site : RoleSite) : Option (Flow × Option ChannelId × BundleEnd) :=
  (net.bundle? site.inst site.bundle).bind fun bundle =>
    (bundle.roles[site.role]?).map fun slot => (slot.flow, slot.at? .client, bundle.at .server)

def handshakeAt? (sim : Simulator) (inst : InstanceId) (channel : ChannelId) :
    Option (Bool × Bool × SimValue) := do
  let valid ← ((sim.settle (Query.valid inst channel)).run' []).toOption
  let ready ← ((sim.settle (Query.ready inst channel)).run' []).toOption
  let data ← ((sim.settle (Query.data inst channel)).run' []).toOption
  return (valid, ready, data)

theorem settles_of_handshakeAt? {sim : Simulator} {inst : InstanceId} {channel : ChannelId}
    {valid ready : Bool} {data : SimValue}
    (settled : handshakeAt? sim inst channel = some (valid, ready, data)) :
    (Signal.valid inst channel).Settles sim.net sim.state valid ∧
      (Signal.ready inst channel).Settles sim.net sim.state ready ∧
      (Signal.data inst channel).Settles sim.net sim.state data := by
  obtain ⟨_, valid, settled⟩ := Option.bind_eq_some_iff.1 settled
  obtain ⟨_, ready, settled⟩ := Option.bind_eq_some_iff.1 settled
  obtain ⟨_, data, settled⟩ := Option.bind_eq_some_iff.1 settled
  cases settled
  exact ⟨yields_demand.1 (Simulator.yields_of_settle valid),
    yields_demand.1 (Simulator.yields_of_settle ready),
    yields_demand.1 (Simulator.yields_of_settle data)⟩

end RelayDesign

open RelayDesign in
theorem relay_handshakes_agree :
    ∃ design start next high, CompiledDesign.Produced design ∧
      Simulator.withPolicy design .roundRobin = .ok start ∧ start.step = (.ok 1, next) ∧
      start.SameHandshake 0 0 3 ∧ start.SameHandshake 0 2 1 ∧
      (Signal.data 0 4).Settles start.net start.state (.bits 2) ∧
      next.state = Simulator.nextState start.state [.accept 0 0 (.read 2)] high := by
  have inner : ((setting.simulation? "Top").map fun made =>
      (channelsAt? made.2.net ⟨0, 0, 0⟩, channelsAt? made.2.net ⟨0, 0, 1⟩)) =
      some (some (some 0, some 3), some (some 2, some 1)) := by
    decide +kernel
  have server : ((setting.simulation? "Top").bind fun made => serverAt? made.2.net ⟨0, 1, 0⟩) =
      some (.toService, some 4, .service 0) := by
    decide +kernel
  have moves : ((setting.simulation? "Top").map fun made =>
      (made.2.step.1.toOption, handshakeAt? made.2 0 4)) =
      some (some 1, some (true, true, .bits 2)) := by
    decide +kernel
  have leads : ((setting.simulation? "Top").bind fun made => (made.2.net.endpoint 0 0).toOption) =
      some (.memory 0 .read 0) := by
    decide +kernel
  have serves : ((setting.simulation? "Top").bind fun made =>
      (made.2.state.memories[0]?).bind fun held => (held.request .read (.bits 2)).toOption) =
      some (.read 2) := by
    decide +kernel
  obtain ⟨⟨design, start⟩, simulation, inner⟩ := Option.map_eq_some_iff.1 inner
  rw [simulation, Option.bind_some] at server leads serves
  rw [simulation, Option.map_some] at moves
  obtain ⟨question, reply⟩ := Prod.mk.inj inner
  obtain ⟨stepped, handshake⟩ := Prod.mk.inj (Option.some.inj moves)
  obtain ⟨produced, made⟩ := Setting.produced_of_simulation simulation
  have settles : start.step = (.ok 1, start.step.2) :=
    Prod.ext (eq_ok_of_toOption stepped) rfl
  have unchanged : start.after [] = start := rfl
  obtain ⟨agree, complete⟩ := Simulator.handshakes_agree produced made unchanged
  obtain ⟨⟨memo, observes⟩, transfers, high, counted, -, -, state, tells⟩ := complete _ _ settles
  have same {role : Nat} {driver receiver : ChannelId}
      (stands : channelsAt? start.net ⟨0, 0, role⟩ = some (some driver, some receiver)) :
      start.SameHandshake 0 driver receiver := by
    obtain ⟨slot, known, equal⟩ := Option.map_eq_some_iff.1 stands
    obtain ⟨bundle, held, known⟩ := Option.bind_eq_some_iff.1 known
    exact agree memo observes ⟨0, 0, role⟩ bundle slot driver receiver held known
      (Prod.mk.inj equal).1 (Prod.mk.inj equal).2
  obtain ⟨bundle, held, stands⟩ := Option.bind_eq_some_iff.1 server
  obtain ⟨slot, known, equal⟩ := Option.map_eq_some_iff.1 stands
  simp only [Prod.mk.injEq] at equal
  obtain ⟨flow, client, service⟩ := equal
  obtain ⟨valid, ready, data⟩ := settles_of_handshakeAt? handshake
  obtain ⟨passes, carries⟩ := tells ⟨0, 1, 0⟩ bundle slot .client 4 0 held known client service
  obtain ⟨transfer, inside, here⟩ := List.mem_map.1 (passes.2 ⟨valid, ready⟩)
  obtain ⟨carried, effect, effects, -, receives⟩ := carries transfer inside here
  have value : transfer.value = .bits 2 := carried.unique data
  have receives := receives (by rw [flow]; rfl)
  rw [value] at receives
  refine ⟨design, start, _, high, produced, made, settles, same question, same reply, data, ?_⟩
  obtain ⟨only, rfl⟩ := List.length_eq_one_iff.1 counted.symm
  obtain rfl := List.mem_singleton.1 inside
  have single : effect = .accept 0 0 (.read 2) := by
    have leads : start.net.endpoint 0 0 = .ok (.memory 0 .read 0) := eq_ok_of_toOption leads
    obtain ⟨memory, present, serves⟩ := Option.bind_eq_some_iff.1 serves
    cases receives with
    | @accept ref memory' request leads' present' takes =>
        obtain ⟨_, _, _⟩ := ref
        cases leads.symm.trans leads'
        cases present.symm.trans present'
        cases (eq_ok_of_toOption serves).symm.trans takes
        rfl
    | push leads' => cases leads.symm.trans leads'
  rw [state, List.flatMap_singleton, effects, single]

end Elastic
