import Elastic.Proofs.Sim.HostTraffic
import Elastic.Proofs.Sim.Responses

namespace Elastic

open Query

/-! Services keep their offers. What a service drives into a channel stays the same until the
channel is ready, unless the memory behind it is reset; so the monitor finds nothing else to report
of such a channel. -/

namespace Monitor

variable {monitor : Monitor} {seen : Observation} {site : ChannelSite} {value : SimValue}

theorem held?_observe (monitor : Monitor) (seen : Observation) (site : ChannelSite) :
    (monitor.observe seen).held? site =
      if seen.site = site then waiting? seen else monitor.held? site := by
  unfold held? observe
  dsimp only
  split
  · rename_i same
    subst same
    cases waiting? seen with
    | none => simp [List.find?_filter]
    | some data => simp
  · rename_i apart
    have others : (monitor.stalled.filter (·.1 ≠ seen.site)).find? (·.1 = site) =
        monitor.stalled.find? (·.1 = site) := by
      rw [List.find?_filter]
      congr 1
      funext entry
      by_cases own : entry.1 = site <;> simp [own, Ne.symm apart]
    cases waiting? seen with
    | none => simp only [Option.map_none, Option.toList_none, List.nil_append, others]
    | some data =>
        simp only [Option.map_some, Option.toList_some, List.singleton_append]
        rw [List.find?_cons_of_neg (by simpa using apart), others]

theorem waiting?_eq_some : waiting? seen = some value ↔
    seen.valid = true ∧ seen.ready = false ∧ seen.data = some value := by
  unfold waiting?
  cases seen.valid <;> cases seen.ready <;> simp

theorem breach?_eq_some {kind : ViolationKind} : breach? value seen = some kind ↔
    (seen.valid = false ∧ kind = .validDropped) ∨
      ∃ now, seen.valid = true ∧ seen.data = some now ∧ now ≠ value ∧ kind = .dataChanged := by
  unfold breach?
  cases seen.valid <;> cases seen.data <;> simp [eq_comm]

theorem held?_foldl {seen : List Observation}
    (held : (seen.foldl observe monitor).held? site = some value) :
    (∃ one ∈ seen, one.site = site ∧ waiting? one = some value) ∨
      site ∉ seen.map (·.site) ∧ monitor.held? site = some value := by
  induction seen generalizing monitor with
  | nil => exact .inr ⟨List.not_mem_nil, held⟩
  | cons one rest induction =>
      obtain ⟨last, inside, known⟩ | ⟨absent, before⟩ := induction held
      · exact .inl ⟨last, List.mem_cons_of_mem _ inside, known⟩
      rw [held?_observe] at before
      split at before
      · rename_i same
        exact .inl ⟨one, List.mem_cons_self, same, before⟩
      · rename_i apart
        refine .inr ⟨fun member => ?_, before⟩
        obtain first | later := List.mem_cons.1 member
        · exact apart first.symm
        · exact absent later

def report? (monitor : Monitor) (seen : Observation) : Option Violation :=
  ((monitor.held? seen.site).bind fun held => breach? held seen).map fun kind =>
    ⟨seen.cycle, seen.path, seen.site.2, kind⟩

def reports : Monitor → List Observation → List (ChannelSite × Violation)
  | _, [] => []
  | monitor, seen :: rest =>
    (monitor.report? seen).toList.map (seen.site, ·) ++ reports (monitor.observe seen) rest

theorem violations_foldl (monitor : Monitor) (seen : List Observation) :
    (seen.foldl observe monitor).violations =
      monitor.violations ++ (monitor.reports seen).map (·.2) := by
  induction seen generalizing monitor with
  | nil => exact (List.append_nil _).symm
  | cons one rest induction =>
      rw [List.foldl_cons, induction, reports, List.map_append, List.map_map, ← List.append_assoc]
      congr 1
      simp only [observe, report?, Function.comp_def, List.map_id']

theorem mem_reports {seen : List Observation} {report : ChannelSite × Violation}
    (member : report ∈ monitor.reports seen) :
    ∃ earlier one later, seen = earlier ++ one :: later ∧ report.1 = one.site ∧
      (earlier.foldl observe monitor).report? one = some report.2 := by
  induction seen generalizing monitor with
  | nil => cases member
  | cons one rest induction =>
      obtain own | other := List.mem_append.1 member
      · obtain ⟨violation, recorded, rfl⟩ := List.mem_map.1 own
        exact ⟨[], one, rest, rfl, rfl, Option.mem_toList.1 recorded⟩
      · obtain ⟨earlier, last, later, rfl, site, recorded⟩ := induction other
        exact ⟨one :: earlier, last, later, rfl, site, recorded⟩

end Monitor

theorem ClientEvent.Steps.of_waiting {before after : Option SimValue} {response : SimValue}
    (steps : (ClientEvent.waiting response).Steps before after) :
    before = some response ∧ after = some response := by
  cases steps
  exact ⟨rfl, rfl⟩

namespace Netlist

structure Drives (net : Netlist) (endpoint : Endpoint) (site : RoleSite) (channel : ChannelId) :
    Prop where
  starts : ∃ held, (net.graph.moduleOf site.inst).channels.get? channel = some held ∧
    held.producer = .bundle site.bundle site.role
  driven : ∃ id, net.source site = .service id ∧ net.endpoint site.inst id = .ok endpoint

theorem Drives.inside {net : Netlist} {endpoint : Endpoint} {site : RoleSite} {channel : ChannelId}
    (drives : net.Drives endpoint site channel) : (site.inst, channel) ∈ net.channelSites := by
  obtain ⟨⟨held, known, -⟩, id, source, -⟩ := drives
  obtain ⟨bundle, slot, present, -⟩ := source_eq_service.1 source
  exact mem_channelSites.2 ⟨inst_lt_of_bundle? present, Arena.lt_size_of_get? known⟩

end Netlist

namespace Endpoint

def Blocked (net : Netlist) (state : SimState) : Endpoint → Prop
  | .memory index _ _ => Yields net state (inReset state index) true
  | .host _ => False

def Open (net : Netlist) (state : SimState) : Endpoint → Prop
  | .memory index _ _ => Yields net state (inReset state index) false
  | .host _ => True

end Endpoint

namespace Simulator

variable {sim : Simulator} {endpoint : Endpoint} {site : RoleSite} {channel : ChannelId}
  {value : SimValue}

section

variable (drives : sim.net.Drives endpoint site channel)

include drives

theorem offered_of_role (valid : Yields sim.net sim.state (roleValid sim.net sim.state site) true)
    (data : Yields sim.net sim.state (roleData sim.net sim.state site) value) :
    sim.state.offered? site.role endpoint = some value := by
  obtain ⟨-, id, source, leads⟩ := drives
  exact offered_of_source source leads valid data

variable (offered : sim.state.offered? site.role endpoint = some value)

include offered

theorem roleValid_iff {bit : Bool} :
    Yields sim.net sim.state (roleValid sim.net sim.state site) bit ↔
      (endpoint.Blocked sim.net sim.state ∧ bit = false) ∨
        (endpoint.Open sim.net sim.state ∧ bit = true) := by
  obtain ⟨-, id, source, leads⟩ := drives
  unfold roleValid
  rw [source]
  cases endpoint with
  | memory memory port client =>
      have leads : sim.net.endpoint site.inst id =
        .ok (ClientRef.endpoint ⟨memory, port, client⟩) :=
        leads
      have offers : sim.state.pendingAt? ⟨memory, port, client⟩ = some value := offered
      obtain ⟨held, taken, -⟩ := Option.bind_eq_some_iff.1 offers
      refine (yields_serviceValid leads (by rw [taken]; rfl)).trans ?_
      rw [offers, Bool.exists_bool, or_comm]
      simp only [Bool.not_true, Bool.not_false, Bool.false_and, Option.isSome_some, Bool.and_self,
        eq_comm (b := bit)]
      rfl
  | host host =>
      obtain ⟨held, present, first⟩ := Option.bind_eq_some_iff.1 offered
      change Yields _ _ (serviceValid _ _ _ _ _) bit ↔ _
      unfold serviceValid
      rw [ofExcept_bind leads]
      change Yields _ _ (outbound sim.state host site.role >>= _) bit ↔ _
      unfold outbound
      rw [present]
      refine yields_pure.trans ?_
      simp [Endpoint.Blocked, Endpoint.Open, first, eq_comm]

theorem roleData_of_offered : Yields sim.net sim.state (roleData sim.net sim.state site) value := by
  obtain ⟨-, id, source, leads⟩ := drives
  obtain ⟨payload, carries⟩ := Netlist.exists_rolePayload? source nofun
  unfold roleData
  rw [carries]
  simp only [source]
  unfold serviceData
  rw [ofExcept_bind leads]
  cases endpoint with
  | memory memory port client =>
      have offers : sim.state.pendingAt? ⟨memory, port, client⟩ = some value := offered
      obtain ⟨held, taken, -⟩ := Option.bind_eq_some_iff.1 offers
      change Yields _ _ (pending sim.state _ >>= _) value
      rw [SimState.pending_eq (by rw [taken]; rfl), offers]
      exact yields_pure.2 rfl
  | host host =>
      obtain ⟨held, present, first⟩ := Option.bind_eq_some_iff.1 offered
      change Yields _ _ (outbound sim.state host site.role >>= _) value
      unfold outbound
      rw [present]
      exact yields_pure.2 (by rw [first]; rfl)

theorem blocked_of_role
    (idle : Yields sim.net sim.state (roleValid sim.net sim.state site) false) :
    endpoint.Blocked sim.net sim.state := by
  obtain ⟨blocked, -⟩ | ⟨-, high⟩ := (roleValid_iff drives offered).1 idle
  · exact blocked
  · cases high

end

/-- What does not change in a run: the netlist is wired, the clients of memories have their places,
and the roles of the host their places. -/
structure Arranged (sim : Simulator) : Prop where
  wired : ∃ services types, ∀ id module, sim.net.graph.modules.get? id = some module →
    module.Wired False services types id
  routed : sim.net.Routed sim.state.clientSite?
  hosts : ∀ ref sends site, sim.net.Attaches ref sends site → sim.net.Hosts ref sends site

theorem arranged_of_withPolicy {design : CompiledDesign} {policy : ArbitrationPolicy}
    (built : design.Built) (made : withPolicy design policy = .ok sim) : sim.Arranged where
  wired := by
    refine ⟨design.graph.services, design.graph.types, ?_⟩
    rw [(withPolicy_ok made).1]
    exact built.produced.wired
  routed := routed_of_withPolicy built made
  hosts _ _ _ := hosts_of_attaches built.produced made

theorem arranged_act (arranged : sim.Arranged) (action : Action) : (sim.act action).Arranged := by
  have turns := sim.turns action
  obtain ⟨wired, routed, hosts⟩ := arranged
  rw [← turns.net] at wired hosts
  exact ⟨wired, turns.routed routed, hosts⟩

theorem arranged_after {start : Simulator} (arranged : start.Arranged) (actions : List Action) :
    (start.after actions).Arranged := by
  induction actions generalizing start with
  | nil => exact arranged
  | cons action rest induction => exact induction (arranged_act arranged action)

theorem Arranged.sameSignals (arranged : sim.Arranged)
    (drives : sim.net.Drives endpoint site channel) :
    sim.net.SameSignals sim.state site channel := by
  obtain ⟨services, types, wired⟩ := arranged.wired
  obtain ⟨⟨held, known, starts⟩, id, source, -⟩ := drives
  obtain ⟨bundle, slot, present, inside, -⟩ := Netlist.source_eq_service.1 source
  obtain absent | ⟨place, module⟩ := sim.net.graph.moduleOf_cases site.inst
  · rw [absent] at known
    cases known
  obtain ⟨slot', here, stands⟩ := ((wired place _ module).linked.producer _ _ _ _ known).1 starts
  obtain ⟨bundle', present', inside'⟩ := Option.bind_eq_some_iff.1 here
  cases present.symm.trans present'
  cases inside.symm.trans inside'
  exact (Netlist.sameSignals_of_stands wired present inside stands).1

/-- What the monitor holds of a channel that a service drives is what the service still offers. -/
def Tracks (sim : Simulator) (monitor : Monitor) : Prop :=
  ∀ endpoint site channel value, sim.net.Drives endpoint site channel →
    monitor.held? (site.inst, channel) = some value →
    sim.state.offered? site.role endpoint = some value

variable {monitor : Monitor} {seen : Observation}

section

variable (arranged : sim.Arranged)

include arranged

theorem offered_of_waiting (drives : sim.net.Drives endpoint site channel)
    (observes : sim.Observes seen) (same : seen.site = (site.inst, channel))
    (waits : Monitor.waiting? seen = some value) :
    Yields sim.net sim.state (roleValid sim.net sim.state site) true ∧
      Yields sim.net sim.state (roleReady sim.net site) false ∧
      sim.state.offered? site.role endpoint = some value := by
  have sameSignals := arranged.sameSignals drives
  obtain ⟨high, low, data⟩ := Monitor.waiting?_eq_some.1 waits
  have valid := observes.valid
  have ready := observes.ready
  obtain ⟨carried, known, carries⟩ := observes.carries high
  rw [data] at known
  cases known
  rw [same] at valid ready carries
  rw [high] at valid
  rw [low] at ready
  have valid := (sameSignals.valid true).1 valid
  exact ⟨valid, (sameSignals.ready false).1 ready,
    offered_of_role drives valid ((sameSignals.data _).1 carries)⟩

theorem Tracks.observe (tracks : sim.Tracks monitor) (observes : sim.Observes seen) :
    sim.Tracks (monitor.observe seen) := by
  intro endpoint site channel value drives held
  rw [Monitor.held?_observe] at held
  split at held
  · rename_i same
    exact (offered_of_waiting arranged drives observes same held).2.2
  · exact tracks endpoint site channel value drives held

theorem Tracks.foldl {seen : List Observation} (tracks : sim.Tracks monitor)
    (observes : ∀ one ∈ seen, sim.Observes one) :
    sim.Tracks (seen.foldl Monitor.observe monitor) := by
  induction seen generalizing monitor with
  | nil => exact tracks
  | cons one rest induction =>
      exact induction (tracks.observe arranged (observes one List.mem_cons_self))
        fun other member => observes other (List.mem_cons_of_mem _ member)

/-- Of a channel that a service drives the monitor records at most that a memory in reset dropped
its response. -/
theorem Tracks.report (tracks : sim.Tracks monitor) (observes : sim.Observes seen)
    (drives : sim.net.Drives endpoint site channel) (same : seen.site = (site.inst, channel))
    {violation : Violation} (recorded : monitor.report? seen = some violation) :
    violation = ⟨sim.cycle, sim.net.pathText site.inst, channel, .validDropped⟩ ∧
      endpoint.Blocked sim.net sim.state := by
  have sameSignals := arranged.sameSignals drives
  obtain ⟨kind, breach, rfl⟩ := Option.map_eq_some_iff.1 recorded
  obtain ⟨held, known, breach⟩ := Option.bind_eq_some_iff.1 breach
  rw [same] at known
  have offered := tracks endpoint site channel held drives known
  have valid := observes.valid
  rw [same, sameSignals.valid] at valid
  cases offers : seen.valid with
  | false =>
      rw [offers] at valid
      simp only [Monitor.breach?, offers, Bool.not_false, if_true, Option.some.injEq] at breach
      rw [observes.cycle, observes.path, same, ← breach]
      exact ⟨rfl, blocked_of_role drives offered valid⟩
  | true =>
      obtain ⟨value, data, carries⟩ := observes.carries offers
      rw [offers] at valid
      rw [same, sameSignals.data] at carries
      obtain rfl : value = held :=
        Option.some.inj ((offered_of_role drives valid carries).symm.trans offered)
      simp [Monitor.breach?, offers, data] at breach

theorem offered_nextState {effects : List Effect} {high : List Nat}
    (cycle : sim.Cycle effects high) (drives : sim.net.Drives endpoint site channel)
    (valid : Yields sim.net sim.state (roleValid sim.net sim.state site) true)
    (stalls : Yields sim.net sim.state (roleReady sim.net site) false)
    (offered : sim.state.offered? site.role endpoint = some value) :
    (nextState sim.state effects high).offered? site.role endpoint = some value := by
  obtain ⟨-, id, source, leads⟩ := drives
  cases endpoint with
  | memory memory port client =>
      have leads : sim.net.endpoint site.inst id =
        .ok (ClientRef.endpoint ⟨memory, port, client⟩) :=
        leads
      obtain ⟨stands, taken, role⟩ := arranged.routed.response_of_source source leads
      obtain ⟨request, response, connects⟩ := arranged.routed.connects taken
      cases role.symm.trans connects.responses
      obtain ⟨event, shows⟩ := exists_shows arranged.routed taken connects cycle
      have steps := steps_of_shows arranged.routed taken connects cycle shows
      cases shows with
      | retabled low idle rests | accepted low idle moves answers | reset high idle rests =>
          cases idle.unique valid
      | taken low moves rests => cases moves.ready.unique stalls
      | waiting low offers carries stalls rests =>
          obtain ⟨before, after⟩ := steps.of_waiting
          exact after.trans (before.symm.trans offered)
  | host host =>
      have hosts := arranged.hosts ⟨host, site.role⟩ true site ⟨id, source, leads, rfl⟩
      obtain ⟨-, none⟩ | ⟨value, moves, -⟩ := cycle.about hosts
      · have same : (nextState sim.state effects high).hostRole? host site.role =
            (sim.state.hostRole? host site.role).map
              ((Effect.about ⟨host, site.role⟩ effects).foldl HostRole.handle) :=
          hostRole?_nextState ⟨host, site.role⟩
        rw [none] at same
        have kept : (nextState sim.state effects high).hostRole? host site.role =
            sim.state.hostRole? host site.role := same.trans Option.map_id'
        change (nextState sim.state effects high).outboundAt? host site.role = some value
        rw [SimState.outboundAt?, kept]
        exact offered
      · cases moves.ready.unique stalls

end

theorem outboundAt?_modifyHostRole {state : SimState} {host role place index : Nat}
    {change : HostRole → HostRole} (offered : state.outboundAt? host role = some value)
    (keeps : ∀ held : HostRole, held.outbound.head? = some value →
      (change held).outbound.head? = some value) :
    (state.modifyHostRole place index change).outboundAt? host role = some value := by
  obtain ⟨held, present, first⟩ := Option.bind_eq_some_iff.1 offered
  refine (congrArg (Option.bind · fun held => held.outbound.head?)
    (SimState.hostRole?_modifyHostRole ⟨host, role⟩)).trans ?_
  split
  · rw [present]
    exact keeps held first
  · exact offered

theorem Acts.offered {next : Simulator} {action : Action} (acts : sim.Acts action next)
    (between : ¬ sim.Completes action) {role : Nat}
    (offered : sim.state.offered? role endpoint = some value) :
    next.state.offered? role endpoint = some value := by
  cases endpoint with
  | memory memory port client =>
      have same := acts.turns.client?_of_not_completes between
      change next.state.pendingAt? _ = some value
      rw [SimState.pendingAt?, same]
      exact offered
  | host host =>
      cases acts with
      | cycle completed cycle watches all => exact absurd ⟨rfl, _, completed⟩ between
      | stall failed watches | setInput fits | refused refuses
      | pokeMemory found known pokes succeeds => exact offered
      | hostSend found sends fits succeeds =>
          refine outboundAt?_modifyHostRole offered fun held first => ?_
          obtain ⟨rest, queued⟩ := List.head?_eq_some_iff.1 first
          rw [queued]
          rfl
      | hostReceive found receives succeeds =>
          exact outboundAt?_modifyHostRole offered fun _ => id

theorem Acts.tracks {next : Simulator} {action : Action} (arranged : sim.Arranged)
    (acts : sim.Acts action next) (tracks : sim.Tracks sim.monitor) :
    next.Tracks next.monitor := by
  have kept : ¬ sim.Completes action → ∀ {endpoint : Endpoint} {role : Nat} {value : SimValue},
      sim.state.offered? role endpoint = some value →
        next.state.offered? role endpoint = some value := fun between => acts.offered between
  intro endpoint site channel value drives held
  cases acts with
  | cycle completed cycle watches all =>
      obtain ⟨one, member, same, waits⟩ | ⟨absent, -⟩ := Monitor.held?_foldl held
      · obtain ⟨valid, stalls, offered⟩ :=
          offered_of_waiting arranged drives (watches.observes one member) same waits
        exact offered_nextState arranged cycle drives valid stalls offered
      · exact absurd (all ▸ drives.inside) absent
  | stall failed watches =>
      exact tracks.foldl arranged watches.observes endpoint site channel value drives held
  | setInput fits | refused refuses => exact tracks endpoint site channel value drives held
  | hostSend found sends fits succeeds | hostReceive found receives succeeds
  | pokeMemory found present pokes succeeds =>
      exact kept (fun completes => nomatch completes.1)
        (tracks endpoint site channel value drives held)

inductive Records (sim : Simulator) : Action → List (ChannelSite × Violation) → Prop
  | step {seen : List Observation} (watches : sim.Watches sim.net.channelSites seen)
      (monitor : (sim.act .step).monitor = seen.foldl Monitor.observe sim.monitor) :
      Records sim .step (sim.monitor.reports seen)
  | aside {action : Action} (apart : action ≠ .step) : Records sim action []

theorem exists_records (sim : Simulator) (action : Action) :
    ∃ reports, sim.Records action reports := by
  by_cases called : action = .step
  · subst called
    have acts := sim.acts .step
    generalize reached : sim.act .step = next at acts
    cases acts with
    | cycle completed cycle watches all => exact ⟨_, .step watches (congrArg monitor reached)⟩
    | stall failed watches => exact ⟨_, .step watches (congrArg monitor reached)⟩
    | refused refuses => exact refuses.elim
  · exact ⟨[], .aside called⟩

theorem Records.violations {action : Action} {reports : List (ChannelSite × Violation)}
    (records : sim.Records action reports) :
    (sim.act action).monitor.violations = sim.monitor.violations ++ reports.map (·.2) := by
  cases records with
  | step watches monitor => rw [monitor, Monitor.violations_foldl]
  | aside apart =>
      have acts := sim.acts action
      generalize sim.act action = next at acts
      cases acts with
      | cycle | stall => exact absurd rfl apart
      | setInput | hostSend | hostReceive | pokeMemory | refused =>
          exact (List.append_nil _).symm

theorem violations_of_log {start : Simulator} {actions : List Action}
    {reports : List (ChannelSite × Violation)} (log : Log Records start actions reports) :
    (start.after actions).monitor.violations =
      start.monitor.violations ++ reports.map (·.2) := by
  induction log with
  | nil sim => exact (List.append_nil _).symm
  | cons first rest induction =>
      rw [List.map_append, ← List.append_assoc, ← first.violations]
      exact induction

theorem Records.of_drives {action : Action} {reports : List (ChannelSite × Violation)}
    (arranged : sim.Arranged) (tracks : sim.Tracks sim.monitor)
    (records : sim.Records action reports) {violation : Violation}
    (member : ((site.inst, channel), violation) ∈ reports)
    (drives : sim.net.Drives endpoint site channel) :
    action = .step ∧
      violation = ⟨sim.cycle, sim.net.pathText site.inst, channel, .validDropped⟩ ∧
      endpoint.Blocked sim.net sim.state := by
  cases records with
  | step watches monitor =>
      obtain ⟨earlier, one, later, rfl, same, recorded⟩ := Monitor.mem_reports member
      have observes := watches.observes
      have before := tracks.foldl arranged fun other inside =>
        observes other (List.mem_append_left _ inside)
      exact ⟨rfl, before.report arranged
        (observes one (List.mem_append_right _ List.mem_cons_self)) drives same.symm recorded⟩
  | aside apart => cases member

theorem tracks_after {start : Simulator} (arranged : start.Arranged)
    (tracks : start.Tracks start.monitor) (actions : List Action) :
    (start.after actions).Tracks (start.after actions).monitor := by
  induction actions generalizing start with
  | nil => exact tracks
  | cons action rest induction =>
      exact induction (arranged_act arranged action) ((start.acts action).tracks arranged tracks)

def Waits (sim : Simulator) (site : ChannelSite) (actions : List Action) : Prop :=
  ∀ earlier later, actions = earlier ++ .step :: later → (sim.after earlier).Completes .step →
    (Signal.valid site.1 site.2).Settles sim.net (sim.after earlier).state true ∧
      (Signal.ready site.1 site.2).Settles sim.net (sim.after earlier).state false

theorem offered_after {start : Simulator} {actions : List Action} (arranged : start.Arranged)
    (drives : start.net.Drives endpoint site channel)
    (waits : start.Waits (site.inst, channel) actions)
    (offered : start.state.offered? site.role endpoint = some value) :
    (start.after actions).state.offered? site.role endpoint = some value := by
  induction actions generalizing start with
  | nil => exact offered
  | cons action rest induction =>
      have turns := start.turns action
      refine induction (arranged_act arranged action) (turns.net ▸ drives) ?_ ?_
      · intro earlier later equal completes
        have later := waits (action :: earlier) later (congrArg (action :: ·) equal) completes
        rwa [← turns.net] at later
      · by_cases completes : start.Completes action
        · obtain ⟨effects, high, cycle, state⟩ := turns.of_completes completes
          have sameSignals := arranged.sameSignals drives
          obtain ⟨rfl, -⟩ := id completes
          obtain ⟨valid, ready⟩ := waits [] rest rfl completes
          rw [state]
          exact offered_nextState arranged cycle drives ((sameSignals.valid true).1 valid)
            ((sameSignals.ready false).1 ready) offered
        · exact (start.acts action).offered completes offered

theorem payload_after {start : Simulator} {actions : List Action} (arranged : start.Arranged)
    (drives : start.net.Drives endpoint site channel)
    (valid : (Signal.valid site.inst channel).Settles start.net start.state true)
    (data : (Signal.data site.inst channel).Settles start.net start.state value)
    (waits : start.Waits (site.inst, channel) actions) :
    (Signal.data site.inst channel).Settles start.net (start.after actions).state value ∧
      (endpoint.Open start.net (start.after actions).state →
        (Signal.valid site.inst channel).Settles start.net (start.after actions).state true) := by
  have now := arranged.sameSignals drives
  have offered := offered_after arranged drives waits
    (offered_of_role drives ((now.valid true).1 valid) ((now.data value).1 data))
  have net := (start.after_keeps actions).1
  rw [← net] at drives ⊢
  have later := (arranged_after arranged actions).sameSignals drives
  constructor
  · exact (later.data value).2 (roleData_of_offered drives offered)
  · intro free
    exact (later.valid true).2 ((roleValid_iff drives offered).2 (.inr ⟨free, rfl⟩))

/-- The monitor reports at most one thing of a channel that a service drives: that a memory dropped
its response in a cycle in which it is in reset. It reports nothing of a channel that the host
drives. And a payload stays on such a channel for as long as the channel waits. -/
theorem service_channels_stable {design : CompiledDesign} {policy : ArbitrationPolicy}
    {start : Simulator} (built : design.Built) (made : withPolicy design policy = .ok start)
    (actions : List Action) {endpoint : Endpoint} {site : RoleSite} {channel : ChannelId}
    (drives : start.net.Drives endpoint site channel) :
    (∃ reports, Log Records start actions reports) ∧
    (∀ reports, Log Records start actions reports →
      (start.after actions).monitor.violations = reports.map (·.2) ∧
      ∀ violation, ((site.inst, channel), violation) ∈ reports →
        ∃ earlier later, actions = earlier ++ .step :: later ∧
          violation = ⟨(start.after earlier).cycle, start.net.pathText site.inst, channel,
            .validDropped⟩ ∧
          endpoint.Blocked start.net (start.after earlier).state) ∧
    ∀ earlier later value, actions = earlier ++ later →
      (Signal.valid site.inst channel).Settles start.net (start.after earlier).state true →
      (Signal.data site.inst channel).Settles start.net (start.after earlier).state value →
      (start.after earlier).Waits (site.inst, channel) later →
      (Signal.data site.inst channel).Settles start.net (start.after actions).state value ∧
        (endpoint.Open start.net (start.after actions).state →
          (Signal.valid site.inst channel).Settles start.net (start.after actions).state true) := by
  have arranged := arranged_of_withPolicy built made
  obtain ⟨-, -, -, -, -, fresh⟩ := withPolicy_starts made
  have initial : start.Tracks start.monitor := by
    intro endpoint site channel value drives held
    rw [fresh] at held
    cases held
  refine ⟨?_, fun reports log => ⟨?_, fun violation member => ?_⟩, ?_⟩
  · have kept (sim : Simulator) (action : Action) (there : sim.Arranged) :
        (sim.act action).Arranged := arranged_act there action
    exact exists_log_of_kept kept (fun sim action _ => sim.exists_records action) arranged actions
  · rw [violations_of_log log, fresh]
    rfl
  · obtain ⟨earlier, action, later, own, rfl, records, inside⟩ := log.origin member
    have net := (start.after_keeps earlier).1
    obtain ⟨rfl, equal, blocked⟩ := records.of_drives (arranged_after arranged earlier)
      (tracks_after arranged initial earlier) inside (net ▸ drives)
    rw [net] at equal blocked
    exact ⟨earlier, later, rfl, equal, blocked⟩
  · rintro earlier later value rfl valid data waits
    rw [after, List.foldl_append]
    rw [← (start.after_keeps earlier).1] at drives valid data ⊢
    exact payload_after (arranged_after arranged earlier) drives valid data waits

end Simulator

namespace HesitantDesign

open MemoryDesign

/-- A module that asks a memory, and takes the answers only while an input is high. -/
def steps : List Step := [
  .port "clk" (some "clk"), .port "rst" (some "rst"), .port "take" (some "take"),
  .constant addressTy 2 (some "place"),
  .bool true (some "always"),
  .wrap addressTy "place" "always" (some "address") none,
  .pack (Service.readBundle word depth) [("address", "address")] (some "reads") (some "answers"),
  .take "answers" "data" (some "answer"),
  .unwrap "answer" "take" none none,
  .call memoryService "read" "reads" ⟨"reader", none⟩]

def setting : Setting where
  library := {
    modules := [{
      name := "Top"
      ports := [("clk", .clock), ("rst", .bit), ("take", .bit)]
      recipe := .ofSteps steps (.ofSteps realization .done) }]
    services := [memoryService] }
  preset := .xrt
  capabilities := BackendPreset.xrt.capabilities

theorem composed_setting : ∀ service ∈ setting.library.services, service.Composed := by
  intro service member
  obtain rfl : service = memoryService := by simpa [setting] using member
  exact .randomAccessMemory _ _ _

def droppedRead : List Action := [
  .pokeMemory "Top.mem" 2 (.bits 7), .step, .step, .setInput "rst" (.bits 1), .step]

theorem reports_of_droppedRead :
    ∃ design start reports, CompiledDesign.Built design ∧
      Simulator.withPolicy design .roundRobin = .ok start ∧
      start.net.Drives (.memory 0 .read 0) ⟨0, 0, 1⟩ 1 ∧
      Simulator.Log Simulator.Records start droppedRead reports ∧
      reports.map (·.2) = [⟨2, "Top", 1, .validDropped⟩] := by
  have facts : ((setting.simulation? "Top").map fun made =>
      ((made.2.after droppedRead).monitor.violations,
        (((made.2.net.graph.moduleOf 0).channels.get? 1).map (·.producer),
          made.2.net.source ⟨0, 0, 1⟩, (made.2.net.endpoint 0 0).toOption))) =
      some ([⟨2, "Top", 1, .validDropped⟩],
        (some (.bundle 0 1), .service 0, some (.memory 0 .read 0))) := by
    decide +kernel
  obtain ⟨⟨design, start⟩, simulation, facts⟩ := Option.map_eq_some_iff.1 facts
  dsimp only at facts
  obtain ⟨violations, ends⟩ := Prod.mk.inj facts
  obtain ⟨starts, ends⟩ := Prod.mk.inj ends
  obtain ⟨source, leads⟩ := Prod.mk.inj ends
  obtain ⟨built, made⟩ := Setting.built_of_simulation composed_setting simulation
  have drives : start.net.Drives (.memory 0 .read 0) ⟨0, 0, 1⟩ 1 :=
    ⟨Option.map_eq_some_iff.1 starts, 0, source, eq_ok_of_toOption leads⟩
  obtain ⟨⟨reports, log⟩, recorded, -⟩ :=
    Simulator.service_channels_stable built made droppedRead drives
  obtain ⟨equal, -⟩ := recorded reports log
  exact ⟨design, start, reports, built, made, drives, log, equal.symm.trans violations⟩

end HesitantDesign

end Elastic
