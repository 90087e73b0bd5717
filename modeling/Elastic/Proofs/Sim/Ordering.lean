import Elastic.Proofs.Sim.Safety

namespace Elastic

open Query

/-! The order in which signals settle. Which signals an equation may ask for is read off the
netlist, whatever the values are. If the signals can be ranked so that each asks for lower ones
only, then none depends on itself, and a cycle in which every request can be served comes to its
end. -/

/-- What tells, of a state, which signals the equations may ask for. -/
@[ext]
structure Wires where
  reset : Nat → Option Signal
  clients : Nat → MemoryPort → List ServiceSite

def SimState.wires (state : SimState) : Wires where
  reset memory := (state.memories[memory]?).bind fun held => held.reset.map (.expr held.inst)
  clients memory port :=
    ((state.memories[memory]?).map fun held => (held.port port).clients.map PortClient.site).getD []

namespace Netlist

def portDemands (net : Netlist) (inst : InstanceId) (index : Nat) : List Signal :=
  match net.parent? inst with
  | none => []
  | some (parent, position) =>
    (((net.graph.moduleOf parent).children[position]?).bind fun child =>
      (child.connections[index]?).map (Signal.expr parent)).toList

def exprDemands (net : Netlist) (inst : InstanceId) : Expr → List Signal
  | .const _ | .builtinResult _ _ => []
  | .port index => net.portDemands inst index
  | .channelData channel => [.data inst channel]
  | .channelValid channel => [.valid inst channel]
  | .channelReady channel => [.ready inst channel]
  | .struct ids => ids.map (.expr inst)
  | .field operand _ | .not operand => [.expr inst operand]
  | .and first second | .or first second => [.expr inst first, .expr inst second]

def validDemands (net : Netlist) (wires : Wires) (site : RoleSite) : List Signal :=
  match net.source site with
  | .channel channel => [.valid site.inst channel]
  | .service id =>
    match net.endpoint site.inst id with
    | .ok (.memory memory _ _) => (wires.reset memory).toList
    | _ => []
  | .nothing | .absent => []

def dataDemands (net : Netlist) (site : RoleSite) : List Signal :=
  match net.source site with
  | .channel channel => [.data site.inst channel]
  | _ => []

def readyDemands (net : Netlist) (site : RoleSite) : List Signal :=
  match net.sink site with
  | .channel channel => [.ready site.inst channel]
  | .service id =>
    match net.endpoint site.inst id with
    | .ok (.memory memory port _) => [.grant memory port]
    | _ => []
  | .nothing | .absent => []

def clientDemands (net : Netlist) (wires : Wires) (client : ServiceSite) : List Signal :=
  ((net.clientRole? client .toService).map (net.validDemands wires)).getD []

def channelDemands (net : Netlist) (inst : InstanceId) (channel : ChannelId)
    (demands : Channel → List Signal) : List Signal :=
  (((net.graph.moduleOf inst).channels.get? channel).map demands).getD []

/-- The signals that the equation of a signal may ask for. -/
def demands (net : Netlist) (wires : Wires) : Signal → List Signal
  | .expr inst id => (((net.graph.moduleOf inst).exprs.get? id).map (net.exprDemands inst)).getD []
  | .valid inst channel => net.channelDemands inst channel fun held =>
    match held.producer with
    | .wrapped _ valid => [.expr inst valid]
    | .bundle bundle role => net.validDemands wires ⟨inst, bundle, role⟩
  | .data inst channel => net.channelDemands inst channel fun held =>
    match held.producer with
    | .wrapped data _ => [.expr inst data]
    | .bundle bundle role => net.dataDemands ⟨inst, bundle, role⟩
  | .ready inst channel => net.channelDemands inst channel fun held =>
    match held.consumer with
    | .unbound => []
    | .unwrapped ready => [.expr inst ready]
    | .bundle bundle role => net.readyDemands ⟨inst, bundle, role⟩
  | .grant memory port =>
    (wires.reset memory).toList ++ (wires.clients memory port).flatMap (net.clientDemands wires)

end Netlist

namespace Query

/-- All signals that a query asks for are of one kind, whatever the outcomes of those before. -/
def Asks (kind : Signal → Prop) (query : Query α) : Prop :=
  query.Meets ⟨kind, fun _ _ => True, fun _ => True⟩ fun _ => True

variable {net : Netlist} {state : SimState} {kind : Signal → Prop} {inst : InstanceId}
  {site : RoleSite}

theorem asks_pure (value : α) : (pure value : Query α).Asks kind := trivial

theorem asks_fail (error : SimError) : (.fail error : Query α).Asks kind := trivial

theorem asks_demand {signal : Signal} (asked : kind signal) : (demand signal).Asks kind :=
  ⟨asked, fun _ _ => trivial⟩

theorem Asks.bind {query : Query α} {next : α → Query β} (first : query.Asks kind)
    (rest : ∀ value, (next value).Asks kind) : (query >>= next).Asks kind :=
  Meets.bind first fun value _ => rest value

theorem asks_any (query : Query α) : query.Asks fun _ => True := by
  induction query with
  | answer value => exact asks_pure value
  | fail error => exact asks_fail error
  | ask signal next induction => exact ⟨trivial, fun outcome _ => induction outcome⟩

theorem asks_exprs {ids : List ExprId} (asked : ∀ id ∈ ids, kind (.expr inst id)) :
    (exprs inst ids).Asks kind := by
  induction ids with
  | nil => exact asks_pure _
  | cons id rest induction =>
      have others := induction fun id member => asked id (List.mem_cons_of_mem _ member)
      exact (asks_demand (asked id List.mem_cons_self)).bind fun _ =>
        others.bind fun _ => asks_pure _

theorem asks_inReset {memory : Nat} (asked : ∀ signal ∈ state.wires.reset memory, kind signal) :
    (inReset state memory).Asks kind := by
  unfold inReset
  cases held : state.memories[memory]? with
  | none => exact asks_fail _
  | some held' =>
      dsimp only
      cases reset : held'.reset with
      | none => exact asks_pure _
      | some reset' =>
          refine (asks_demand (asked _ ?_)).bind fun _ => asks_pure _
          simp [SimState.wires, held, reset]

theorem asks_endpoint (id : ServiceInstanceId) {next : Endpoint → Query α}
    (rest : ∀ endpoint, net.endpoint inst id = .ok endpoint → (next endpoint).Asks kind) :
    (ofExcept (net.endpoint inst id) >>= next).Asks kind := by
  cases leads : net.endpoint inst id with
  | error error => exact asks_fail _
  | ok endpoint => exact rest endpoint leads

theorem asks_pending {ref : ClientRef} : (pending state ref).Asks kind := by
  unfold pending
  cases state.client? ref with
  | none => exact asks_fail _
  | some held => exact asks_pure _

theorem asks_outbound {host role : Nat} : (outbound state host role).Asks kind := by
  unfold outbound
  cases state.hostRole? host role with
  | none => exact asks_fail _
  | some held => exact asks_pure _

theorem asks_roleValid (asked : ∀ signal ∈ net.validDemands state.wires site, kind signal) :
    (roleValid net state site).Asks kind := by
  unfold roleValid
  unfold Netlist.validDemands at asked
  cases source : net.source site with
  | channel channel => exact asks_demand (asked _ (by simp [source]))
  | nothing => exact asks_pure _
  | absent => exact asks_fail _
  | service id =>
      refine asks_endpoint id fun endpoint leads => ?_
      cases endpoint with
      | host host => exact asks_outbound.bind fun _ => asks_pure _
      | memory memory port client =>
          simp only [source, leads, Option.mem_toList] at asked
          refine (asks_inReset asked).bind fun bit => ?_
          cases bit with
          | true => exact asks_pure _
          | false => exact asks_pending.bind fun _ => asks_pure _

theorem asks_roleData (asked : ∀ signal ∈ net.dataDemands site, kind signal) :
    (roleData net state site).Asks kind := by
  unfold roleData
  unfold Netlist.dataDemands at asked
  cases net.rolePayload? site with
  | none => exact asks_fail _
  | some payload =>
      dsimp only
      cases source : net.source site with
      | channel channel => exact asks_demand (asked _ (by simp [source]))
      | nothing => exact asks_pure _
      | absent => exact asks_fail _
      | service id =>
          refine asks_endpoint id fun endpoint _ => ?_
          cases endpoint with
          | host host => exact asks_outbound.bind fun _ => asks_pure _
          | memory memory port client => exact asks_pending.bind fun _ => asks_pure _

theorem asks_roleReady (asked : ∀ signal ∈ net.readyDemands site, kind signal) :
    (roleReady net site).Asks kind := by
  unfold roleReady
  unfold Netlist.readyDemands at asked
  cases sink : net.sink site with
  | channel channel => exact asks_demand (asked _ (by simp [sink]))
  | nothing => exact asks_pure _
  | absent => exact asks_fail _
  | service id =>
      refine asks_endpoint id fun endpoint leads => ?_
      cases endpoint with
      | host host => exact asks_pure _
      | memory memory port client =>
          exact (asks_demand (asked _ (by simp [sink, leads]))).bind fun _ => asks_pure _

theorem asks_port {index : Nat} (asked : ∀ signal ∈ net.portDemands inst index, kind signal) :
    (port net state inst index).Asks kind := by
  unfold port
  unfold Netlist.portDemands at asked
  cases around : net.parent? inst with
  | none =>
      dsimp only
      cases state.inputs[index]? with
      | none => exact asks_fail _
      | some value => exact asks_pure _
  | some place =>
      obtain ⟨parent, position⟩ := place
      dsimp only
      cases child : (net.graph.moduleOf parent).children[position]? with
      | none => exact asks_fail _
      | some child' =>
          dsimp only
          cases connects : child'.connections[index]? with
          | none => exact asks_fail _
          | some connection => exact asks_demand (asked _ (by simp [around, child, connects]))

theorem asks_ofExpr {held : Expr} (asked : ∀ signal ∈ net.exprDemands inst held, kind signal) :
    (ofExpr net state inst held).Asks kind := by
  have first {signal : Signal} (member : signal ∈ net.exprDemands inst held) :
      (demand signal).Asks kind := asks_demand (asked signal member)
  cases held with
  | const value => exact asks_pure _
  | builtinResult builtin index => exact asks_fail _
  | port index => exact asks_port asked
  | channelData channel => exact first List.mem_cons_self
  | channelValid channel | channelReady channel | not operand =>
      exact (first List.mem_cons_self).bind fun _ => asks_pure _
  | struct ids =>
      refine (asks_exprs fun id member => asked _ ?_).bind fun _ => asks_pure _
      exact List.mem_map_of_mem member
  | field operand index =>
      refine (first List.mem_cons_self).bind fun value => ?_
      cases value.field? index
      · exact asks_fail _
      · exact asks_pure _
  | and left right | or left right =>
      have second := first (List.mem_cons_of_mem _ List.mem_cons_self)
      refine (first List.mem_cons_self).bind fun value => ?_
      cases value.isTrue
      all_goals first | exact asks_pure _ | exact second.bind fun _ => asks_pure _

theorem asks_requestValid {client : PortClient}
    (asked : ∀ signal ∈ net.clientDemands state.wires client.site, kind signal) :
    (requestValid net state client).Asks kind := by
  unfold requestValid
  unfold Netlist.clientDemands Netlist.clientRole? at asked
  cases known : (net.graph.moduleOf client.inst).services.get? client.serviceInstance with
  | none => exact asks_fail _
  | some held =>
      dsimp only
      cases present : net.bundle? client.inst held.bundle with
      | none => exact asks_fail _
      | some bundle =>
          dsimp only
          cases found : Netlist.requestRole? bundle with
          | none => exact asks_fail _
          | some role =>
              refine asks_roleValid fun signal member => asked signal ?_
              rw [Netlist.requestRole?] at found
              simpa [PortClient.site, known, present, found] using member

theorem asks_requests {clients : List PortClient}
    (asked : ∀ client ∈ clients, ∀ signal ∈ net.clientDemands state.wires client.site,
      kind signal) : (requests net state clients).Asks kind := by
  induction clients with
  | nil => exact asks_pure _
  | cons client rest induction =>
      have others := induction fun client member => asked client (List.mem_cons_of_mem _ member)
      have own := asks_requestValid (asked client List.mem_cons_self)
      unfold requests
      split
      · exact (asks_pure _).bind fun _ => others.bind fun _ => asks_pure _
      · exact own.bind fun _ => others.bind fun _ => asks_pure _

theorem asks_ofGrant {memory : Nat} {port : MemoryPort}
    (asked : ∀ signal ∈ net.demands state.wires (.grant memory port), kind signal) :
    (ofGrant net state memory port).Asks kind := by
  simp only [Netlist.demands, List.mem_append, List.mem_flatMap] at asked
  unfold ofGrant
  cases known : state.memories[memory]? with
  | none => exact asks_fail _
  | some held =>
      refine (asks_inReset fun signal member => asked signal (.inl (by simpa using member))).bind
        fun bit => ?_
      cases bit with
      | true => exact asks_pure _
      | false =>
          refine (asks_requests fun client member signal inside => ?_).bind fun _ => asks_pure _
          refine asked signal (.inr ⟨client.site, ?_, inside⟩)
          simpa [SimState.wires, known] using ⟨client, member, rfl⟩

theorem asks_equation (signal : Signal) :
    (equation net state signal).Asks (· ∈ net.demands state.wires signal) := by
  cases signal with
  | expr inst place =>
      simp only [equation, Netlist.demands]
      cases (net.graph.moduleOf inst).exprs.get? place with
      | none => exact asks_fail _
      | some held => exact asks_ofExpr fun _ => id
  | grant memory port => exact asks_ofGrant fun _ => id
  | valid inst channel =>
      simp only [equation, withChannel, Netlist.demands, Netlist.channelDemands]
      cases (net.graph.moduleOf inst).channels.get? channel with
      | none => exact asks_fail _
      | some held =>
          dsimp only [Option.map_some, Option.getD_some]
          cases held.producer with
          | wrapped data valid =>
              exact (asks_demand List.mem_cons_self).bind fun _ => asks_pure _
          | bundle bundle role => exact asks_roleValid fun _ => id
  | data inst channel =>
      simp only [equation, withChannel, Netlist.demands, Netlist.channelDemands]
      cases (net.graph.moduleOf inst).channels.get? channel with
      | none => exact asks_fail _
      | some held =>
          dsimp only [Option.map_some, Option.getD_some]
          cases held.producer with
          | wrapped data valid => exact asks_demand List.mem_cons_self
          | bundle bundle role => exact asks_roleData fun _ => id
  | ready inst channel =>
      simp only [equation, withChannel, Netlist.demands, Netlist.channelDemands]
      cases (net.graph.moduleOf inst).channels.get? channel with
      | none => exact asks_fail _
      | some held =>
          dsimp only [Option.map_some, Option.getD_some]
          cases held.consumer with
          | unbound => exact asks_pure _
          | unwrapped ready => exact (asks_demand List.mem_cons_self).bind fun _ => asks_pure _
          | bundle bundle role => exact asks_roleReady fun _ => id

end Query

/-- Every signal asks for signals of lower rank only. -/
def Netlist.Ranked (net : Netlist) (wires : Wires) (rank : Signal → Nat) : Prop :=
  ∀ signal, ∀ other ∈ net.demands wires signal, rank other < rank signal

section

variable {net : Netlist} {state : SimState} {rank : Signal → Nat}

theorem Netlist.demands_of_not_has {signal : Signal} (absent : ¬ net.Has state signal) :
    net.demands state.wires signal = [] := by
  cases signal with
  | expr inst id =>
      have none := ((net.graph.moduleOf inst).exprs.get?_eq_none_iff id).2 (Nat.le_of_not_lt absent)
      simp [demands, none]
  | grant memory port =>
      have none := List.getElem?_eq_none_iff.2 (Nat.le_of_not_lt absent)
      simp [demands, SimState.wires, none]
  | valid inst channel | data inst channel | ready inst channel =>
      have none := ((net.graph.moduleOf inst).channels.get?_eq_none_iff channel).2
        (Nat.le_of_not_lt absent)
      simp [demands, channelDemands, none]

theorem Netlist.ranked_of_all (all : ∀ signal ∈ net.allSignals state,
    ∀ other ∈ net.demands state.wires signal, rank other < rank signal) :
    net.Ranked state.wires rank := by
  intro signal other member
  by_cases has : net.Has state signal
  · exact all signal (mem_allSignals has) other member
  · rw [demands_of_not_has has] at member
    cases member

theorem Query.Stops.not_loop {running : List Signal} {query : Query α} {stop : Stop}
    (ranked : net.Ranked state.wires rank) (stops : Stops net state running query stop)
    {kind : Signal → Prop} (asks : query.Asks kind)
    (lower : ∀ signal ∈ running, ∀ other, kind other → rank other < rank signal)
    (signal : Signal) : stop ≠ .loop signal := by
  induction stops generalizing kind with
  | fault error => exact nofun
  | again member => exact absurd (lower _ member _ asks.1) (Nat.lt_irrefl _)
  | inside fresh stops induction =>
      refine induction (asks_equation _) fun signal member other asked => ?_
      cases List.mem_cons.1 member with
      | inl same => exact same ▸ ranked _ other asked
      | inr outer => exact Nat.lt_trans (ranked _ other asked) (lower signal outer _ asks.1)
  | after fresh settles stops induction => exact induction (asks.2 _ trivial) lower

end

namespace Simulator

variable {sim : Simulator} {meaning : Denotation} {rank : Signal → Nat}

/-- A cycle completes if signals are ranked, no expression is the result of a builtin, and every
value that is transferred to a service can be taken there. -/
theorem completes_of_ranked (conforms : sim.net.Conforms meaning sim.state)
    (ranked : sim.net.Ranked sim.state.wires rank) (results : ∀ error, ¬ sim.net.IsResult error)
    (takes : ∀ site value, site ∈ sim.net.servedRoles → sim.net.Transfers sim.state site value →
      ∃ effects, sim.sinkEffects site value = .ok effects) : sim.Completes .step := by
  have sorts : sim.Sorts meaning fun _ => False := by
    refine ⟨fun meets memo error reached failed => ?_,
      fun site value error member moves failed => ?_⟩
    · obtain ⟨stop, stops, -⟩ := (Settling.outcome_error_iff reached).1 failed
      cases stop with
      | loop signal => exact stops.not_loop ranked (asks_any _) nofun signal rfl
      | fault error => exact results error (stops.meets (kept_contract conforms) rfl meets)
    · obtain ⟨effects, given⟩ := takes site value member moves
      cases given.symm.trans failed
  cases stepped : sim.step with
  | mk outcome next =>
      cases outcome with
      | error error => exact (fails_step conforms sorts stepped).elim
      | ok count => exact ⟨rfl, count, congrArg Prod.fst stepped⟩

theorem clients_wires (state : SimState) (memory : Nat) (port : MemoryPort) (client : Nat) :
    (state.wires.clients memory port)[client]? = state.clientSite? ⟨memory, port, client⟩ := by
  simp only [SimState.wires, SimState.clientSite?, SimState.client?]
  cases state.memories[memory]? <;> simp

theorem wires_after {start : Simulator} (conforms : start.net.Conforms meaning start.state)
    (actions : List Action) : (start.after actions).state.wires = start.state.wires := by
  obtain ⟨keeps, -⟩ := keeps_after conforms actions
  have reset (state : SimState) (memory : Nat) : state.wires.reset memory =
      (state.frame.memories[memory]?).bind fun held => held.reset.map (.expr held.inst) := by
    simp only [SimState.wires, SimState.frame, List.getElem?_map]
    cases state.memories[memory]? <;> rfl
  refine Wires.ext (funext fun memory => ?_) (funext fun memory => funext fun port => ?_)
  · rw [reset, reset, keeps.frame]
  · refine List.ext_getElem? fun client => ?_
    rw [clients_wires, clients_wires, (start.after_keeps actions).2]

end Simulator

end Elastic
