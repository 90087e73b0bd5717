import Elastic.Proofs.Sim.Fairness
import Elastic.Proofs.Sim.Lookups
import Elastic.Proofs.Sim.Recovery

namespace Elastic

open Query

/-! The writer of the memory design has no place for the word that it read. It offers the word to be
written in the one cycle in which the response to its read is there, and if the memory takes a write
of the host in that cycle, the writer has nothing to offer in the next one. -/

namespace Arbiter

/-- Whatever the policy, somebody is served if anybody requests. -/
theorem exists_select (arbiter : Arbiter) {requests : List Bool} {client : Nat}
    (asks : requests.getD client false = true) :
    ∃ served, arbiter.select requests = some served := by
  have bound : client < requests.length := by
    refine Nat.lt_of_not_le fun beyond => ?_
    rw [List.getD_eq_getElem?_getD, List.getElem?_eq_none beyond] at asks
    cases asks
  cases policy : arbiter.policy with
  | fixedPriority =>
      rw [List.getD_eq_getElem?_getD, List.getElem?_eq_getElem bound] at asks
      unfold select
      rw [policy]
      refine Option.isSome_iff_exists.1 ?_
      rw [List.findIdx?_isSome]
      exact List.any_eq_true.2 ⟨_, List.getElem_mem bound, asks⟩
  | roundRobin =>
      obtain ⟨away, reached, far⟩ := exists_away bound arbiter.start
      obtain ⟨served, selected, -⟩ := select_nearer policy asks far reached
      exact ⟨served, selected⟩

end Arbiter

namespace Query

variable {net : Netlist} {state : SimState}

theorem settles_expr {inst : InstanceId} {id : ExprId} {held : Expr} {value : SimValue}
    (known : (net.graph.moduleOf inst).exprs.get? id = some held) :
    (Signal.expr inst id).Settles net state value ↔ Yields net state (ofExpr net state inst held)
      value := by
  simp only [Signal.Settles, equation, known]

theorem settles_valid_of_wrapped {inst : InstanceId} {channel : ChannelId} {held : Channel}
    {data valid : ExprId} {bit : Bool}
    (known : (net.graph.moduleOf inst).channels.get? channel = some held)
    (starts : held.producer = .wrapped data valid) :
    (Signal.valid inst channel).Settles net state bit ↔
      ∃ value, (Signal.expr inst valid).Settles net state value ∧ value.isTrue = bit := by
  simp only [Signal.Settles, equation, withChannel, known, starts]
  rw [yields_bind]
  exact exists_congr fun value => and_congr yields_demand yields_pure

theorem settles_data_of_wrapped {inst : InstanceId} {channel : ChannelId} {held : Channel}
    {data valid : ExprId} {value : SimValue}
    (known : (net.graph.moduleOf inst).channels.get? channel = some held)
    (starts : held.producer = .wrapped data valid) :
    (Signal.data inst channel).Settles net state value ↔
      (Signal.expr inst data).Settles net state value := by
  simp only [Signal.Settles, equation, withChannel, known, starts]
  exact yields_demand

theorem settles_ready_of_unwrapped {inst : InstanceId} {channel : ChannelId} {held : Channel}
    {ready : ExprId} {bit : Bool}
    (known : (net.graph.moduleOf inst).channels.get? channel = some held)
    (ends : held.consumer = .unwrapped ready) :
    (Signal.ready inst channel).Settles net state bit ↔
      ∃ value, (Signal.expr inst ready).Settles net state value ∧ value.isTrue = bit := by
  simp only [Signal.Settles, equation, withChannel, known, ends]
  rw [yields_bind]
  exact exists_congr fun value => and_congr yields_demand yields_pure

theorem settles_ready_of_unbound {inst : InstanceId} {channel : ChannelId} {held : Channel}
    {bit : Bool} (known : (net.graph.moduleOf inst).channels.get? channel = some held)
    (ends : held.consumer = .unbound) :
    (Signal.ready inst channel).Settles net state bit ↔ true = bit := by
  simp only [Signal.Settles, equation, withChannel, known, ends]
  exact yields_pure

end Query

namespace Simulator

/-- A port that does not take the request of a client takes one of another client instead. -/
theorem Cycle.exists_rival {sim : Simulator} {effects : List Effect} {high : List Nat}
    {ref : ClientRef} (cycle : sim.Cycle effects high)
    (routed : sim.net.Routed sim.state.clientSite?)
    (low : Yields sim.net sim.state (inReset sim.state ref.memory) false) (asks : sim.Asks ref)
    (refused : ∀ value, ¬ sim.Accepts ref value) :
    ∃ other value, other ≠ ref.client ∧ sim.Accepts ⟨ref.memory, ref.port, other⟩ value := by
  obtain ⟨held, requested, -, -, asked, accepted⟩ := cycle.serves routed low asks
  obtain ⟨served, selected⟩ := (held.port ref.port).arbiter.exists_select asked
  obtain ⟨value, accepts⟩ := accepted served selected
  refine ⟨served, value, ?_, accepts⟩
  rintro rfl
  exact refused value accepts

def input? (sim : Simulator) (name : String) : Option SimValue :=
  (sim.inputNames.findIdx? (· = name)).bind fun index => sim.state.inputs[index]?

theorem input?_after_steps (sim : Simulator) (name : String) (cycles : Nat) :
    (sim.after (List.replicate cycles .step)).input? name = sim.input? name := by
  induction cycles generalizing sim with
  | zero => rfl
  | succ cycles induction =>
      refine (induction (sim.act .step)).trans ?_
      have acts := sim.acts .step
      generalize sim.act .step = next at acts
      cases acts with
      | cycle completed cycle watches all => simp only [input?, inputs_nextState]
      | stall failed watches => rfl
      | refused refuses => exact refuses.elim

end Simulator

/-- The name of a system and its own policy have no part in what happens in a simulator. -/
theorem Simulator.exists_withPolicy {design other : CompiledDesign} {policy : ArbitrationPolicy}
    {sim : Simulator} (graph : other.graph = design.graph) (names : other.names = design.names)
    (services : other.services = design.services) (made : withPolicy design policy = .ok sim) :
    ∃ twin, withPolicy other policy = .ok twin ∧ twin.net = sim.net ∧ twin.state = sim.state ∧
      twin.inputNames = sim.inputNames := by
  unfold withPolicy at made ⊢
  rw [graph, names, services]
  simp only [bind, Except.bind, pure, Except.pure] at made ⊢
  split at made
  · cases made
  · cases made
    exact ⟨_, rfl, rfl, rfl, rfl⟩

namespace MemoryDesign

def order (word : SimValue) : SimValue := .struct [.bits targetAddress, word]

/-- What the signals of the writer have to do with one another, whatever the state. Its channels are
those of its read requests, the responses, its write requests and the acknowledgements. -/
structure Copies (net : Netlist) : Prop where
  sites : net.channelSites = [(2, 0), (2, 1), (2, 2), (2, 3)]
  asks : ∀ state, ¬ (Signal.valid 2 0).Settles net state false
  address : ∀ state value, (Signal.data 2 0).Settles net state value →
    value = .bits sourceAddress
  takes : ∀ state, ¬ (Signal.ready 2 1).Settles net state false
  drains : ∀ state, ¬ (Signal.ready 2 3).Settles net state false
  passes : ∀ state bit, (Signal.valid 2 2).Settles net state bit →
    (Signal.valid 2 1).Settles net state bit
  copies : ∀ state value, (Signal.data 2 2).Settles net state value →
    ∃ word, (Signal.data 2 1).Settles net state word ∧ value = order word
  answers : ∀ state, net.SameSignals state ⟨2, 0, 1⟩ 1
  offers : ∀ state, net.SameSignals state ⟨2, 1, 0⟩ 2
  acks : ∀ state, net.SameSignals state ⟨2, 1, 1⟩ 3
  rst : ∀ state value, (Signal.expr 0 1).Settles net state value → state.inputs[1]? = some value

@[mk_iff]
structure Built (net : Netlist) : Prop where
  sites : net.channelSites = [(2, 0), (2, 1), (2, 2), (2, 3)]
  channels : (net.graph.moduleOf 2).channels.toList.map
      (fun held => (held.producer, held.consumer)) =
    [(.wrapped 0 1, .bundle 0 0), (.bundle 0 1, .unwrapped 1), (.wrapped 6 4, .bundle 1 0),
      (.bundle 1 1, .unbound)]
  exprs : (net.graph.moduleOf 2).exprs.toList =
    [.const sourceAddress, .const 1, .channelReady 0, .channelData 1, .channelValid 1,
      .const targetAddress, .struct [5, 3], .channelReady 2]
  ends : net.sink ⟨2, 0, 1⟩ = .channel 1 ∧ net.source ⟨2, 1, 0⟩ = .channel 2 ∧
    net.sink ⟨2, 1, 1⟩ = .channel 3
  rst : (net.graph.moduleOf 0).exprs.get? 1 = some (.port 1) ∧ net.parent? 0 = none

instance (net : Netlist) : Decidable (Built net) := decidable_of_iff' _ (built_iff net)

theorem ofBool_isTrue (bit : Bool) : (SimValue.ofBool bit).isTrue = bit := by
  cases bit <;> rfl

section

variable {net : Netlist} (built : Built net)

include built

theorem Built.channel (id : ChannelId) {ends : Producer × Consumer}
    (listed : [(Producer.wrapped 0 1, Consumer.bundle 0 0), (.bundle 0 1, .unwrapped 1),
      (.wrapped 6 4, .bundle 1 0), (.bundle 1 1, .unbound)][id]? = some ends) :
    ∃ held, (net.graph.moduleOf 2).channels.get? id = some held ∧ held.producer = ends.1 ∧
      held.consumer = ends.2 := by
  rw [← built.channels, List.getElem?_map, Option.map_eq_some_iff] at listed
  obtain ⟨held, known, rfl⟩ := listed
  refine ⟨held, ?_, rfl, rfl⟩
  rwa [Arena.get?, ← Array.getElem?_toList]

theorem Built.settles_expr {state : SimState} {id : ExprId} {value : SimValue} (held : Expr)
    (listed : [Expr.const sourceAddress, .const 1, .channelReady 0, .channelData 1, .channelValid 1,
      .const targetAddress, .struct [5, 3], .channelReady 2][id]? = some held)
    (settles : (Signal.expr 2 id).Settles net state value) :
    Yields net state (ofExpr net state 2 held) value := by
  refine (Query.settles_expr ?_).1 settles
  rw [Arena.get?, ← Array.getElem?_toList]
  rw [← built.exprs] at listed
  exact listed

theorem Built.copies : Copies net := by
  obtain ⟨asks, known₀, starts₀, -⟩ := built.channel 0 rfl
  obtain ⟨answers, known₁, starts₁, ends₁⟩ := built.channel 1 rfl
  obtain ⟨offers, known₂, starts₂, ends₂⟩ := built.channel 2 rfl
  obtain ⟨acks, known₃, starts₃, ends₃⟩ := built.channel 3 rfl
  have always {state : SimState} {value : SimValue}
      (settles : (Signal.expr 2 1).Settles net state value) : value.isTrue = true := by
    rw [← yields_pure.1 (built.settles_expr (.const 1) rfl settles)]
    rfl
  refine ⟨built.sites, fun state idle => ?_, fun state value carries => ?_, fun state stalls => ?_,
    fun state stalls => ?_, fun state bit valid => ?_, fun state value carries => ?_,
    fun state => ?_, fun state => ?_, fun state => ?_, fun state value settles => ?_⟩
  · obtain ⟨value, settles, low⟩ := (settles_valid_of_wrapped known₀ starts₀).1 idle
    cases (always settles).symm.trans low
  · have settles := (settles_data_of_wrapped known₀ starts₀).1 carries
    exact (yields_pure.1 (built.settles_expr (.const sourceAddress) rfl settles)).symm
  · obtain ⟨value, settles, low⟩ := (settles_ready_of_unwrapped known₁ ends₁).1 stalls
    cases (always settles).symm.trans low
  · cases (settles_ready_of_unbound known₃ ends₃).1 stalls
  · obtain ⟨value, settles, rfl⟩ := (settles_valid_of_wrapped known₂ starts₂).1 valid
    obtain ⟨bit, answered, same⟩ :=
      yields_bind.1 (built.settles_expr (.channelValid 1) rfl settles)
    rw [← yields_pure.1 same, ofBool_isTrue]
    exact yields_demand.1 answered
  · have settles := (settles_data_of_wrapped known₂ starts₂).1 carries
    obtain ⟨fields, all, same⟩ :=
      yields_bind.1 (built.settles_expr (.struct [5, 3]) rfl settles)
    obtain ⟨target, first, rest⟩ := yields_bind.1 all
    obtain ⟨others, second, equal⟩ := yields_bind.1 rest
    obtain ⟨word, read, rest⟩ := yields_bind.1 second
    obtain ⟨none, last, equal'⟩ := yields_bind.1 rest
    cases yields_pure.1 same
    cases yields_pure.1 equal
    cases yields_pure.1 last
    cases yields_pure.1 equal'
    have place := built.settles_expr (.const targetAddress) rfl (yields_demand.1 first)
    cases yields_pure.1 place
    refine ⟨word, ?_, rfl⟩
    exact yields_demand.1 (built.settles_expr (.channelData 1) rfl (yields_demand.1 read))
  · exact Netlist.sameSignals_of_sink built.ends.1 known₁ starts₁
  · exact Netlist.sameSignals_of_source built.ends.2.1 known₂ ends₂
  · exact Netlist.sameSignals_of_sink built.ends.2.2 known₃ starts₃
  · have input := (Query.settles_expr built.rst.1).1 settles
    unfold ofExpr Query.port at input
    rw [built.rst.2] at input
    dsimp only at input
    split at input
    · rename_i held known
      rw [known, yields_pure.1 input]
    · cases input

end

def readRef (client : Nat) : ClientRef := ⟨0, .read, client⟩

def writeRef (client : Nat) : ClientRef := ⟨0, .write, client⟩

/-- The netlist is that of the design, and the writer has its places as the last client of either
port. -/
structure CopySetup (client : Nat) (sim : Simulator) : Prop where
  copies : Copies sim.net
  path : sim.net.pathText 2 = "Top.mem_writer"
  names : sim.inputNames = ["clk", "rst"]
  memory : sim.state.memoryLabels = [⟨"Top.mem", 0, some 1⟩]
  routed : sim.net.Routed sim.state.clientSite?
  reads : sim.state.clientSite? (readRef client) = some (2, 0)
  writes : sim.state.clientSite? (writeRef client) = some (2, 1)
  last : ∀ other site, sim.state.clientSite? (writeRef other) = some site → other ≤ client
  reading : sim.net.Connects (2, 0) ⟨2, 0, 0⟩ ⟨2, 0, 1⟩
  writing : sim.net.Connects (2, 1) ⟨2, 1, 0⟩ ⟨2, 1, 1⟩

structure Runs (client : Nat) (sim : Simulator) : Prop extends CopySetup client sim where
  low : ¬ Yields sim.net sim.state (inReset sim.state 0) true

section

variable {sim : Simulator} {client : Nat} {effects : List Effect} {high : List Nat}
  (runs : Runs client sim)

include runs

theorem Runs.valid_answers {bit : Bool}
    (valid : (Signal.valid 2 1).Settles sim.net sim.state bit) :
    (sim.state.pendingAt? (readRef client)).isSome = bit := by
  obtain ⟨raised, reset, same⟩ := (Netlist.valid_response runs.routed runs.reads runs.reading).1
    (((runs.copies.answers sim.state).valid bit).1 valid)
  cases raised with
  | true => exact absurd reset runs.low
  | false => simpa using same

theorem Runs.data_answers {value word : SimValue}
    (data : (Signal.data 2 1).Settles sim.net sim.state value)
    (pending : sim.state.pendingAt? (readRef client) = some word) : value = word := by
  obtain ⟨payload, -, carried⟩ := (Netlist.data_response runs.routed runs.reads runs.reading).1
    (((runs.copies.answers sim.state).data value).1 data)
  rwa [pending, Option.getD_some, eq_comm] at carried

theorem Runs.calm (cycle : sim.Cycle effects high) :
    Yields sim.net sim.state (inReset sim.state 0) false := by
  obtain ⟨bit, reset, -⟩ := cycle.reset runs.writes
  cases bit with
  | true => exact absurd reset runs.low
  | false => exact reset

theorem Runs.reader_after (cycle : sim.Cycle effects high) :
    sim.state.pendingAt? (readRef client) = none ∨
      (Simulator.nextState sim.state effects high).pendingAt? (readRef client) = none := by
  obtain ⟨event, shows⟩ := Simulator.exists_shows runs.routed runs.reads runs.reading cycle
  have steps := Simulator.steps_of_shows runs.routed runs.reads runs.reading cycle shows
  generalize sim.state.pendingAt? (readRef client) = before,
    (Simulator.nextState sim.state effects high).pendingAt? (readRef client) = after at steps ⊢
  cases steps with
  | retabled | accepted => exact .inl rfl
  | taken => exact .inr rfl
  | waiting response =>
      cases shows with
      | waiting low offers carries stalls rests =>
          exact absurd (((runs.copies.answers sim.state).ready false).2 stalls)
            (runs.copies.takes sim.state)
  | reset =>
      cases shows with
      | reset raised idle rests => exact absurd raised runs.low

theorem Runs.writer_after (cycle : sim.Cycle effects high)
    (idle : sim.state.pendingAt? (readRef client) = none) :
    (Simulator.nextState sim.state effects high).pendingAt? (writeRef client) = none := by
  obtain ⟨event, shows⟩ := Simulator.exists_shows runs.routed runs.writes runs.writing cycle
  have steps := Simulator.steps_of_shows runs.routed runs.writes runs.writing cycle shows
  generalize sim.state.pendingAt? (writeRef client) = before,
    (Simulator.nextState sim.state effects high).pendingAt? (writeRef client) = after at steps ⊢
  cases steps with
  | retabled | taken => rfl
  | reset => rfl
  | waiting response =>
      cases shows with
      | waiting low offers carries stalls rests =>
          exact absurd (((runs.copies.acks sim.state).ready false).2 stalls)
            (runs.copies.drains sim.state)
  | accepted request response =>
      cases shows with
      | accepted low vacant moves answers =>
          have offered := ((runs.copies.offers sim.state).valid true).2 moves.valid
          have answered := runs.valid_answers (runs.copies.passes sim.state true offered)
          rw [idle] at answered
          cases answered

/-- If the write that the writer offers is not taken, the memory takes one of another client. -/
theorem Runs.exists_accepts (cycle : sim.Cycle effects high)
    (apart : sim.state.pendingAt? (readRef client) = none ∨
      sim.state.pendingAt? (writeRef client) = none)
    (offers : (Signal.valid 2 2).Settles sim.net sim.state true)
    (refused : ∀ value, ¬ sim.Accepts (writeRef client) value) :
    ∃ other value, other < client ∧ sim.Accepts (writeRef other) value := by
  have answered := runs.valid_answers (runs.copies.passes sim.state true offers)
  have vacant : sim.state.pendingAt? (writeRef client) = none := by
    refine apart.resolve_left fun idle => ?_
    rw [idle] at answered
    cases answered
  have asks : sim.Asks (writeRef client) :=
    ⟨_, _, runs.writes, runs.writing.requests, ((runs.copies.offers sim.state).valid true).1 offers,
      vacant⟩
  obtain ⟨other, value, apart, accepts⟩ := cycle.exists_rival runs.routed
    (runs.calm cycle) asks refused
  obtain ⟨site, -, taken, -⟩ := id accepts
  exact ⟨other, value, Nat.lt_of_le_of_ne (runs.last other site taken) apart, accepts⟩

theorem Runs.not_accepts (stalls : (Signal.ready 2 2).Settles sim.net sim.state false)
    (value : SimValue) : ¬ sim.Accepts (writeRef client) value := by
  rintro ⟨site, request, taken, named, moves⟩
  cases runs.writes.symm.trans taken
  cases runs.writing.requests.symm.trans named
  cases (((runs.copies.offers sim.state).ready false).1 stalls).unique moves.ready

end

/-- What the monitor can hold of the writer's channels: the address that it asks for, and its last
order, which is gone unless the word is still there. -/
inductive Holds (client : Nat) (state : SimState) : ChannelSite → SimValue → Prop
  | address : Holds client state (2, 0) (.bits sourceAddress)
  | offered {word : SimValue} (pending : state.pendingAt? (readRef client) = some word) :
      Holds client state (2, 2) (order word)
  | dropped {value : SimValue} (gone : state.pendingAt? (readRef client) = none) :
      Holds client state (2, 2) value

section

variable {sim : Simulator} {client : Nat} {seen : Observation} {value : SimValue}
  (runs : Runs client sim) (observes : sim.Observes seen)
  (inside : seen.site ∈ sim.net.channelSites)

include runs observes inside

theorem Runs.waits (waits : Monitor.waiting? seen = some value) :
    Holds client sim.state seen.site value ∧ (seen.site = (2, 2) →
      (∃ word, sim.state.pendingAt? (readRef client) = some word) ∧
        (Signal.valid 2 2).Settles sim.net sim.state true ∧
        (Signal.ready 2 2).Settles sim.net sim.state false) := by
  obtain ⟨high, low, data⟩ := Monitor.waiting?_eq_some.1 waits
  have valid := observes.valid
  have ready := observes.ready
  obtain ⟨carried, known, carries⟩ := observes.carries high
  cases data.symm.trans known
  rw [high] at valid
  rw [low] at ready
  rw [runs.copies.sites] at inside
  generalize seen.site = site at *
  simp only [List.mem_cons, List.not_mem_nil, or_false] at inside
  obtain rfl | rfl | rfl | rfl := inside
  · cases runs.copies.address _ _ carries
    exact ⟨.address, nofun⟩
  · exact absurd ready (runs.copies.takes _)
  · obtain ⟨word, read, rfl⟩ := runs.copies.copies _ _ carries
    have answered := runs.valid_answers (runs.copies.passes _ _ valid)
    obtain ⟨held, pending⟩ := Option.isSome_iff_exists.1 answered
    cases runs.data_answers read pending
    exact ⟨.offered pending, fun _ => ⟨⟨_, pending⟩, valid, ready⟩⟩
  · exact absurd ready (runs.copies.drains _)

/-- Of what the monitor can hold, nothing but an order that is gone is ever missed. -/
theorem Runs.breach {held : SimValue} {kind : ViolationKind}
    (holds : Holds client sim.state seen.site held)
    (breach : Monitor.breach? held seen = some kind) :
    seen.site = (2, 2) ∧ kind = .validDropped ∧
      sim.state.pendingAt? (readRef client) = none := by
  have valid := observes.valid
  have carries := observes.carries
  obtain ⟨low, rfl⟩ | ⟨now, high, data, changed, rfl⟩ := Monitor.breach?_eq_some.1 breach
  · rw [low] at valid
    generalize seen.site = site at *
    cases holds with
    | address => exact absurd valid (runs.copies.asks _)
    | offered pending =>
        have answered := runs.valid_answers (runs.copies.passes _ _ valid)
        rw [pending] at answered
        cases answered
    | dropped gone => exact ⟨rfl, rfl, gone⟩
  · obtain ⟨carried, known, carries⟩ := carries high
    cases data.symm.trans known
    rw [high] at valid
    generalize seen.site = site at *
    cases holds with
    | address => exact absurd (runs.copies.address _ _ carries) changed
    | offered pending =>
        obtain ⟨word, read, rfl⟩ := runs.copies.copies _ _ carries
        cases runs.data_answers read pending
        exact absurd rfl changed
    | dropped gone =>
        have answered := runs.valid_answers (runs.copies.passes _ _ valid)
        rw [gone] at answered
        cases answered

end

end MemoryDesign

end Elastic
