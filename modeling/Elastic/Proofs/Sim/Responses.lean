import Elastic.Proofs.Sim.Runs

namespace Elastic

open Query

/-! Memories answer each request once. In every cycle a client is at one of a few places of a small
protocol, and over a run the responses are those of the requests that were accepted. -/

/-- What the signals of a cycle show of a client. -/
inductive ClientEvent
  | retabled
  | accepted (request response : SimValue)
  | waiting (response : SimValue)
  | taken (response : SimValue)
  | reset

inductive ClientEvent.Steps : Option SimValue → ClientEvent → Option SimValue → Prop
  | retabled : Steps none .retabled none
  | accepted (request response : SimValue) :
      Steps none (.accepted request response) (some response)
  | waiting (response : SimValue) : Steps (some response) (.waiting response) (some response)
  | taken (response : SimValue) : Steps (some response) (.taken response) none
  | reset (pending : Option SimValue) : Steps pending .reset none

/-- A sequence of events in which each accepted request has its response: offered in every cycle
after the acceptance until it is taken once or dropped by a reset, with no other request accepted
meanwhile. -/
inductive Exchanges : Option SimValue → List ClientEvent → Option SimValue → Prop
  | nil (pending : Option SimValue) : Exchanges pending [] pending
  | cons {before middle after : Option SimValue} {event : ClientEvent}
      {events : List ClientEvent} (step : event.Steps before middle)
      (rest : Exchanges middle events after) : Exchanges before (event :: events) after

namespace Simulator

/-- The state at the moment of a role's transfer: the transfers of the roles before it have taken
effect. -/
def Moment (sim : Simulator) (site : RoleSite) (moment : SimState) : Prop :=
  ∃ earlier later effects, sim.net.servedRoles = earlier ++ site :: later ∧
    sim.Performs earlier effects ∧ moment = Effect.applyAll sim.state effects

/-- The response to a request: from a read the addressed word at that moment, from a write no
bits. -/
inductive Answers (sim : Simulator) (ref : ClientRef) (request : RoleSite) :
    SimValue → SimValue → Prop
  | read {address : UInt64} {moment : SimState} {words : Array SimValue} {word : SimValue}
      (port : ref.port = .read) (reached : sim.Moment request moment)
      (held : moment.words? ref.memory = some words) (known : words[address.toNat]? = some word) :
      Answers sim ref request (.bits address) word
  | write {address : UInt64} {word : SimValue} (port : ref.port = .write) :
      Answers sim ref request (.struct [.bits address, word]) (.bits 0)

/-- The event of a client in a cycle, by its request role, its response role and the reset. -/
inductive Shows (sim : Simulator) (ref : ClientRef) (request response : RoleSite) :
    ClientEvent → Prop
  | retabled (low : Yields sim.net sim.state (inReset sim.state ref.memory) false)
      (idle : Yields sim.net sim.state (roleValid sim.net sim.state response) false)
      (rests : sim.net.Rests sim.state request) : Shows sim ref request response .retabled
  | accepted {value word : SimValue}
      (low : Yields sim.net sim.state (inReset sim.state ref.memory) false)
      (idle : Yields sim.net sim.state (roleValid sim.net sim.state response) false)
      (moves : sim.net.Transfers sim.state request value)
      (answers : sim.Answers ref request value word) :
      Shows sim ref request response (.accepted value word)
  | waiting {value : SimValue}
      (low : Yields sim.net sim.state (inReset sim.state ref.memory) false)
      (offers : Yields sim.net sim.state (roleValid sim.net sim.state response) true)
      (carries : Yields sim.net sim.state (roleData sim.net sim.state response) value)
      (stalls : Yields sim.net sim.state (roleReady sim.net response) false)
      (rests : sim.net.Rests sim.state request) :
      Shows sim ref request response (.waiting value)
  | taken {value : SimValue}
      (low : Yields sim.net sim.state (inReset sim.state ref.memory) false)
      (moves : sim.net.Transfers sim.state response value)
      (rests : sim.net.Rests sim.state request) :
      Shows sim ref request response (.taken value)
  | reset (high : Yields sim.net sim.state (inReset sim.state ref.memory) true)
      (idle : Yields sim.net sim.state (roleValid sim.net sim.state response) false)
      (rests : sim.net.Rests sim.state request) : Shows sim ref request response .reset

variable {sim : Simulator} {site : RoleSite} {effects : List Effect} {high : List Nat}

theorem Cycle.moment (cycle : sim.Cycle effects high) (member : site ∈ sim.net.servedRoles) :
    ∃ moment, sim.Moment site moment := by
  obtain ⟨earlier, later, equal⟩ := List.append_of_mem member
  have performs := cycle.performs
  rw [equal] at performs
  obtain ⟨first, second, -, before, -⟩ := performs.split
  exact ⟨_, earlier, later, first, equal, before, rfl⟩

theorem Moment.words? {moment : SimState} (reached : sim.Moment site moment) {memory : Nat}
    {words : Array SimValue} (held : sim.state.words? memory = some words) :
    ∃ now, moment.words? memory = some now ∧ now.size = words.size := by
  obtain ⟨earlier, later, effects, -, -, rfl⟩ := reached
  rw [Effect.words?_applyAll, held]
  exact ⟨_, rfl, SimState.size_store _ _⟩

theorem Cycle.reset (cycle : sim.Cycle effects high) {ref : ClientRef} {client : ServiceSite}
    (taken : sim.state.clientSite? ref = some client) :
    ∃ bit, Yields sim.net sim.state (inReset sim.state ref.memory) bit ∧
      (ref.memory ∈ high ↔ bit = true) := by
  obtain ⟨held, present, -⟩ := Option.map_eq_some_iff.1 taken
  obtain ⟨memory, found, -⟩ := Option.bind_eq_some_iff.1 present
  exact cycle.resets.2 _ (List.mem_range.2 (List.getElem?_eq_some_iff.1 found).1)

theorem Cycle.pendingAt? (cycle : sim.Cycle effects high) {ref : ClientRef} {client : ServiceSite}
    (taken : sim.state.clientSite? ref = some client)
    (low : Yields sim.net sim.state (inReset sim.state ref.memory) false)
    {pending : Option SimValue}
    (holds : (Effect.applyAll sim.state effects).client? ref =
      (sim.state.client? ref).map (.hold pending)) :
    (nextState sim.state effects high).pendingAt? ref = pending := by
  obtain ⟨bit, reset, decided⟩ := cycle.reset taken
  have spared : ref.memory ∉ high := by
    rw [decided, reset.unique low]
    exact Bool.false_ne_true
  obtain ⟨held, present, -⟩ := Option.map_eq_some_iff.1 taken
  rw [SimState.pendingAt?, client?_nextState, if_neg spared, holds, present]
  rfl

section Client

variable {ref : ClientRef} {client : ServiceSite} {request response : RoleSite} {value : SimValue}
  (routed : sim.net.Routed sim.state.clientSite?)
  (taken : sim.state.clientSite? ref = some client)
  (connects : sim.net.Connects client request response)

include routed taken connects

theorem response_rests_of_request (cycle : sim.Cycle effects high)
    (moves : sim.net.Transfers sim.state request value) : sim.net.Rests sim.state response := by
  refine (cycle.performs.settled connects.served.2).resolve_right fun transfers => ?_
  obtain ⟨other, moves'⟩ := transfers
  have granted := moves.granted routed taken connects
  obtain ⟨-, idle, -⟩ := Netlist.client_of_grant routed taken connects granted
  obtain ⟨-, pending⟩ := moves'.pending routed taken connects
  rw [idle] at pending
  cases pending

theorem request_rests_of_response (cycle : sim.Cycle effects high)
    (moves : sim.net.Transfers sim.state response value) : sim.net.Rests sim.state request := by
  refine (cycle.performs.settled connects.served.1).resolve_right fun transfers => ?_
  obtain ⟨other, moves'⟩ := transfers
  exact moves.not_rests (response_rests_of_request routed taken connects cycle moves')

theorem client?_of_request (cycle : sim.Cycle effects high)
    (moves : sim.net.Transfers sim.state request value) {moment : SimState}
    (reached : sim.Moment request moment) :
    ∃ held served, sim.state.memories[ref.memory]? = some held ∧
      held.request ref.port value = .ok served ∧
      (Effect.applyAll sim.state effects).client? ref = (sim.state.client? ref).map
        (.hold ((moment.words? ref.memory).map fun words => served.answer words)) := by
  obtain ⟨earlier, later, before, equal, performs, rfl⟩ := reached
  have rests := response_rests_of_request routed taken connects cycle moves
  have whole := cycle.performs
  rw [equal] at whole
  obtain ⟨before', first, second, after, rfl, performs', source, sink, others⟩ :=
    whole.around moves
  obtain rfl := performs.unique performs'
  obtain ⟨held, served, present, serves, rfl⟩ := sinkEffects_request routed taken connects sink
  have single := Netlist.not_mem_of_servedRoles equal
  have early : ∀ effect ∈ before ++ first, effect.ref? ≠ some ref := by
    intro effect member about
    cases List.mem_append.1 member with
    | inl member =>
        exact performs.spares routed taken connects (fun inside => absurd inside single.1)
          (fun _ => rests) effect member about
    | inr member =>
        exact connects.apart (role_of_source routed taken connects source member about)
  have late := others.spares routed taken connects (fun inside => absurd inside single.2)
    fun _ => rests
  have own : (Effect.accept ref.memory ref.client served).ref? = some ref := by
    rw [Effect.ref?, Memory.port_of_request serves]
  have same : (Effect.applyAll sim.state (before ++ first)).words? ref.memory =
      (Effect.applyAll sim.state before).words? ref.memory := by
    rw [Effect.applyAll_append, Effect.words?_applyAll, written_sourceEffects source]
    exact Option.map_id'
  refine ⟨held, served, present, serves, ?_⟩
  rw [List.append_assoc, ← List.append_assoc, List.singleton_append,
    Effect.client?_applyAll_single early own late, Effect.leaves, same]

theorem holds_of_answers (cycle : sim.Cycle effects high)
    (moves : sim.net.Transfers sim.state request value) {word : SimValue}
    (answers : sim.Answers ref request value word) :
    (Effect.applyAll sim.state effects).client? ref =
      (sim.state.client? ref).map (.hold (some word)) := by
  cases answers with
  | @read address moment words word port reached known present =>
      obtain ⟨held, served, -, serves, after⟩ :=
        client?_of_request routed taken connects cycle moves reached
      rw [after, known]
      obtain ⟨address', -, equal, -, rfl⟩ | ⟨_, _, port', -⟩ := Memory.request_cases serves
      · cases equal
        simp [Request.answer, Array.getD_eq_getD_getElem?, present]
      · rw [port] at port'
        cases port'
  | write port =>
      obtain ⟨moment, reached⟩ := cycle.moment connects.served.1
      obtain ⟨held, served, present, serves, after⟩ :=
        client?_of_request routed taken connects cycle moves reached
      obtain ⟨now, known, -⟩ := reached.words? (SimState.words?_of_memory present)
      rw [after, known]
      obtain ⟨_, port', -⟩ | ⟨_, _, -, -, -, rfl⟩ := Memory.request_cases serves
      · rw [port] at port'
        cases port'
      · rfl

theorem exists_answer (cycle : sim.Cycle effects high)
    (moves : sim.net.Transfers sim.state request value) :
    ∃ word, sim.Answers ref request value word := by
  obtain ⟨moment, reached⟩ := cycle.moment connects.served.1
  obtain ⟨held, served, present, serves, -⟩ :=
    client?_of_request routed taken connects cycle moves reached
  obtain ⟨now, known, size⟩ := reached.words? (SimState.words?_of_memory present)
  obtain ⟨address, port, rfl, bound, -⟩ | ⟨address, word, port, rfl, -, -⟩ :=
    Memory.request_cases serves
  · rw [← size] at bound
    exact ⟨now[address.toNat], .read port reached known (Array.getElem?_eq_getElem bound)⟩
  · exact ⟨_, .write port⟩

theorem client?_of_response (cycle : sim.Cycle effects high)
    (moves : sim.net.Transfers sim.state response value) :
    (Effect.applyAll sim.state effects).client? ref =
      (sim.state.client? ref).map (.hold none) := by
  have rests := request_rests_of_response routed taken connects cycle moves
  obtain ⟨earlier, later, equal⟩ := List.append_of_mem connects.served.2
  have whole := cycle.performs
  rw [equal] at whole
  obtain ⟨before, first, second, after, rfl, performs, source, sink, others⟩ := whole.around moves
  obtain rfl := sourceEffects_response routed taken connects source
  have single := Netlist.not_mem_of_servedRoles equal
  have early := performs.spares routed taken connects (fun _ => rests)
    fun inside => absurd inside single.1
  have late : ∀ effect ∈ second ++ after, effect.ref? ≠ some ref := by
    intro effect member about
    cases List.mem_append.1 member with
    | inl member =>
        exact connects.apart (role_of_sink routed taken connects sink member about).symm
    | inr member =>
        exact others.spares routed taken connects (fun _ => rests)
          (fun inside => absurd inside single.2) effect member about
  rw [List.append_assoc, List.singleton_append,
    Effect.client?_applyAll_single early rfl late, Effect.leaves]

theorem exists_shows (cycle : sim.Cycle effects high) :
    ∃ event, sim.Shows ref request response event := by
  obtain ⟨bit, reset, -⟩ := cycle.reset taken
  have asks := cycle.performs.settled connects.served.1
  cases bit with
  | true =>
      obtain ⟨idle, refuses⟩ := Netlist.still_of_reset routed taken connects reset
      refine ⟨.reset, .reset reset idle (asks.resolve_right fun transfers => ?_)⟩
      obtain ⟨value, moves⟩ := transfers
      cases moves.ready.unique refuses
  | false =>
      obtain rests | ⟨value, moves⟩ := asks
      · obtain still | ⟨value, moves⟩ := cycle.performs.settled connects.served.2
        · cases pending : sim.state.pendingAt? ref with
          | none =>
              have idle := (Netlist.valid_response routed taken connects).2
                ⟨false, reset, by rw [pending]⟩
              exact ⟨.retabled, .retabled reset idle rests⟩
          | some value =>
              obtain ⟨offers, carries⟩ :=
                Netlist.offers_response routed taken connects reset pending
              obtain idle | ⟨-, stalls⟩ := still
              · cases idle.unique offers
              · exact ⟨.waiting value, .waiting reset offers carries stalls rests⟩
        · exact ⟨.taken value, .taken reset moves rests⟩
      · have granted := moves.granted routed taken connects
        obtain ⟨-, vacant, -⟩ := Netlist.client_of_grant routed taken connects granted
        have idle := (Netlist.valid_response routed taken connects).2
          ⟨false, reset, by rw [vacant]⟩
        obtain ⟨word, answers⟩ := exists_answer routed taken connects cycle moves
        exact ⟨.accepted value word, .accepted reset idle moves answers⟩

/-- Between cycles a response is pending exactly if a request was accepted and its response neither
taken nor dropped. -/
theorem steps_of_shows (cycle : sim.Cycle effects high) {event : ClientEvent}
    (shows : sim.Shows ref request response event) :
    event.Steps (sim.state.pendingAt? ref)
      ((nextState sim.state effects high).pendingAt? ref) := by
  have spared (request_rests : sim.net.Rests sim.state request)
      (response_rests : sim.net.Rests sim.state response) :
      (Effect.applyAll sim.state effects).client? ref = sim.state.client? ref :=
    Effect.client?_applyAll <|
      cycle.performs.spares routed taken connects (fun _ => request_rests) fun _ => response_rests
  have vacant (low : Yields sim.net sim.state (inReset sim.state ref.memory) false)
      (idle : Yields sim.net sim.state (roleValid sim.net sim.state response) false) :
      sim.state.pendingAt? ref = none := by
    cases pending : sim.state.pendingAt? ref with
    | none => rfl
    | some value =>
        cases idle.unique (Netlist.offers_response routed taken connects low pending).1
  have unchanged (low : Yields sim.net sim.state (inReset sim.state ref.memory) false)
      (same : (Effect.applyAll sim.state effects).client? ref = sim.state.client? ref) :
      (nextState sim.state effects high).pendingAt? ref = sim.state.pendingAt? ref := by
    refine cycle.pendingAt? taken low ?_
    rw [same]
    unfold SimState.pendingAt?
    cases sim.state.client? ref <;> rfl
  cases shows with
  | retabled low idle rests =>
      rw [unchanged low (spared rests (.inl idle)), vacant low idle]
      exact .retabled
  | @accepted value word low idle moves answers =>
      have holds := holds_of_answers routed taken connects cycle moves answers
      rw [cycle.pendingAt? taken low holds, vacant low idle]
      exact .accepted value word
  | @waiting value low offers carries stalls rests =>
      rw [unchanged low (spared rests (.inr ⟨offers, stalls⟩))]
      cases pending : sim.state.pendingAt? ref with
      | none =>
          have idle := (Netlist.valid_response routed taken connects).2
            ⟨false, low, by rw [pending]⟩
          cases idle.unique offers
      | some held =>
          obtain ⟨-, carries'⟩ := Netlist.offers_response routed taken connects low pending
          rw [carries'.unique carries]
          exact .waiting value
  | @taken value low moves rests =>
      obtain ⟨-, pending⟩ := moves.pending routed taken connects
      have holds := client?_of_response routed taken connects cycle moves
      rw [cycle.pendingAt? taken low holds, pending]
      exact .taken value
  | reset high' idle rests =>
      obtain ⟨bit, reset, decided⟩ := cycle.reset taken
      have dropped : ref.memory ∈ high := decided.2 (reset.unique high')
      have empty : (nextState sim.state effects high).pendingAt? ref = none := by
        rw [SimState.pendingAt?, client?_nextState, if_pos dropped]
        cases (Effect.applyAll sim.state effects).client? ref <;> rfl
      rw [empty]
      exact .reset _

end Client

/-- The events of a client in a run: one for each cycle that completes. -/
inductive Sees (ref : ClientRef) (request response : RoleSite) (sim : Simulator) (action : Action) :
    List ClientEvent → Prop
  | cycle {event : ClientEvent} (completes : sim.Completes action)
      (shows : sim.Shows ref request response event) :
      Sees ref request response sim action [event]
  | between (apart : ¬ sim.Completes action) : Sees ref request response sim action []

section Run

variable {ref : ClientRef} {client : ServiceSite} {request response : RoleSite}
  (routed : sim.net.Routed sim.state.clientSite?)
  (taken : sim.state.clientSite? ref = some client)
  (connects : sim.net.Connects client request response)

include routed taken connects

theorem exists_sees (action : Action) :
    ∃ events, Sees ref request response sim action events := by
  by_cases completes : sim.Completes action
  · obtain ⟨effects, high, cycle, -⟩ := (sim.turns action).of_completes completes
    obtain ⟨event, shows⟩ := exists_shows routed taken connects cycle
    exact ⟨[event], .cycle completes shows⟩
  · exact ⟨[], .between completes⟩

theorem exchanges_of_sees {action : Action} {events others : List ClientEvent}
    {after : Option SimValue} (sees : Sees ref request response sim action events)
    (rest : Exchanges ((sim.act action).state.pendingAt? ref) others after) :
    Exchanges (sim.state.pendingAt? ref) (events ++ others) after := by
  cases sees with
  | cycle completes shows =>
      obtain ⟨effects, high, cycle, state⟩ := (sim.turns action).of_completes completes
      rw [state] at rest
      exact .cons (steps_of_shows routed taken connects cycle shows) rest
  | between apart =>
      unfold SimState.pendingAt? at rest
      rwa [(sim.turns action).client?_of_not_completes apart] at rest

theorem exists_log (actions : List Action) :
    ∃ events, Log (Sees ref request response) sim actions events := by
  let holds (sim : Simulator) : Prop := sim.net.Routed sim.state.clientSite? ∧
    sim.state.clientSite? ref = some client ∧ sim.net.Connects client request response
  have kept (sim : Simulator) (action : Action) (held : holds sim) : holds (sim.act action) := by
    obtain ⟨routed, taken, connects⟩ := held
    have turns := sim.turns action
    exact ⟨turns.routed routed, by rwa [turns.clientSite?], by rwa [turns.net]⟩
  exact exists_log_of_kept kept (fun _ action held => exists_sees held.1 held.2.1 held.2.2 action)
    ⟨routed, taken, connects⟩ actions

theorem exchanges_of_log {actions : List Action} {events : List ClientEvent}
    (log : Log (Sees ref request response) sim actions events) :
    Exchanges (sim.state.pendingAt? ref) events ((sim.after actions).state.pendingAt? ref) := by
  induction log with
  | nil sim => exact .nil _
  | @cons sim action actions events others first rest induction =>
      have turns := sim.turns action
      refine exchanges_of_sees routed taken connects first ?_
      exact induction (turns.routed routed) (by rwa [turns.clientSite?]) (by rwa [turns.net])

end Run

theorem pendingAt?_of_withPolicy {design : CompiledDesign} {policy : ArbitrationPolicy}
    (made : withPolicy design policy = .ok sim) (ref : ClientRef) :
    sim.state.pendingAt? ref = none := by
  obtain ⟨-, entries, memoriesOf, -⟩ := withPolicy_ok made
  cases held : sim.state.client? ref with
  | none => rw [SimState.pendingAt?, held, Option.bind_none]
  | some client =>
      obtain ⟨memory, found, present⟩ := Option.bind_eq_some_iff.1 held
      rw [SimState.pendingAt?, held, Option.bind_some]
      exact ((memoriesOf.refs _ memory _ _ _ found).1 present).2

/-- Clients of memories see exactly one response for each request that is accepted, over every run
of a simulator of a built design. -/
theorem responses_exactly_once {design : CompiledDesign} {policy : ArbitrationPolicy}
    {start : Simulator} (built : design.Built) (made : withPolicy design policy = .ok start)
    (actions : List Action) :
    (∀ ref client, start.state.clientSite? ref = some client →
      ∃ request response, start.net.Connects client request response ∧
        (∃ events, Log (Sees ref request response) start actions events) ∧
        ∀ events, Log (Sees ref request response) start actions events →
          Exchanges none events ((start.after actions).state.pendingAt? ref)) ∧
    ∀ ref value, (start.after actions).Accepts ref value →
      Yields start.net (start.after actions).state
        (inReset (start.after actions).state ref.memory) false ∧
      (start.after actions).state.pendingAt? ref = none ∧
      ∀ other value', (start.after actions).Accepts other value' →
        other.memory = ref.memory → other.port = ref.port → other = ref := by
  have routed := routed_of_withPolicy built made
  constructor
  · intro ref client taken
    obtain ⟨request, response, connects⟩ := routed.connects taken
    refine ⟨request, response, connects, exists_log routed taken connects actions, ?_⟩
    intro events log
    rw [← pendingAt?_of_withPolicy made ref]
    exact exchanges_of_log routed taken connects log
  · intro ref value accepts
    have routed := routed_after routed actions
    obtain ⟨-, low, vacant⟩ := accepts.granted routed
    rw [(start.after_keeps actions).1] at low
    exact ⟨low, vacant, fun other value' accepts' => accepts.single routed accepts'⟩

theorem memory_writer_responses :
    ∃ design start request response events, CompiledDesign.Built design ∧
      withPolicy design .roundRobin = .ok start ∧
      start.net.Connects (2, 1) request response ∧
      Log (Sees ⟨0, .write, 1⟩ request response) start [.step, .step] events ∧
      Exchanges none events (some (.bits 0)) := by
  have run : (MemoryDesign.simulation?.bind fun made =>
      (made.2.after [.step, .step]).state.pendingAt? ⟨0, .write, 1⟩) = some (.bits 0) := by
    decide +kernel
  have ref : (MemoryDesign.simulation?.bind fun made =>
      made.2.state.clientSite? ⟨0, .write, 1⟩) = some (2, 1) := by
    decide +kernel
  obtain ⟨made, simulation, pending⟩ := Option.bind_eq_some_iff.1 run
  obtain ⟨design, start⟩ := made
  rw [simulation, Option.bind_some] at ref
  obtain ⟨built, made⟩ := MemoryDesign.built_of_simulation simulation
  obtain ⟨exchanges, -⟩ := responses_exactly_once built made [.step, .step]
  obtain ⟨request, response, connects, ⟨events, log⟩, exchanged⟩ := exchanges _ _ ref
  have history := exchanged events log
  rw [pending] at history
  exact ⟨design, start, request, response, events, built, made, connects, log, history⟩

end Simulator

end Elastic
