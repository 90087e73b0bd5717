import Elastic.Proofs.Sim.Runs

namespace Elastic

open Query

/-! Round robin serves every client. A round starts after the client that was served last and serves
the first that asks; so a client that keeps asking comes nearer to the start of the round with each
cycle, and is served within as many cycles as the port has clients. -/

namespace Arbiter

variable {requests : List Bool} {arbiter : Arbiter} {start count client away : Nat}

theorem exists_away {clients : Nat} (bound : client < clients) (start : Nat) :
    ∃ away < clients, (start + away) % clients = client := by
  have positive := Nat.lt_of_le_of_lt (Nat.zero_le _) bound
  refine ⟨(client + (clients - start % clients)) % clients, Nat.mod_lt _ positive, ?_⟩
  have below := Nat.mod_lt start positive
  have split := Nat.div_add_mod start clients
  calc (start + (client + (clients - start % clients)) % clients) % clients
      = (start + (client + (clients - start % clients))) % clients := Nat.add_mod_mod ..
    _ = (client + clients * (start / clients + 1)) % clients := by
        rw [Nat.mul_add, Nat.mul_one]
        congr 1
        omega
    _ = client := by rw [Nat.add_mul_mod_self_left, Nat.mod_eq_of_lt bound]

theorem search_nearer (asks : requests.getD client false = true)
    (far : (start + away) % requests.length = client) (reached : away < count) :
    ∃ served, search requests start count = some served ∧
      (served = client ∨ ∃ nearer < away, (served + 1 + nearer) % requests.length = client) := by
  induction count generalizing start away with
  | zero => exact absurd reached (Nat.not_lt_zero _)
  | succ count induction =>
      unfold search
      split
      · refine ⟨_, rfl, ?_⟩
        cases away with
        | zero => exact .inl far
        | succ away =>
            refine .inr ⟨away, Nat.lt_succ_self _, ?_⟩
            rw [Nat.add_assoc, Nat.mod_add_mod, ← far, Nat.add_comm 1]
      · rename_i passed
        cases away with
        | zero =>
            rw [Nat.add_zero] at far
            exact absurd (far ▸ asks) passed
        | succ away =>
            have far : (start + 1 + away) % requests.length = client := by
              rw [← far, Nat.add_assoc, Nat.add_comm 1]
            obtain ⟨served, found, nearer⟩ := induction far (Nat.lt_of_succ_lt_succ reached)
            refine ⟨served, found, nearer.imp_right fun nearer => ?_⟩
            obtain ⟨nearer, less, known⟩ := nearer
            exact ⟨nearer, Nat.lt_succ_of_lt less, known⟩

theorem select_nearer (round : arbiter.policy = .roundRobin)
    (asks : requests.getD client false = true)
    (far : (arbiter.start + away) % requests.length = client) (reached : away < requests.length) :
    ∃ served, arbiter.select requests = some served ∧
      (served = client ∨ ∃ nearer < away, (served + 1 + nearer) % requests.length = client) := by
  unfold select
  rw [round]
  exact search_nearer asks far reached

@[simp] theorem policy_commit (arbiter : Arbiter) (client : Nat) :
    (arbiter.commit client).policy = arbiter.policy := by
  unfold commit
  split
  · rfl
  · rfl

theorem start_commit (round : arbiter.policy = .roundRobin) (client : Nat) :
    (arbiter.commit client).start = client + 1 := by
  unfold commit
  rw [round]
  rfl

theorem policy_foldl_commit (clients : List Nat) :
    (clients.foldl commit arbiter).policy = arbiter.policy := by
  induction clients generalizing arbiter with
  | nil => rfl
  | cons client rest induction => rw [List.foldl_cons, induction, policy_commit]

theorem start_foldl_commit (round : arbiter.policy = .roundRobin) {clients : List Nat}
    (member : client ∈ clients) (single : ∀ other ∈ clients, other = client) :
    (clients.foldl commit arbiter).start = client + 1 := by
  obtain rfl | ⟨earlier, last, rfl⟩ := List.eq_nil_or_concat clients
  · cases member
  · rw [List.concat_eq_append] at single ⊢
    obtain rfl := single last (by simp)
    rw [List.foldl_append, List.foldl_cons, List.foldl_nil,
      start_commit ((policy_foldl_commit _).trans round)]

end Arbiter

namespace Memory

variable {memory : Memory} {port other : MemoryPort} {client : Nat} {request : Request}

theorem arbiter_accept : ((memory.accept client request).port port).arbiter =
    if request.port = port then (memory.port port).arbiter.commit client
    else (memory.port port).arbiter := by
  cases request <;> cases port <;> rfl

theorem arbiter_retire : ((memory.retire other client).port port).arbiter =
    (memory.port port).arbiter := by
  cases other <;> cases port <;> rfl

theorem arbiter_clear : (memory.clear.port port).arbiter = (memory.port port).arbiter := by
  cases port <;> rfl

end Memory

def SimState.arbiter? (state : SimState) (memory : Nat) (port : MemoryPort) : Option Arbiter :=
  (state.memories[memory]?).map fun held => (held.port port).arbiter

namespace Effect

variable {state : SimState} {effect : Effect} {effects : List Effect} {memory client : Nat}
  {port : MemoryPort}

def serves? (memory : Nat) (port : MemoryPort) : Effect → Option Nat
  | .accept other client request =>
    if other = memory ∧ request.port = port then some client else none
  | .retire _ _ _ | .pop _ _ | .push _ _ _ => none

theorem serves?_eq_some : effect.serves? memory port = some client ↔
    ∃ request, effect = .accept memory client request ∧ request.port = port := by
  cases effect with
  | retire other port client | pop host role | push host role value => simp [serves?]
  | accept other client' request =>
      rw [serves?, Option.ite_none_right_eq_some, Option.some.injEq]
      constructor
      · rintro ⟨⟨rfl, rfl⟩, rfl⟩
        exact ⟨request, rfl, rfl⟩
      · rintro ⟨request', equal, same⟩
        cases equal
        exact ⟨⟨rfl, same⟩, rfl⟩

theorem arbiter?_apply : (effect.apply state).arbiter? memory port =
    (state.arbiter? memory port).map
      ((effect.serves? memory port).toList.foldl Arbiter.commit) := by
  cases effect with
  | pop host role | push host role value => exact Option.map_id'.symm
  | retire other port' client =>
      simp only [apply, SimState.arbiter?, SimState.memory?_modifyMemory, serves?]
      cases state.memories[memory]? with
      | none => split <;> rfl
      | some held => split <;> simp [Memory.arbiter_retire]
  | accept other client request =>
      simp only [apply, SimState.arbiter?, SimState.memory?_modifyMemory, serves?]
      cases state.memories[memory]? with
      | none => split <;> rfl
      | some held =>
          by_cases same : other = memory
          · by_cases here : request.port = port <;> simp [same, here, Memory.arbiter_accept]
          · simp [same]

theorem arbiter?_applyAll : (applyAll state effects).arbiter? memory port =
    (state.arbiter? memory port).map
      ((effects.filterMap (serves? memory port)).foldl Arbiter.commit) := by
  induction effects generalizing state with
  | nil => exact Option.map_id'.symm
  | cons effect rest induction =>
      rw [applyAll_cons, induction, arbiter?_apply, Option.map_map, List.filterMap_cons]
      cases effect.serves? memory port <;> rfl

end Effect

namespace Simulator

theorem arbiter?_nextState {state : SimState} {effects : List Effect} {high : List Nat}
    (memory : Nat) (port : MemoryPort) : (nextState state effects high).arbiter? memory port =
      (state.arbiter? memory port).map
        ((effects.filterMap (Effect.serves? memory port)).foldl Arbiter.commit) := by
  rw [← Effect.arbiter?_applyAll]
  unfold nextState
  generalize Effect.applyAll state effects = state
  induction high generalizing state with
  | nil => rfl
  | cons other rest induction =>
      rw [List.foldl_cons, induction]
      simp only [SimState.arbiter?, SimState.memory?_modifyMemory]
      cases state.memories[memory]? with
      | none => split <;> rfl
      | some held => split <;> simp [Memory.arbiter_clear]

variable {sim next : Simulator} {action : Action} {effects : List Effect} {high : List Nat}
  {ref : ClientRef} {memory client : Nat} {port : MemoryPort}

theorem Turns.arbiter?_of_not_completes (turns : sim.Turns action next)
    (between : ¬ sim.Completes action) : next.state.arbiter? = sim.state.arbiter? := by
  cases turns with
  | cycle completes cycle net state => exact absurd completes between
  | poke called found known pokes succeeds net state =>
      funext memory port
      simp only [state, SimState.arbiter?, SimState.memory?_modifyMemory]
      split
      · rename_i same
        rw [← same, known, Option.map_some, Option.map_some, Option.map_some,
          (ports_of_poke pokes).1]
      · rfl
  | aside between refused net memories =>
      unfold SimState.arbiter?
      rw [memories]

/-- A client is eligible: it offers a request and has no response pending. -/
def Asks (sim : Simulator) (ref : ClientRef) : Prop :=
  ∃ client request, sim.state.clientSite? ref = some client ∧
    sim.net.clientRole? client .toService = some request ∧
    Yields sim.net sim.state (roleValid sim.net sim.state request) true ∧
    sim.state.pendingAt? ref = none

section

variable (routed : sim.net.Routed sim.state.clientSite?)

include routed

theorem Accepts.asks {value : SimValue} (accepts : sim.Accepts ref value) : sim.Asks ref := by
  obtain ⟨-, -, vacant⟩ := accepts.granted routed
  obtain ⟨client, request, taken, asks, moves⟩ := accepts
  exact ⟨client, request, taken, asks, moves.valid, vacant⟩

theorem Cycle.accepts_of_grant (cycle : sim.Cycle effects high)
    (settles : (Signal.grant memory port).Settles sim.net sim.state (some client)) :
    ∃ value, sim.Accepts ⟨memory, port, client⟩ value := by
  obtain ⟨-, held, present, -⟩ := Query.settles_grant_some settles
  have taken : sim.state.clientSite? ⟨memory, port, client⟩ = some held.site := by
    rw [SimState.clientSite?, present, Option.map_some]
  obtain ⟨request, response, connects⟩ := routed.connects taken
  obtain ⟨-, -, valid, ready⟩ := Netlist.client_of_grant routed taken connects settles
  obtain (idle | ⟨-, stalls⟩) | ⟨value, moves⟩ := cycle.performs.settled connects.served.1
  · cases idle.unique valid
  · cases stalls.unique ready
  · exact ⟨value, held.site, request, taken, connects.requests, moves⟩

/-- A cycle in which a client asks settles the grant of its port: the arbiter selects one of those
that ask, and the request of that one is accepted. -/
theorem Cycle.serves (cycle : sim.Cycle effects high)
    (low : Yields sim.net sim.state (inReset sim.state memory) false)
    (asks : sim.Asks ⟨memory, port, client⟩) :
    ∃ held requested, sim.state.memories[memory]? = some held ∧
      requested.length = (held.port port).clients.length ∧ requested.getD client false = true ∧
      ∀ served, (held.port port).arbiter.select requested = some served →
        ∃ value, sim.Accepts ⟨memory, port, served⟩ value := by
  obtain ⟨stands, request, taken, asked, valid, vacant⟩ := asks
  obtain ⟨request', response, connects⟩ := routed.connects taken
  cases asked.symm.trans connects.requests
  obtain ⟨granted, settles⟩ : ∃ granted,
      (Signal.grant memory port).Settles sim.net sim.state granted := by
    obtain (idle | ⟨-, stalls⟩) | ⟨value, moves⟩ := cycle.performs.settled connects.served.1
    · cases idle.unique valid
    · obtain ⟨granted, settles, -⟩ :=
        (Netlist.ready_request routed taken connects).1 stalls
      exact ⟨granted, settles⟩
    · exact ⟨_, moves.granted routed taken connects⟩
  obtain ⟨high, -⟩ | ⟨-, held, requested, found, yields, selected⟩ :=
    Query.settles_grant_cases settles
  · cases high.unique low
  obtain ⟨length, decided⟩ := List.forall₂_iff_get.1 (Query.requests_forall₂ yields)
  refine ⟨held, requested, found, length.symm, ?_, fun served chosen => ?_⟩
  · obtain ⟨own, present, rfl⟩ := Option.map_eq_some_iff.1 taken
    rw [SimState.pendingAt?, present, Option.bind_some] at vacant
    rw [SimState.client?, found, Option.bind_some] at present
    obtain ⟨inside, same⟩ := List.getElem?_eq_some_iff.1 present
    have bound : client < requested.length := length ▸ inside
    rw [List.getD_eq_getElem?_getD, List.getElem?_eq_getElem bound, Option.getD_some]
    refine (decided client inside bound).2 ?_
    rw [List.get_eq_getElem, same, Netlist.requestValid_eq connects rfl]
    exact ⟨vacant, valid⟩
  · rw [chosen] at selected
    subst selected
    exact cycle.accepts_of_grant routed settles

theorem Cycle.start_of_accepts (cycle : sim.Cycle effects high) {value : SimValue}
    (accepts : sim.Accepts ⟨memory, port, client⟩ value) {arbiter : Arbiter}
    (known : sim.state.arbiter? memory port = some arbiter)
    (round : arbiter.policy = .roundRobin) :
    ∃ now, (nextState sim.state effects high).arbiter? memory port = some now ∧
      now.policy = .roundRobin ∧ now.start = client + 1 := by
  have single : ∀ other ∈ effects.filterMap (Effect.serves? memory port), other = client := by
    intro other member
    obtain ⟨effect, inside, serves⟩ := List.mem_filterMap.1 member
    obtain ⟨request, rfl, rfl⟩ := Effect.serves?_eq_some.1 serves
    obtain ⟨site, -, stands, value', taken, role, moves⟩ :=
      cycle.performs.transfer_of_accept routed inside
    have accepts' : sim.Accepts ⟨memory, request.port, other⟩ value' :=
      ⟨stands, site, taken, role, moves⟩
    exact congrArg ClientRef.client (accepts.single routed accepts' rfl rfl)
  have served : client ∈ effects.filterMap (Effect.serves? memory port) := by
    obtain ⟨stands, request, taken, asks, moves⟩ := accepts
    obtain ⟨request', response, connects⟩ := routed.connects taken
    cases asks.symm.trans connects.requests
    obtain ⟨earlier, later, equal⟩ := List.append_of_mem connects.served.1
    have whole := cycle.performs
    rw [equal] at whole
    obtain ⟨before, first, second, after, rfl, -, -, sink, -⟩ := whole.around moves
    obtain ⟨held, request', -, serves, rfl⟩ := sinkEffects_request routed taken connects sink
    refine List.mem_filterMap.2 ⟨.accept memory client request', by simp, ?_⟩
    exact Effect.serves?_eq_some.2 ⟨request', rfl, Memory.port_of_request serves⟩
  rw [arbiter?_nextState, known, Option.map_some]
  exact ⟨_, rfl, (Arbiter.policy_foldl_commit _).trans round,
    Arbiter.start_foldl_commit round served single⟩

end

def Rotates (sim : Simulator) : Prop :=
  ∀ memory port arbiter, sim.state.arbiter? memory port = some arbiter →
    arbiter.policy = .roundRobin

theorem rotates_act (rotates : sim.Rotates) (action : Action) : (sim.act action).Rotates := by
  intro memory port arbiter known
  by_cases completes : sim.Completes action
  · obtain ⟨effects, high, -, state⟩ := (sim.turns action).of_completes completes
    rw [state, arbiter?_nextState] at known
    obtain ⟨before, earlier, rfl⟩ := Option.map_eq_some_iff.1 known
    exact (Arbiter.policy_foldl_commit _).trans (rotates memory port before earlier)
  · rw [(sim.turns action).arbiter?_of_not_completes completes] at known
    exact rotates memory port arbiter known

theorem rotates_after (rotates : sim.Rotates) (actions : List Action) :
    (sim.after actions).Rotates := by
  induction actions generalizing sim with
  | nil => exact rotates
  | cons action rest induction => exact induction (rotates_act rotates action)

theorem rotates_of_withPolicy {design : CompiledDesign}
    (made : withPolicy design .roundRobin = .ok sim) : sim.Rotates := by
  intro memory port arbiter known
  obtain ⟨⟨memories, entries⟩, memoriesOf, made⟩ := exists_of_bind_ok made
  cases made
  obtain ⟨held, found, rfl⟩ := Option.map_eq_some_iff.1 known
  rw [arbiter_of_newMemories memoriesOf held (List.mem_of_getElem? found)]

def HasClients (sim : Simulator) (memory : Nat) (port : MemoryPort) (clients : Nat) : Prop :=
  ∀ place, (sim.state.clientSite? ⟨memory, port, place⟩).isSome ↔ place < clients

theorem hasClients_of_memory {held : Memory} (found : sim.state.memories[memory]? = some held) :
    sim.HasClients memory port (held.port port).clients.length := by
  intro place
  rw [SimState.clientSite?, Option.isSome_map, SimState.client?, found, Option.bind_some]
  simp

theorem HasClients.length_eq {clients : Nat} (hasClients : sim.HasClients memory port clients)
    {held : Memory} (found : sim.state.memories[memory]? = some held) :
    (held.port port).clients.length = clients := by
  have same (place : Nat) : place < (held.port port).clients.length ↔ place < clients :=
    (hasClients_of_memory found place).symm.trans (hasClients place)
  have less := same clients
  have more := same (held.port port).clients.length
  omega

end Simulator

/-- What a completed cycle comes to for a client of a port: its request is accepted, or it waits
though it is eligible and the memory is out of reset, or neither. -/
inductive PortEvent
  | served
  | waiting
  | idle

namespace Simulator

variable {sim : Simulator} {memory client : Nat} {port : MemoryPort}

inductive Attends (ref : ClientRef) (sim : Simulator) (action : Action) : List PortEvent → Prop
  | served {value : SimValue} (completes : sim.Completes action)
      (accepts : sim.Accepts ref value) : Attends ref sim action [.served]
  | waiting (completes : sim.Completes action)
      (low : Yields sim.net sim.state (inReset sim.state ref.memory) false)
      (asks : sim.Asks ref) (refused : ∀ value, ¬ sim.Accepts ref value) :
      Attends ref sim action [.waiting]
  | idle (completes : sim.Completes action)
      (apart : ¬ (Yields sim.net sim.state (inReset sim.state ref.memory) false ∧ sim.Asks ref))
      (refused : ∀ value, ¬ sim.Accepts ref value) : Attends ref sim action [.idle]
  | between (apart : ¬ sim.Completes action) : Attends ref sim action []

theorem exists_attends (ref : ClientRef) (sim : Simulator) (action : Action) :
    ∃ events, Attends ref sim action events := by
  by_cases completes : sim.Completes action
  · by_cases served : ∃ value, sim.Accepts ref value
    · obtain ⟨value, accepts⟩ := served
      exact ⟨_, .served completes accepts⟩
    · have refused := not_exists.1 served
      by_cases eligible :
          Yields sim.net sim.state (inReset sim.state ref.memory) false ∧ sim.Asks ref
      · exact ⟨_, .waiting completes eligible.1 eligible.2 refused⟩
      · exact ⟨_, .idle completes eligible refused⟩
  · exact ⟨_, .between completes⟩

/-- The events of a client that is eligible, with the memory out of reset, until it is served. -/
def EligibleUntilServed (events : List PortEvent) : Prop :=
  ∀ earlier later, events = earlier ++ .idle :: later → .served ∈ earlier

/-- A client that is some places away from the start of the round waits for that many cycles at
most. -/
theorem served_of_away {actions : List Action} {events : List PortEvent}
    (log : Log (Attends ⟨memory, port, client⟩) sim actions events)
    (routed : sim.net.Routed sim.state.clientSite?) (rotates : sim.Rotates) {clients : Nat}
    (hasClients : sim.HasClients memory port clients) {arbiter : Arbiter}
    (known : sim.state.arbiter? memory port = some arbiter) {away : Nat} (near : away < clients)
    (far : (arbiter.start + away) % clients = client) (untilServed : EligibleUntilServed events)
    (enough : away < events.length) : .served ∈ events.take (away + 1) := by
  induction log generalizing arbiter away with
  | nil sim => exact absurd enough (Nat.not_lt_zero _)
  | @cons sim action actions events others first rest induction =>
      have turns := sim.turns action
      have routed' := turns.routed routed
      have hasClients' : (sim.act action).HasClients memory port clients := by
        unfold HasClients
        rwa [turns.clientSite?]
      cases first with
      | served completes accepts => exact List.mem_cons_self
      | idle completes apart refused =>
          have served := untilServed [] others rfl
          cases served
      | between apart =>
          rw [← turns.arbiter?_of_not_completes apart] at known
          exact induction routed' (rotates_act rotates action) hasClients' known near far
            untilServed enough
      | waiting completes low asks refused =>
          obtain ⟨effects, high, cycle, state⟩ := turns.of_completes completes
          obtain ⟨held, requested, found, length, asked, accepted⟩ :=
            cycle.serves routed low asks
          obtain rfl : (held.port port).arbiter = arbiter := by
            rw [SimState.arbiter?, found, Option.map_some] at known
            exact Option.some.inj known
          rw [hasClients.length_eq found] at length
          have round := rotates memory port _ known
          obtain ⟨served, selected, chosen⟩ :=
            Arbiter.select_nearer round asked (length ▸ far) (length ▸ near)
          obtain ⟨value, accepts⟩ := accepted served selected
          obtain rfl | ⟨nearer, less, ahead⟩ := chosen
          · exact absurd accepts (refused value)
          obtain ⟨now, known', -, start⟩ := cycle.start_of_accepts routed accepts known round
          rw [← state] at known'
          have untilServed' : EligibleUntilServed others := by
            intro earlier later equal
            have served := untilServed (.waiting :: earlier) later (by rw [equal]; rfl)
            simpa using served
          have long : away < others.length + 1 := enough
          have later := induction routed' (rotates_act rotates action) hasClients' known'
            (Nat.lt_trans less near) (by rw [start, ← length]; exact ahead) untilServed'
            (Nat.lt_of_lt_of_le less (Nat.le_of_lt_succ long))
          exact List.mem_cons_of_mem _ (List.take_subset_take_left others less later)

section

variable (routed : sim.net.Routed sim.state.clientSite?) (rotates : sim.Rotates) {clients : Nat}
  (hasClients : sim.HasClients memory port clients)

include routed rotates hasClients

theorem served_of_untilServed (bound : client < clients) {actions : List Action}
    {events : List PortEvent} (log : Log (Attends ⟨memory, port, client⟩) sim actions events)
    (untilServed : EligibleUntilServed events) (enough : clients ≤ events.length) :
    .served ∈ events.take clients := by
  obtain ⟨stands, taken⟩ := Option.isSome_iff_exists.1 ((hasClients client).2 bound)
  obtain ⟨own, present, -⟩ := Option.map_eq_some_iff.1 taken
  obtain ⟨held, found, -⟩ := Option.bind_eq_some_iff.1 present
  have known : sim.state.arbiter? memory port = some (held.port port).arbiter := by
    rw [SimState.arbiter?, found, Option.map_some]
  obtain ⟨away, near, far⟩ := Arbiter.exists_away bound (held.port port).arbiter.start
  have served := served_of_away log routed rotates hasClients known near far untilServed
    (Nat.lt_of_lt_of_le near enough)
  exact List.take_subset_take_left events near served

theorem Cycle.exists_accepts {effects : List Effect} {high : List Nat}
    (cycle : sim.Cycle effects high)
    (low : Yields sim.net sim.state (inReset sim.state memory) false)
    (asks : sim.Asks ⟨memory, port, client⟩) :
    ∃ served, sim.Asks ⟨memory, port, served⟩ ∧
      (∃ value, sim.Accepts ⟨memory, port, served⟩ value) ∧
      ∀ other value, sim.Accepts ⟨memory, port, other⟩ value → other = served := by
  obtain ⟨held, requested, found, length, asked, accepted⟩ := cycle.serves routed low asks
  have bound : client < requested.length := by
    rw [length, hasClients.length_eq found]
    obtain ⟨stands, request, taken, -⟩ := asks
    exact (hasClients client).1 (Option.isSome_iff_exists.2 ⟨stands, taken⟩)
  have round : (held.port port).arbiter.policy = .roundRobin := by
    refine rotates memory port _ ?_
    rw [SimState.arbiter?, found, Option.map_some]
  obtain ⟨away, near, far⟩ := Arbiter.exists_away bound (held.port port).arbiter.start
  obtain ⟨served, selected, -⟩ := Arbiter.select_nearer round asked far near
  obtain ⟨value, accepts⟩ := accepted served selected
  refine ⟨served, accepts.asks routed, ⟨value, accepts⟩, fun other value' accepts' => ?_⟩
  exact congrArg ClientRef.client (accepts.single routed accepts' rfl rfl)

end

/-- With round robin, in every run of a simulator of a built design: a client of a memory port that
is eligible until it is served, with the memory out of reset, is served within as many cycles as the
port has clients; and a cycle in which a client is eligible out of reset accepts the request of
exactly one client, which is eligible. -/
theorem round_robin_serves {design : CompiledDesign} {start : Simulator} (built : design.Built)
    (made : withPolicy design .roundRobin = .ok start) (before : List Action) {held : Memory}
    (found : start.state.memories[memory]? = some held) (port : MemoryPort) :
    (∀ client < (held.port port).clients.length, ∀ actions,
      (∃ events, Log (Attends ⟨memory, port, client⟩) (start.after before) actions events) ∧
      ∀ events, Log (Attends ⟨memory, port, client⟩) (start.after before) actions events →
        EligibleUntilServed events → (held.port port).clients.length ≤ events.length →
        .served ∈ events.take (held.port port).clients.length) ∧
    ∀ count, (start.after before).step.1 = .ok count →
      Yields start.net (start.after before).state (inReset (start.after before).state memory)
        false →
      (∃ client, (start.after before).Asks ⟨memory, port, client⟩) →
      ∃ client, (start.after before).Asks ⟨memory, port, client⟩ ∧
        (∃ value, (start.after before).Accepts ⟨memory, port, client⟩ value) ∧
        ∀ other value, (start.after before).Accepts ⟨memory, port, other⟩ value →
          other = client := by
  have routed := routed_after (routed_of_withPolicy built made) before
  have rotates := rotates_after (rotates_of_withPolicy made) before
  obtain ⟨net, clients⟩ := start.after_keeps before
  have hasClients : (start.after before).HasClients memory port
    (held.port port).clients.length := by
    unfold HasClients
    rw [clients]
    exact hasClients_of_memory found
  constructor
  · intro client bound actions
    have shown (sim : Simulator) (action : Action) (_ : True) :=
      exists_attends ⟨memory, port, client⟩ sim action
    exact ⟨exists_log_of_kept (fun _ _ => id) shown trivial actions, fun events log =>
      served_of_untilServed routed rotates hasClients bound log⟩
  · intro count completed low eligible
    obtain ⟨client, asks⟩ := eligible
    obtain ⟨effects, high, cycle, -⟩ :=
      ((start.after before).turns .step).of_completes ⟨rfl, count, completed⟩
    rw [← net] at low
    exact cycle.exists_accepts routed rotates hasClients low asks

def eligible? (sim : Simulator) (ref : ClientRef) : Option Bool := do
  let client ← sim.state.clientSite? ref
  let request ← sim.net.clientRole? client .toService
  let high ← ((sim.settle (inReset sim.state ref.memory)).run' []).toOption
  let valid ← ((sim.settle (roleValid sim.net sim.state request)).run' []).toOption
  return !high && valid && (sim.state.pendingAt? ref).isNone

theorem asks_of_eligible? {ref : ClientRef} (eligible : sim.eligible? ref = some true) :
    Yields sim.net sim.state (inReset sim.state ref.memory) false ∧ sim.Asks ref := by
  obtain ⟨client, taken, eligible⟩ := Option.bind_eq_some_iff.1 eligible
  obtain ⟨request, role, eligible⟩ := Option.bind_eq_some_iff.1 eligible
  obtain ⟨high, reset, eligible⟩ := Option.bind_eq_some_iff.1 eligible
  obtain ⟨valid, offers, eligible⟩ := Option.bind_eq_some_iff.1 eligible
  obtain ⟨decided, vacant⟩ := Bool.and_eq_true_iff.1 (Option.some.inj eligible)
  obtain ⟨low, valid⟩ := Bool.and_eq_true_iff.1 decided
  obtain rfl : high = false := by simpa using low
  subst valid
  exact ⟨yields_of_settle reset, client, request, taken, role, yields_of_settle offers,
    Option.isNone_iff_eq_none.1 vacant⟩

def steady (ref : ClientRef) : Simulator → Nat → Bool
  | _, 0 => true
  | sim, cycles + 1 =>
    sim.eligible? ref = some true && sim.step.1.toOption.isSome && steady ref sim.step.2 cycles

theorem untilServed_of_steady {ref : ClientRef} {cycles : Nat} {events : List PortEvent}
    (log : Log (Attends ref) sim (List.replicate cycles .step) events)
    (held : steady ref sim cycles = true) :
    events.length = cycles ∧ ∀ event ∈ events, event ≠ .idle := by
  induction cycles generalizing sim events with
  | zero =>
      cases log
      exact ⟨rfl, nofun⟩
  | succ cycles induction =>
      obtain ⟨now, later⟩ := Bool.and_eq_true_iff.1 held
      obtain ⟨eligible, ends⟩ := Bool.and_eq_true_iff.1 now
      have completes := completes_of_isSome ends
      cases log with
      | cons first rest =>
          obtain ⟨length, busy⟩ := induction rest later
          cases first with
          | served _ accepts | waiting _ low asks refused => simpa [length] using busy
          | idle _ apart refused =>
              exact absurd (asks_of_eligible? (of_decide_eq_true eligible)) apart
          | between apart => exact absurd completes apart

end Simulator

namespace MemoryDesign

def contend : List Action := [.hostSend "Top.read" "address" (.bits 2)]

theorem second_reader_is_served :
    ∃ design start events, CompiledDesign.Built design ∧
      Simulator.withPolicy design .roundRobin = .ok start ∧
      Simulator.Log (Simulator.Attends ⟨0, .read, 1⟩) (start.after contend) [.step, .step] events ∧
      Simulator.EligibleUntilServed events ∧ events.length = 2 ∧ PortEvent.served ∈ events := by
  have facts : (simulation?.bind fun made => (made.2.state.memories[0]?).map fun held =>
      ((held.port .read).clients.length,
        Simulator.steady ⟨0, .read, 1⟩ (made.2.after contend) 2)) = some (2, true) := by
    decide +kernel
  obtain ⟨⟨design, start⟩, simulation, facts⟩ := Option.bind_eq_some_iff.1 facts
  obtain ⟨held, found, facts⟩ := Option.map_eq_some_iff.1 facts
  obtain ⟨clients, steady⟩ := Prod.mk.inj facts
  obtain ⟨built, made⟩ := built_of_simulation simulation
  obtain ⟨serves, -⟩ := Simulator.round_robin_serves built made contend found .read
  rw [clients] at serves
  obtain ⟨⟨events, log⟩, served⟩ := serves 1 (Nat.lt_succ_self 1) (List.replicate 2 .step)
  obtain ⟨length, busy⟩ := Simulator.untilServed_of_steady log steady
  have untilServed : Simulator.EligibleUntilServed events := by
    intro earlier later equal
    exact absurd rfl (busy .idle (by simp [equal]))
  have within := served events log untilServed (Nat.le_of_eq length.symm)
  exact ⟨design, start, events, built, made, log, untilServed, length, List.mem_of_mem_take within⟩

end MemoryDesign

end Elastic
