import Elastic.Sim.Simulator
import Elastic.Proofs.Compile.Resolution

namespace Elastic

/-! The clients at the ports of memories. Each client of a builtin takes one place, in the order in
which resolution found the clients, and the endpoints of a netlist lead to these places. -/

def ClientRef.endpoint (ref : ClientRef) : Endpoint := .memory ref.memory ref.port ref.client

def PortClient.site (client : PortClient) : ServiceSite := (client.inst, client.serviceInstance)

def SimState.clientSite? (state : SimState) (ref : ClientRef) : Option ServiceSite :=
  (state.client? ref).map PortClient.site

/-- What no run changes in a memory. -/
structure MemoryFrame where
  word : Ty
  depth : Nat
  inst : InstanceId
  reset : Option ExprId

namespace Memory

def frame (memory : Memory) : MemoryFrame :=
  ⟨memory.word, memory.depth, memory.inst, memory.reset⟩

@[simp] theorem frame_modifyPort (memory : Memory) (port : MemoryPort)
    (change : PortState → PortState) : (memory.modifyPort port change).frame = memory.frame := by
  cases port <;> rfl

@[simp] theorem port_modifyPort_self (memory : Memory) (port : MemoryPort)
    (change : PortState → PortState) : (memory.modifyPort port change).port port =
      change (memory.port port) := by
  cases port <;> rfl

theorem port_modifyPort_other (memory : Memory) {port other : MemoryPort}
    (change : PortState → PortState) (distinct : other ≠ port) :
    (memory.modifyPort port change).port other = memory.port other := by
  cases port <;> cases other <;> first | rfl | exact absurd rfl distinct

@[simp] theorem words_modifyPort (memory : Memory) (port : MemoryPort)
    (change : PortState → PortState) : (memory.modifyPort port change).words = memory.words := by
  cases port <;> rfl

end Memory

def BuiltinSite.frame (builtin : BuiltinSite) (graph : Graph) (shape : MemoryShape) :
    MemoryFrame where
  word := shape.word
  depth := shape.depth.toNat
  inst := builtin.inst
  reset := ((graph.moduleOf builtin.inst).builtins[builtin.position]?).bind (·.inputs[1]?)

theorem exists_of_bind_ok {outcome : Except ε α} {next : α → Except ε β} {value : β}
    (made : outcome >>= next = .ok value) :
    ∃ held, outcome = .ok held ∧ next held = .ok value := by
  cases outcome with
  | error error => cases made
  | ok held => exact ⟨held, rfl, made⟩

namespace Simulator

abbrev Entry := ServiceSite × Endpoint

structure Joined (index : Nat) (before after : Memory) (clients : List Client)
    (entries : List Entry) : Prop where
  words : after.words = before.words
  frame : after.frame = before.frame
  arbiters : ∀ port, (after.port port).arbiter = (before.port port).arbiter
  sites : entries.map (·.1) = clients.map Client.site
  refs : ∀ port place client, (after.port port).clients[place]? = some client ↔
    (before.port port).clients[place]? = some client ∨
      (client.site, Endpoint.memory index port place) ∈ entries ∧ client.pending = none
  origin : ∀ entry ∈ entries, ∃ client ∈ clients, ∃ port place, entry.1 = client.site ∧
    MemoryPort.ofOperation? client.operation = some port ∧
    entry.2 = .memory index port place

theorem clients_addClient (memory : Memory) (port : MemoryPort) (client : Client)
    (other : MemoryPort) (place : Nat) (held : PortClient) :
    ((addClient memory port client).port other).clients[place]? = some held ↔
      (memory.port other).clients[place]? = some held ∨
        other = port ∧ place = (memory.port port).clients.length ∧
          held.site = client.site ∧ held.pending = none := by
  have same : held = ⟨client.inst, client.serviceInstance, none⟩ ↔
      held.site = client.site ∧ held.pending = none := by
    cases held
    simp only [PortClient.site, Client.site, PortClient.mk.injEq, Prod.mk.injEq, and_assoc]
  by_cases here : other = port
  · subst here
    simp only [addClient, Memory.port_modifyPort_self, true_and, ← same]
    rw [List.getElem?_append]
    split
    · rename_i bound
      refine ⟨.inl, fun cases => cases.resolve_right fun last => ?_⟩
      exact absurd last.1 (Nat.ne_of_lt bound)
    · rename_i beyond
      rw [List.getElem?_eq_none (Nat.le_of_not_lt beyond)]
      simp only [List.getElem?_singleton, reduceCtorEq, false_or]
      constructor
      · intro found
        split at found
        · cases found
          exact ⟨by omega, rfl⟩
        · cases found
      · intro last
        rw [if_pos (by omega), last.2]
  · rw [addClient, Memory.port_modifyPort_other _ _ here]
    simp only [here, false_and, or_false]

theorem arbiter_addClient (memory : Memory) (port : MemoryPort) (client : Client)
    (other : MemoryPort) :
    ((addClient memory port client).port other).arbiter = (memory.port other).arbiter := by
  cases port <;> cases other <;> rfl

theorem joined_of_addClients {index : Nat} {clients : List Client} {before after : Memory}
    {entries : List Entry} (added : addClients index before clients = .ok (after, entries)) :
    Joined index before after clients entries := by
  induction clients generalizing before entries with
  | nil =>
      cases added
      exact ⟨rfl, rfl, fun _ => rfl, rfl, fun port place client => by simp, nofun⟩
  | cons client rest induction =>
      unfold addClients at added
      split at added
      · cases added
      · rename_i port named
        dsimp only at added
        cases others : addClients index (addClient before port client) rest with
        | error error =>
            rw [others] at added
            cases added
        | ok result =>
            obtain ⟨full, others'⟩ := result
            rw [others] at added
            cases added
            have joined := induction others
            refine ⟨?_, ?_, ?_, ?_, ?_, ?_⟩
            · rw [joined.words, addClient, Memory.words_modifyPort]
            · rw [joined.frame, addClient, Memory.frame_modifyPort]
            · exact fun other => (joined.arbiters other).trans (arbiter_addClient ..)
            · rw [List.map_cons, List.map_cons, joined.sites]
              rfl
            · intro port' place held
              have first : (held.site, Endpoint.memory index port' place) =
                  (client.site, Endpoint.memory index port (before.port port).clients.length) ↔
                  held.site = client.site ∧ port' = port ∧
                    place = (before.port port).clients.length := by
                rw [Prod.ext_iff, Endpoint.memory.injEq]
                simp
              rw [joined.refs, clients_addClient]
              change _ ↔ _ ∨ (_ ∈ (client.site, _) :: others') ∧ _
              rw [List.mem_cons, first]
              constructor
              · intro cases
                obtain (old | ⟨rfl, rfl, site, idle⟩) | later := cases
                · exact .inl old
                · exact .inr ⟨.inl ⟨site, rfl, rfl⟩, idle⟩
                · exact .inr ⟨.inr later.1, later.2⟩
              · intro cases
                obtain old | ⟨⟨site, rfl, rfl⟩ | later, idle⟩ := cases
                · exact .inl (.inl old)
                · exact .inl (.inr ⟨rfl, rfl, site, idle⟩)
                · exact .inr ⟨later, idle⟩
            · intro entry member
              cases List.mem_cons.1 member with
              | inl first =>
                  rw [first]
                  exact ⟨client, List.mem_cons_self .., port, _, rfl, named, rfl⟩
              | inr later =>
                  obtain ⟨other, inside, known⟩ := joined.origin entry later
                  exact ⟨other, List.mem_cons_of_mem _ inside, known⟩

/-- The memories of builtins, numbered from a position on, with their endpoints. -/
structure MemoriesOf (graph : Graph) (first : Nat) (builtins : List BuiltinSite)
    (memories : List Memory) (entries : List Entry) : Prop where
  sites : entries.map (·.1) = builtins.flatMap fun builtin => builtin.clients.map Client.site
  shape : ∀ (place : Nat) (memory : Memory), memories[place]? = some memory →
    ∃ builtin shape, builtins[place]? = some builtin ∧
      (graph.serviceAt? builtin.service).bind (·.memory) = some shape ∧
      memory.words = Array.replicate shape.depth.toNat (.zero shape.word)
  frame : ∀ (place : Nat) (memory : Memory), memories[place]? = some memory →
    ∃ builtin shape, builtins[place]? = some builtin ∧
      (graph.serviceAt? builtin.service).bind (·.memory) = some shape ∧
      memory.frame = builtin.frame graph shape
  refs : ∀ (place : Nat) (memory : Memory) port client held, memories[place]? = some memory →
    ((memory.port port).clients[client]? = some held ↔
      (held.site, Endpoint.memory (first + place) port client) ∈ entries ∧ held.pending = none)
  origin : ∀ entry ∈ entries, ∃ (place : Nat) (memory : Memory) (builtin : BuiltinSite),
    memories[place]? = some memory ∧ builtins[place]? = some builtin ∧
    ∃ client ∈ builtin.clients, ∃ port ref, entry.1 = client.site ∧
      MemoryPort.ofOperation? client.operation = some port ∧
      entry.2 = .memory (first + place) port ref

theorem newMemory_ok {graph : Graph} {policy : ArbitrationPolicy} {builtin : BuiltinSite}
    {memory : Memory} (made : newMemory graph policy builtin = .ok memory) :
    (∀ port, memory.port port = newPort policy) ∧
      ∃ shape, (graph.serviceAt? builtin.service).bind (·.memory) = some shape ∧
        memory.words = Array.replicate shape.depth.toNat (.zero shape.word) ∧
        memory.frame = builtin.frame graph shape := by
  unfold newMemory at made
  split at made
  · cases made
  · split at made
    · cases made
    · rename_i shape known
      cases made
      refine ⟨fun port => ?_, shape, known, rfl, ?_⟩
      · cases port <;> rfl
      · simp [Memory.frame, BuiltinSite.frame, Memory.depth]

theorem MemoriesOf.cons {graph : Graph} {first : Nat} {builtin : BuiltinSite}
    {builtins : List BuiltinSite} {empty memory : Memory} {memories : List Memory}
    {entries others : List Entry} {policy : ArbitrationPolicy}
    (made : newMemory graph policy builtin = .ok empty)
    (joined : Joined first empty memory builtin.clients entries)
    (memoriesOf : MemoriesOf graph (first + 1) builtins memories others) :
    MemoriesOf graph first (builtin :: builtins) (memory :: memories) (entries ++ others) := by
  obtain ⟨fresh, shape, known, zero, frame⟩ := newMemory_ok made
  have vacant (port : MemoryPort) : (empty.port port).clients = [] := by
    rw [fresh]
    rfl
  refine ⟨?_, ?_, ?_, ?_, ?_⟩
  · rw [List.map_append, joined.sites, memoriesOf.sites, List.flatMap_cons]
  · intro place held found
    cases place with
    | zero =>
        cases found
        exact ⟨builtin, shape, rfl, known, joined.words.trans zero⟩
    | succ place => exact memoriesOf.shape place held found
  · intro place held found
    cases place with
    | zero =>
        cases found
        exact ⟨builtin, shape, rfl, known, joined.frame.trans frame⟩
    | succ place => exact memoriesOf.frame place held found
  · intro place held port client taken found
    rw [List.mem_append]
    cases place with
    | zero =>
        cases found
        have apart : ∀ site, (site, Endpoint.memory first port client) ∉ others := by
          intro site member
          obtain ⟨_, _, _, _, _, _, _, _, _, _, _, equal⟩ := memoriesOf.origin _ member
          injection equal with number
          omega
        rw [joined.refs, vacant port, Nat.add_zero]
        simp [apart]
    | succ place =>
        have apart : ∀ site,
            (site, Endpoint.memory (first + (place + 1)) port client) ∉ entries := by
          intro site member
          obtain ⟨_, _, _, _, _, _, equal⟩ := joined.origin _ member
          injection equal with number
          omega
        rw [memoriesOf.refs place held port client taken found,
          show first + 1 + place = first + (place + 1) by omega]
        simp [apart]
  · intro entry member
    cases List.mem_append.1 member with
    | inl own =>
        obtain ⟨client, inside, port, ref, site, named, equal⟩ := joined.origin entry own
        exact ⟨0, memory, builtin, rfl, rfl, client, inside, port, ref, site, named, equal⟩
    | inr other =>
        obtain ⟨place, held, builtin', found, found', client, inside, port, ref, site, named,
          equal⟩ := memoriesOf.origin entry other
        refine ⟨place + 1, held, builtin', found, found', client, inside, port, ref, site, named,
          ?_⟩
        rw [equal, show first + 1 + place = first + (place + 1) by omega]

theorem memoriesOf_of_newMemories {graph : Graph} {policy : ArbitrationPolicy} {first : Nat}
    {builtins : List BuiltinSite} {memories : List Memory} {entries : List Entry}
    (made : newMemories graph policy first builtins = .ok (memories, entries)) :
    MemoriesOf graph first builtins memories entries := by
  induction builtins generalizing first memories entries with
  | nil =>
      cases made
      exact ⟨rfl, nofun, nofun, nofun, nofun⟩
  | cons builtin rest induction =>
      obtain ⟨empty, fresh, made⟩ := exists_of_bind_ok made
      obtain ⟨⟨memory, own⟩, joined, made⟩ := exists_of_bind_ok made
      obtain ⟨⟨others, entries'⟩, later, made⟩ := exists_of_bind_ok made
      cases made
      exact (induction later).cons fresh (joined_of_addClients joined)

theorem arbiter_of_newMemories {graph : Graph} {policy : ArbitrationPolicy} {first : Nat}
    {builtins : List BuiltinSite} {memories : List Memory} {entries : List Entry}
    (made : newMemories graph policy first builtins = .ok (memories, entries)) :
    ∀ memory ∈ memories, ∀ port, (memory.port port).arbiter = { policy := policy } := by
  induction builtins generalizing first memories entries with
  | nil =>
      cases made
      exact nofun
  | cons builtin rest induction =>
      obtain ⟨empty, fresh, made⟩ := exists_of_bind_ok made
      obtain ⟨⟨memory, own⟩, joined, made⟩ := exists_of_bind_ok made
      obtain ⟨⟨others, entries'⟩, later, made⟩ := exists_of_bind_ok made
      cases made
      refine List.forall_mem_cons.2 ⟨fun port => ?_, induction later⟩
      rw [(joined_of_addClients joined).arbiters, (newMemory_ok fresh).1]
      rfl

end Simulator

end Elastic
