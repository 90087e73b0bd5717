import Elastic.Proofs.Sim.Fairness
import Elastic.Proofs.Sim.HostRoles
import Elastic.Proofs.Sim.Lookups

namespace Elastic

/-! Effects in another order. If no two of them are about one client, one port or one role of the
host, then all that depends on the order are the responses to reads of places that are written as
well. -/

theorem eq_of_perm_of_short {first second : List α} (order : first.Perm second)
    (short : second.length ≤ 1) : first = second := by
  match second, short with
  | [], _ => exact order.eq_nil
  | [one], _ => exact order.eq_singleton

theorem eq_singleton_of_short {one : α} {all : List α} (member : one ∈ all)
    (short : all.length ≤ 1) : all = [one] := by
  match all, short with
  | [other], _ => rw [List.mem_singleton.1 member]

theorem pair_sublist_iff {one other : α} {before middle after : List α} (apart : one ∉ middle)
    (there : other ∈ middle) (late : other ∉ after) :
    [one, other].Sublist (before ++ (middle ++ after)) ↔ one ∈ before := by
  constructor
  · intro first
    obtain ⟨front, back, parts, inFront, inBack⟩ := List.sublist_append_iff.1 first
    match front, parts with
    | head :: rest, parts =>
        rw [(List.cons.inj parts).1]
        exact inFront.subset List.mem_cons_self
    | [], parts =>
        subst parts
        obtain ⟨front, back, parts, inFront, inBack⟩ := List.sublist_append_iff.1 inBack
        match front, parts with
        | head :: rest, parts =>
            rw [← (List.cons.inj parts).1] at inFront
            exact absurd (inFront.subset List.mem_cons_self) apart
        | [], parts =>
            subst parts
            exact absurd (inBack.subset (List.mem_cons_of_mem _ List.mem_cons_self)) late
  · intro inside
    exact (List.singleton_sublist.2 inside).append
      (List.singleton_sublist.2 (List.mem_append_left _ there))

theorem SimState.getElem?_store {words : Array SimValue} {writes : List (Nat × SimValue)}
    {address : Nat} (elsewhere : ∀ write ∈ writes, ¬ (write.1 = address ∧ address < words.size)) :
    (store words writes)[address]? = words[address]? := by
  induction writes generalizing words with
  | nil => rfl
  | cons write rest induction =>
      have later : ∀ other ∈ rest,
          ¬ (other.1 = address ∧ address < (words.setIfInBounds write.1 write.2).size) := by
        rw [Array.size_setIfInBounds]
        exact fun other member => elsewhere other (List.mem_cons_of_mem _ member)
      refine (induction later).trans ?_
      rw [Array.getElem?_setIfInBounds]
      split
      · rename_i here
        have beyond : ¬ address < words.size := fun bound =>
          elsewhere write List.mem_cons_self ⟨here, bound⟩
        rw [if_neg (here ▸ beyond), Array.getElem?_eq_none (Nat.le_of_not_lt beyond)]
      · rfl

namespace Effect

/-- No two effects are about one thing. -/
structure Apart (effects : List Effect) : Prop where
  refs : ∀ ref, (effects.filter (·.ref? = some ref)).length ≤ 1
  ports : ∀ memory port, (effects.filterMap (serves? memory port)).length ≤ 1
  roles : ∀ ref, (about ref effects).length ≤ 1

variable {state : SimState} {effect : Effect} {effects order before after : List Effect}
  {ref : ClientRef} {memory client address : Nat} {word : SimValue}

theorem Apart.perm (apart : Apart effects) (same : order.Perm effects) : Apart order where
  refs ref := ((same.filter _).length_eq).trans_le (apart.refs ref)
  ports memory port := ((same.filterMap _).length_eq).trans_le (apart.ports memory port)
  roles ref := ((same.filter _).length_eq).trans_le (apart.roles ref)

theorem mem_written : (address, word) ∈ effects.flatMap (written memory) ↔
    ∃ client, .accept memory client (.write address word) ∈ effects := by
  rw [List.mem_flatMap]
  constructor
  · rintro ⟨effect, member, writes⟩
    unfold written at writes
    split at writes
    · rename_i other client place word'
      split at writes
      · rename_i here
        obtain ⟨rfl, rfl⟩ := Prod.mk.inj (List.mem_singleton.1 writes)
        exact ⟨client, here ▸ member⟩
      · cases writes
    · cases writes
  · rintro ⟨client, member⟩
    exact ⟨_, member, by simp [written]⟩

theorem length_written_le (memory : Nat) (effects : List Effect) :
    (effects.flatMap (written memory)).length ≤
      (effects.filterMap (serves? memory .write)).length := by
  have each (effect : Effect) : (effect.written memory).length ≤
      (effect.serves? memory .write).toList.length := by
    cases effect with
    | retire other port client | pop host role | push host role value => exact Nat.zero_le _
    | accept other client request =>
        cases request with
        | read address => exact Nat.zero_le _
        | write address word =>
            by_cases here : other = memory <;> simp [written, serves?, Request.port, here]
  induction effects with
  | nil => exact Nat.le_refl _
  | cons effect rest induction =>
      have own := each effect
      rw [List.flatMap_cons, List.length_append, List.filterMap_cons]
      cases serves : effect.serves? memory .write with
      | none =>
          rw [serves] at own
          exact (Nat.add_le_add own induction).trans_eq (Nat.zero_add _)
      | some client =>
          rw [serves] at own
          exact (Nat.add_le_add own induction).trans_eq (Nat.add_comm _ _)

theorem Apart.written_le (apart : Apart effects) (memory : Nat) :
    (effects.flatMap (written memory)).length ≤ 1 :=
  (length_written_le memory effects).trans (apart.ports memory .write)

theorem Apart.around (apart : Apart effects) (member : effect ∈ effects)
    (about : effect.ref? = some ref) : ∃ before after, effects = before ++ effect :: after ∧
      (∀ other ∈ before, other.ref? ≠ some ref) ∧ ∀ other ∈ after, other.ref? ≠ some ref := by
  obtain ⟨before, after, rfl⟩ := List.append_of_mem member
  have short := apart.refs ref
  rw [List.filter_append, List.filter_cons_of_pos (by simpa using about), List.length_append,
    List.length_cons] at short
  have none {others : List Effect} (empty : (others.filter (·.ref? = some ref)).length = 0) :
      ∀ other ∈ others, other.ref? ≠ some ref := fun other inside own =>
    List.filter_eq_nil_iff.1 (List.length_eq_zero_iff.1 empty) other inside (decide_eq_true own)
  exact ⟨before, after, rfl, none (by omega), none (by omega)⟩

theorem leaves_applyAll (unread : ∀ memory client address,
      effect ≠ .accept memory client (.read address)) :
    effect.leaves (applyAll state before) = effect.leaves state := by
  cases effect with
  | retire memory port client | pop host role | push host role value => rfl
  | accept memory client request =>
      cases request with
      | read address => exact absurd rfl (unread memory client address)
      | write address word =>
          simp only [leaves, words?_applyAll, Option.map_map]
          rfl

theorem client?_of_read (early : ∀ other ∈ before, other.ref? ≠ some ⟨memory, .read, client⟩)
    (late : ∀ other ∈ after, other.ref? ≠ some ⟨memory, .read, client⟩) :
    (applyAll state (before ++ .accept memory client (.read address) :: after)).client?
        ⟨memory, .read, client⟩ =
      (state.client? ⟨memory, .read, client⟩).map (.hold ((state.words? memory).map fun words =>
        (SimState.store words (before.flatMap (written memory))).getD address (.bits 0))) := by
  rw [client?_applyAll_single early rfl late, leaves, words?_applyAll, Option.map_map]
  rfl

end Effect

/-- A read and a write of one place of a memory, with the word in that place before. -/
structure Crossing where
  memory : Nat
  reader : Nat
  writer : Nat
  address : Nat
  old : SimValue
  word : SimValue

namespace Crossing

open Effect

def read (crossing : Crossing) : Effect :=
  .accept crossing.memory crossing.reader (.read crossing.address)

def write (crossing : Crossing) : Effect :=
  .accept crossing.memory crossing.writer (.write crossing.address crossing.word)

def ref (crossing : Crossing) : ClientRef := ⟨crossing.memory, .read, crossing.reader⟩

structure In (crossing : Crossing) (state : SimState) (effects : List Effect) : Prop where
  reads : crossing.read ∈ effects
  writes : crossing.write ∈ effects
  held : (state.words? crossing.memory).bind (·[crossing.address]?) = some crossing.old

def WritesFirst (crossing : Crossing) (effects : List Effect) : Prop :=
  [crossing.write, crossing.read].Sublist effects

instance (crossing : Crossing) (effects : List Effect) : Decidable (crossing.WritesFirst effects) :=
  inferInstanceAs (Decidable (List.Sublist _ _))

def answer (crossing : Crossing) (effects : List Effect) : SimValue :=
  if crossing.WritesFirst effects then crossing.word else crossing.old

variable {crossing : Crossing} {state : SimState} {effects order before after : List Effect}

theorem write_ne_read (crossing : Crossing) : crossing.write ≠ crossing.read := by
  simp [write, read]

theorem In.perm (inside : crossing.In state effects) (same : order.Perm effects) :
    crossing.In state order :=
  ⟨same.mem_iff.2 inside.reads, same.mem_iff.2 inside.writes, inside.held⟩

theorem writesFirst_iff (late : crossing.read ∉ after) :
    crossing.WritesFirst (before ++ crossing.read :: after) ↔ crossing.write ∈ before :=
  pair_sublist_iff (mt List.mem_singleton.1 crossing.write_ne_read) List.mem_cons_self late

theorem In.written_before (inside : crossing.In state (before ++ crossing.read :: after))
    (apart : Apart (before ++ crossing.read :: after)) :
    before.flatMap (written crossing.memory) =
      if crossing.write ∈ before then [(crossing.address, crossing.word)] else [] := by
  have short := Effect.Apart.written_le apart crossing.memory
  have silent : Effect.written crossing.memory crossing.read = [] := rfl
  rw [List.flatMap_append, List.flatMap_cons, silent, List.nil_append, List.length_append] at short
  have wrote {others : List Effect} (there : crossing.write ∈ others) :
      (crossing.address, crossing.word) ∈ others.flatMap (written crossing.memory) :=
    mem_written.2 ⟨_, there⟩
  split
  · rename_i first
    exact eq_singleton_of_short (wrote first) (by omega)
  · rename_i last
    obtain first | later := List.mem_append.1 inside.writes
    · exact absurd first last
    · have later := (List.mem_cons.1 later).resolve_left crossing.write_ne_read
      have positive := List.length_pos_of_mem (wrote later)
      exact List.length_eq_zero_iff.1 (by omega)

/-- What the read leaves pending: the word that is written if the write comes first, or else the
word before. -/
theorem In.client?_applyAll (inside : crossing.In state effects) (apart : Apart effects) :
    (applyAll state effects).client? crossing.ref =
      (state.client? crossing.ref).map (.hold (some (crossing.answer effects))) := by
  obtain ⟨before, after, rfl, early, late⟩ :=
    apart.around inside.reads (rfl : crossing.read.ref? = some crossing.ref)
  have once : crossing.read ∉ after := fun member => late _ member rfl
  obtain ⟨words, known, held⟩ := Option.bind_eq_some_iff.1 inside.held
  have answered : (SimState.store words (before.flatMap (written crossing.memory))).getD
      crossing.address (.bits 0) = crossing.answer (before ++ crossing.read :: after) := by
    rw [inside.written_before apart, answer]
    simp only [writesFirst_iff once]
    obtain ⟨bound, same⟩ := Array.getElem?_eq_some_iff.1 held
    split <;> simp [SimState.store, bound, same]
  exact (client?_of_read early late).trans (by rw [known, Option.map_some, answered]; rfl)

theorem client?_of_uncrossed {memory reader address : Nat} (apart : Apart effects)
    (member : .accept memory reader (.read address) ∈ effects)
    (uncrossed : ∀ crossing : Crossing, crossing.In state effects →
      crossing.ref ≠ ⟨memory, .read, reader⟩) :
    (applyAll state effects).client? ⟨memory, .read, reader⟩ =
      (state.client? ⟨memory, .read, reader⟩).map (.hold ((state.words? memory).map fun words =>
        words.getD address (.bits 0))) := by
  obtain ⟨before, after, rfl, early, late⟩ :=
    apart.around member (rfl : _ = some (ClientRef.mk memory .read reader))
  have elsewhere {place : Nat} {word : SimValue} {words : Array SimValue}
      (known : state.words? memory = some words)
      (wrote : (place, word) ∈ before.flatMap (written memory)) :
      ¬ (place = address ∧ address < words.size) := by
    rintro ⟨rfl, bound⟩
    obtain ⟨writer, inside⟩ := mem_written.1 wrote
    refine uncrossed ⟨memory, reader, writer, place, words[place], word⟩ ⟨member, ?_, ?_⟩ rfl
    · exact List.mem_append_left _ inside
    · rw [known, Option.bind_some, Array.getElem?_eq_getElem bound]
  rw [client?_of_read early late]
  cases known : state.words? memory with
  | none => rfl
  | some words =>
      rw [Option.map_some, Option.map_some, Array.getD_eq_getD_getElem?,
        SimState.getElem?_store fun write wrote => elsewhere known wrote,
        ← Array.getD_eq_getD_getElem?]

end Crossing

def Memory.bare (memory : Memory) : Memory :=
  { memory with words := #[], readPort := default, writePort := default }

theorem PortState.eq_of_parts {port other : PortState} (arbiters : port.arbiter = other.arbiter)
    (clients : ∀ place : Nat, port.clients[place]? = other.clients[place]?) : port = other := by
  obtain ⟨held, arbiter⟩ := port
  obtain ⟨held', arbiter'⟩ := other
  obtain rfl : arbiter = arbiter' := arbiters
  obtain rfl : held = held' := List.ext_getElem? clients
  rfl

theorem Memory.eq_of_parts {memory other : Memory} (bare : memory.bare = other.bare)
    (words : memory.words = other.words)
    (ports : ∀ port, memory.port port = other.port port) : memory = other := by
  obtain ⟨path, word, held, readPort, writePort, inst, reset⟩ := memory
  obtain ⟨path', word', held', readPort', writePort', inst', reset'⟩ := other
  obtain ⟨rfl, rfl, -, -, -, rfl, rfl⟩ := Memory.mk.inj bare
  obtain rfl : held = held' := words
  obtain rfl : readPort = readPort' := ports .read
  obtain rfl : writePort = writePort' := ports .write
  rfl

namespace SimState

variable {state other : SimState} {differs : ClientRef → Prop}

/-- Two states are the same but for what is pending for some clients. -/
structure SameBut (differs : ClientRef → Prop) (state other : SimState) : Prop where
  inputs : state.inputs = other.inputs
  hosts : state.hosts = other.hosts
  bare : state.memories.map Memory.bare = other.memories.map Memory.bare
  words : state.words? = other.words?
  arbiters : state.arbiter? = other.arbiter?
  clients : ∀ ref, ¬ differs ref → state.client? ref = other.client? ref

theorem SameBut.eq_of_clients (same : SameBut differs state other)
    (clients : ∀ ref, differs ref → state.client? ref = other.client? ref) :
    state = other := by
  have everywhere (ref : ClientRef) : state.client? ref = other.client? ref := by
    by_cases differ : differs ref
    · exact clients ref differ
    · exact same.clients ref differ
  have memories : state.memories = other.memories := by
    refine List.ext_getElem? fun index => ?_
    have bare := congrArg (·[index]?) same.bare
    have words := congrFun same.words index
    have arbiters (port : MemoryPort) := congrFun (congrFun same.arbiters index) port
    have refs (port : MemoryPort) (place : Nat) := everywhere ⟨index, port, place⟩
    simp only [List.getElem?_map] at bare
    simp only [words?, arbiter?, client?] at words arbiters refs
    cases here : state.memories[index]? with
    | none =>
        rw [here] at bare
        exact (Option.map_eq_none_iff.1 bare.symm).symm
    | some memory =>
        rw [here] at bare
        obtain ⟨memory', there, alike⟩ := Option.map_eq_some_iff.1 bare.symm
        rw [here, there] at words arbiters refs
        rw [there]
        refine congrArg some (Memory.eq_of_parts alike.symm (Option.some.inj words) fun port => ?_)
        exact PortState.eq_of_parts (Option.some.inj (arbiters port)) (refs port)
  obtain ⟨held, remembered, attached⟩ := state
  obtain ⟨held', remembered', attached'⟩ := other
  cases same.inputs
  cases same.hosts
  cases memories
  rfl

theorem hosts_eq_of_roles (paths : state.hostPaths = other.hostPaths)
    (roles : ∀ host role, state.hostRole? host role = other.hostRole? host role) :
    state.hosts = other.hosts := by
  refine List.ext_getElem? fun index => ?_
  have named := congrArg (·[index]?) paths
  have slots (role : Nat) := roles index role
  simp only [hostPaths, List.getElem?_map] at named
  simp only [hostRole?] at slots
  cases here : state.hosts[index]? with
  | none =>
      rw [here] at named
      exact (Option.map_eq_none_iff.1 named.symm).symm
  | some host =>
      rw [here] at named
      obtain ⟨host', there, same⟩ := Option.map_eq_some_iff.1 named.symm
      rw [here, there] at slots
      rw [there]
      obtain ⟨path, held⟩ := host
      obtain ⟨path', held'⟩ := host'
      obtain rfl : path' = path := same
      obtain rfl : held = held' := List.ext_getElem? slots
      rfl

end SimState

namespace Effect

variable {state : SimState} {effects order : List Effect} {ref : ClientRef}

theorem client?_of_unread {effect : Effect} (apart : Apart effects) (member : effect ∈ effects)
    (about : effect.ref? = some ref)
    (unread : ∀ memory client address, effect ≠ .accept memory client (.read address)) :
    (applyAll state effects).client? ref =
      (state.client? ref).map (.hold (effect.leaves state)) := by
  obtain ⟨before, after, rfl, early, late⟩ := apart.around member about
  rw [client?_applyAll_single early about late, leaves_applyAll unread]

/-- A client whose response depends on the order: its read is crossed by a write of another word. -/
def DependsOnOrder (state : SimState) (effects : List Effect) (ref : ClientRef) : Prop :=
  ∃ crossing : Crossing, crossing.In state effects ∧ crossing.old ≠ crossing.word ∧
    crossing.ref = ref

theorem client?_applyAll_perm (apart : Apart effects) (same : order.Perm effects)
    (whole : ¬ DependsOnOrder state effects ref) :
    (applyAll state order).client? ref = (applyAll state effects).client? ref := by
  have apart' := apart.perm same
  by_cases idle : ∀ effect ∈ effects, effect.ref? ≠ some ref
  · rw [client?_applyAll idle, client?_applyAll fun effect member =>
      idle effect (same.mem_iff.1 member)]
  obtain ⟨effect, member, about⟩ : ∃ effect ∈ effects, effect.ref? = some ref := by
    simpa using idle
  have member' := same.mem_iff.2 member
  by_cases unread : ∀ memory client address, effect ≠ .accept memory client (.read address)
  · rw [client?_of_unread apart member about unread,
      client?_of_unread apart' member' about unread]
  obtain ⟨memory, reader, address, rfl⟩ :
      ∃ memory client address, effect = .accept memory client (.read address) := by
    simpa using unread
  cases about
  by_cases crossed : ∃ crossing : Crossing, crossing.In state effects ∧
      crossing.ref = ⟨memory, .read, reader⟩
  · obtain ⟨crossing, inside, here⟩ := crossed
    have word : crossing.old = crossing.word := by
      by_contra differ
      exact whole ⟨crossing, inside, differ, here⟩
    have answer (effects : List Effect) : crossing.answer effects = crossing.word := by
      rw [Crossing.answer, word, ite_self]
    have one := inside.client?_applyAll apart
    have other := (inside.perm same).client?_applyAll apart'
    rw [answer, here] at one other
    exact other.trans one.symm
  · rw [Request.port, Crossing.client?_of_uncrossed apart member fun crossing inside here =>
        crossed ⟨crossing, inside, here⟩,
      Crossing.client?_of_uncrossed apart' member' fun crossing inside here =>
        crossed ⟨crossing, inside.perm same.symm, here⟩]

end Effect

namespace Simulator

variable {state : SimState} {effects order : List Effect} {high : List Nat}

theorem bare_modifyMemory {memory : Nat} {change : Memory → Memory}
    (same : ∀ held : Memory, (change held).bare = held.bare) :
    (state.modifyMemory memory change).memories.map Memory.bare =
      state.memories.map Memory.bare :=
  map_modify_of_same fun held _ => same held

theorem bare_nextState (state : SimState) (effects : List Effect) (high : List Nat) :
    (nextState state effects high).memories.map Memory.bare =
      state.memories.map Memory.bare := by
  have applied : (Effect.applyAll state effects).memories.map Memory.bare =
      state.memories.map Memory.bare := by
    induction effects generalizing state with
    | nil => rfl
    | cons effect rest induction =>
        rw [Effect.applyAll_cons, induction]
        cases effect with
        | retire memory port client => exact bare_modifyMemory fun _ => by cases port <;> rfl
        | accept memory client request => exact bare_modifyMemory fun _ => by cases request <;> rfl
        | pop host role | push host role value => rfl
  rw [← applied, nextState]
  generalize Effect.applyAll state effects = last
  induction high generalizing last with
  | nil => rfl
  | cons memory rest induction => exact (induction _).trans (bare_modifyMemory fun _ => rfl)

/-- In whatever order its effects apply, a cycle ends with the same state but for the responses to
reads of places where another word is written. -/
theorem sameBut_of_perm (apart : Effect.Apart effects) (same : order.Perm effects) :
    SimState.SameBut (Effect.DependsOnOrder state effects) (nextState state order high)
      (nextState state effects high) where
  inputs := by rw [inputs_nextState, inputs_nextState]
  bare := by rw [bare_nextState, bare_nextState]
  hosts := by
    refine SimState.hosts_eq_of_roles ?_ fun host role => ?_
    · rw [(alike_nextState state order high).paths, (alike_nextState state effects high).paths]
    · have about : Effect.about ⟨host, role⟩ order = Effect.about ⟨host, role⟩ effects :=
        eq_of_perm_of_short (same.filter _) (apart.roles _)
      have ends (effects : List Effect) : (nextState state effects high).hostRole? host role =
          (state.hostRole? host role).map
            ((Effect.about ⟨host, role⟩ effects).foldl HostRole.handle) :=
        hostRole?_nextState ⟨host, role⟩
      rw [ends, ends, about]
  words := by
    funext memory
    have written := eq_of_perm_of_short (same.flatMap_right _) (apart.written_le memory)
    rw [words?_nextState, words?_nextState, Effect.words?_applyAll, Effect.words?_applyAll,
      written]
  arbiters := by
    funext memory port
    have served := eq_of_perm_of_short (same.filterMap _) (apart.ports memory port)
    rw [arbiter?_nextState, arbiter?_nextState, served]
  clients ref whole := by
    rw [client?_nextState, client?_nextState, Effect.client?_applyAll_perm apart same whole]

end Simulator

end Elastic
