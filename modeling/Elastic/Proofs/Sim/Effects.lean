import Elastic.Proofs.Sim.Clients

namespace Elastic

/-! What the effects of a cycle change: each is about one client at most, and only an accepted write
changes a word. -/

def PortClient.hold (response : Option SimValue) (client : PortClient) : PortClient :=
  { client with pending := response }

def Request.answer (words : Array SimValue) : Request → SimValue
  | .read address => words.getD address (.bits 0)
  | .write _ _ => .bits 0

namespace Memory

variable {memory : Memory} {port other : MemoryPort} {client place : Nat} {request : Request}

theorem client?_accept : ((memory.accept client request).port port).clients[place]? =
    if request.port = port ∧ client = place then
      ((memory.port port).clients[place]?).map (.hold (some (request.answer memory.words)))
    else (memory.port port).clients[place]? := by
  have own (response : Option SimValue) : ((memory.port port).clients.modify client fun held =>
      { held with pending := response })[place]? =
        if client = place then ((memory.port port).clients[place]?).map (.hold response)
        else (memory.port port).clients[place]? := by
    rw [List.getElem?_modify]
    cases (memory.port port).clients[place]? <;> split <;> rfl
  cases request <;> cases port <;> simp only [Request.port, true_and, reduceCtorEq, false_and,
    if_false] <;> first | exact own _ | rfl

theorem client?_retire : ((memory.retire port client).port other).clients[place]? =
    if port = other ∧ client = place then
      ((memory.port other).clients[place]?).map (.hold none)
    else (memory.port other).clients[place]? := by
  have own : ((memory.port other).clients.modify client fun held =>
      { held with pending := none })[place]? =
        if client = place then ((memory.port other).clients[place]?).map (.hold none)
        else (memory.port other).clients[place]? := by
    rw [List.getElem?_modify]
    cases (memory.port other).clients[place]? <;> split <;> rfl
  cases port <;> cases other <;> first | exact own.trans (by simp) | rfl

theorem client?_clear : (memory.clear.port port).clients[place]? =
    ((memory.port port).clients[place]?).map (.hold none) := by
  cases port <;> exact List.getElem?_map

end Memory

namespace SimState

variable {state : SimState}

def store (words : Array SimValue) (writes : List (Nat × SimValue)) : Array SimValue :=
  writes.foldl (fun words write => words.setIfInBounds write.1 write.2) words

@[simp] theorem store_append (words : Array SimValue) (first second : List (Nat × SimValue)) :
    store words (first ++ second) = store (store words first) second :=
  List.foldl_append

@[simp] theorem size_store (words : Array SimValue) (writes : List (Nat × SimValue)) :
    (store words writes).size = words.size := by
  induction writes generalizing words with
  | nil => rfl
  | cons write rest induction =>
      rw [show store words (write :: rest) = store (words.setIfInBounds write.1 write.2) rest
        from rfl, induction, Array.size_setIfInBounds]

def words? (state : SimState) (memory : Nat) : Option (Array SimValue) :=
  (state.memories[memory]?).map (·.words)

theorem words?_of_memory {memory : Nat} {held : Memory}
    (present : state.memories[memory]? = some held) : state.words? memory = some held.words := by
  rw [words?, present, Option.map_some]

theorem memory?_modifyMemory (memory other : Nat) (change : Memory → Memory) :
    (state.modifyMemory memory change).memories[other]? =
      if memory = other then (state.memories[other]?).map change else state.memories[other]? := by
  rw [modifyMemory, List.getElem?_modify]
  cases state.memories[other]? <;> split <;> rfl

end SimState

namespace Effect

variable {state : SimState} {effect : Effect} {effects : List Effect} {ref : ClientRef}

def ref? : Effect → Option ClientRef
  | .retire memory port client => some ⟨memory, port, client⟩
  | .accept memory client request => some ⟨memory, request.port, client⟩
  | .pop _ _ | .push _ _ _ => none

def leaves (state : SimState) : Effect → Option SimValue
  | .accept memory _ request => (state.words? memory).map fun words => request.answer words
  | .retire _ _ _ | .pop _ _ | .push _ _ _ => none

def written (memory : Nat) : Effect → List (Nat × SimValue)
  | .accept other _ (.write address word) => if other = memory then [(address, word)] else []
  | _ => []

theorem client?_apply : (effect.apply state).client? ref =
    if effect.ref? = some ref then (state.client? ref).map (.hold (effect.leaves state))
    else state.client? ref := by
  obtain ⟨memory, port, place⟩ := ref
  cases effect with
  | pop host role => rfl
  | push host role value => rfl
  | retire other port' client =>
      simp only [apply, SimState.client?, SimState.memory?_modifyMemory, ref?, leaves,
        Option.some.injEq, ClientRef.mk.injEq]
      by_cases same : other = memory
      · cases state.memories[memory]? with
        | none => simp
        | some held => simp [same, Memory.client?_retire]
      · simp [same]
  | accept other client request =>
      simp only [apply, SimState.client?, SimState.memory?_modifyMemory, ref?, leaves,
        SimState.words?, Option.some.injEq, ClientRef.mk.injEq]
      by_cases same : other = memory
      · subst same
        cases state.memories[other]? with
        | none => simp
        | some held => simp [Memory.client?_accept]
      · simp [same]

theorem words?_apply (memory : Nat) : (effect.apply state).words? memory =
    (state.words? memory).map (SimState.store · (effect.written memory)) := by
  cases effect with
  | pop host role | push host role value =>
      exact Option.map_id'.symm
  | retire other port client =>
      simp only [apply, SimState.words?, SimState.memory?_modifyMemory, written]
      cases state.memories[memory]? with
      | none => split <;> rfl
      | some held => split <;> cases port <;> rfl
  | accept other client request =>
      simp only [apply, SimState.words?, SimState.memory?_modifyMemory]
      cases state.memories[memory]? with
      | none => split <;> rfl
      | some held =>
          by_cases same : other = memory
          · cases request <;> simp [same, Memory.accept, written, SimState.store]
          · cases request <;> simp [same, written, SimState.store]

theorem applyAll_cons (state : SimState) (effect : Effect) (effects : List Effect) :
    applyAll state (effect :: effects) = applyAll (effect.apply state) effects := rfl

theorem applyAll_append (state : SimState) (first second : List Effect) :
    applyAll state (first ++ second) = applyAll (applyAll state first) second :=
  List.foldl_append

theorem clientSite?_apply : (effect.apply state).clientSite? = state.clientSite? := by
  funext ref
  unfold SimState.clientSite?
  rw [client?_apply]
  split
  · cases state.client? ref <;> rfl
  · rfl

theorem clientSite?_applyAll : (applyAll state effects).clientSite? = state.clientSite? := by
  induction effects generalizing state with
  | nil => rfl
  | cons effect rest induction => rw [applyAll_cons, induction, clientSite?_apply]

theorem client?_applyAll (others : ∀ effect ∈ effects, effect.ref? ≠ some ref) :
    (applyAll state effects).client? ref = state.client? ref := by
  induction effects generalizing state with
  | nil => rfl
  | cons effect rest induction =>
      rw [applyAll_cons, induction fun other member => others other (List.mem_cons_of_mem _ member),
        client?_apply, if_neg (others effect (List.mem_cons_self ..))]

theorem client?_applyAll_single {before after : List Effect}
    (earlier : ∀ effect ∈ before, effect.ref? ≠ some ref) (own : effect.ref? = some ref)
    (later : ∀ effect ∈ after, effect.ref? ≠ some ref) :
    (applyAll state (before ++ effect :: after)).client? ref =
      (state.client? ref).map (.hold (effect.leaves (applyAll state before))) := by
  rw [applyAll_append, applyAll_cons, client?_applyAll later, client?_apply, if_pos own,
    client?_applyAll earlier]

theorem words?_applyAll (memory : Nat) : (applyAll state effects).words? memory =
    (state.words? memory).map (SimState.store · (effects.flatMap (written memory))) := by
  induction effects generalizing state with
  | nil => exact Option.map_id'.symm
  | cons effect rest induction =>
      rw [applyAll_cons, induction, words?_apply, Option.map_map]
      simp only [List.flatMap_cons, SimState.store_append]
      rfl

end Effect

namespace Simulator

variable {state : SimState} {effects : List Effect} {high : List Nat}

theorem client?_clear (memory : Nat) (ref : ClientRef) :
    (state.modifyMemory memory Memory.clear).client? ref =
      if memory = ref.memory then (state.client? ref).map (.hold none)
      else state.client? ref := by
  simp only [SimState.client?, SimState.memory?_modifyMemory]
  split
  · cases state.memories[ref.memory]? with
    | none => rfl
    | some held => exact Memory.client?_clear
  · rfl

/-- A cycle ends with its effects, and with no response pending at a memory in reset. -/
theorem client?_nextState (ref : ClientRef) : (nextState state effects high).client? ref =
    if ref.memory ∈ high then ((Effect.applyAll state effects).client? ref).map (.hold none)
    else (Effect.applyAll state effects).client? ref := by
  unfold nextState
  generalize Effect.applyAll state effects = state
  induction high generalizing state with
  | nil => rfl
  | cons memory rest induction =>
      rw [List.foldl_cons, induction, client?_clear]
      by_cases same : memory = ref.memory
      · subst same
        cases state.client? ref <;> simp [PortClient.hold]
      · simp [same, Ne.symm same]

theorem words?_nextState (memory : Nat) : (nextState state effects high).words? memory =
    (Effect.applyAll state effects).words? memory := by
  unfold nextState
  generalize Effect.applyAll state effects = state
  induction high generalizing state with
  | nil => rfl
  | cons other rest induction =>
      rw [List.foldl_cons, induction]
      simp only [SimState.words?, SimState.memory?_modifyMemory]
      cases state.memories[memory]? <;> split <;> rfl

theorem inputs_nextState (state : SimState) (effects : List Effect) (high : List Nat) :
    (nextState state effects high).inputs = state.inputs := by
  have applied : (Effect.applyAll state effects).inputs = state.inputs := by
    induction effects generalizing state with
    | nil => rfl
    | cons effect rest induction =>
        rw [Effect.applyAll_cons, induction]
        cases effect <;> rfl
  rw [← applied]
  unfold nextState
  generalize Effect.applyAll state effects = last
  induction high generalizing last with
  | nil => rfl
  | cons memory rest induction => exact induction _

theorem clientSite?_nextState : (nextState state effects high).clientSite? =
    state.clientSite? := by
  have same : (nextState state effects high).clientSite? =
      (Effect.applyAll state effects).clientSite? := by
    funext ref
    unfold SimState.clientSite?
    rw [client?_nextState]
    cases (Effect.applyAll state effects).client? ref <;> split <;> rfl
  exact same.trans Effect.clientSite?_applyAll

end Simulator

end Elastic
