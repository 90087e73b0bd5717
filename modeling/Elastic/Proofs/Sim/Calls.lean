import Elastic.Sim.Simulator

namespace Elastic

/-! Calls between cycles. Each answers, or refuses for a reason of its caller's. -/

def SimError.IsInternal : SimError → Prop
  | .internal _ => True
  | _ => False

/-- A call answers with a value of which a fact holds, or refuses it for a reason that is not the
simulator's own. -/
inductive Answers (fact : α → Prop) : Except SimError α → Prop
  | ok {value : α} (holds : fact value) : Answers fact (.ok value)
  | refused {error : SimError} (kind : ¬ error.IsInternal) : Answers fact (.error error)

namespace Answers

variable {fact : α → Prop} {result : Except SimError α}

theorem not_internal (answers : Answers fact result) {error : SimError}
    (failed : result = .error error) : ¬ error.IsInternal := by
  cases answers with
  | ok holds => cases failed
  | refused kind =>
      cases failed
      exact kind

theorem of_ok (answers : Answers fact result) {value : α} (made : result = .ok value) :
    fact value := by
  cases answers with
  | ok holds =>
      cases made
      exact holds
  | refused kind => cases made

theorem bind {goal : β → Prop} {next : α → Except SimError β} (answers : Answers fact result)
    (rest : ∀ value, result = .ok value → fact value → Answers goal (next value)) :
    Answers goal (result >>= next) := by
  cases answers with
  | ok holds => exact rest _ rfl holds
  | refused kind => exact .refused kind

end Answers

namespace Memory

theorem place_cases (memory : Memory) (address : UInt64) :
    memory.place address = .ok address.toNat ∧ address.toNat < memory.depth ∨
      memory.depth ≤ address.toNat ∧
        memory.place address = .error (.addressOutOfRange memory.path address memory.depth) := by
  unfold place
  split
  · rename_i bound
    exact .inl ⟨rfl, bound⟩
  · rename_i beyond
    exact .inr ⟨Nat.le_of_not_lt beyond, rfl⟩

theorem answers_poke (memory : Memory) (address : UInt64) (value : SimValue) :
    Answers (fun poked => value.conforms memory.word = true ∧
        poked = { memory with words := memory.words.setIfInBounds address.toNat value })
      (memory.poke address value) := by
  unfold poke
  split
  · rename_i conforms
    rcases memory.place_cases address with ⟨placed, -⟩ | ⟨-, beyond⟩
    · rw [placed]
      exact .ok ⟨conforms, rfl⟩
    · rw [beyond]
      exact .refused id
  · exact .refused id

end Memory

namespace Simulator

theorem answers_setInput (sim : Simulator) (name : String) (value : SimValue) :
    Answers (fun next => ∃ index, value.conforms (sim.inputTy index) = true ∧
        next = { sim with
          state := { sim.state with inputs := sim.state.inputs.set index value } })
      (sim.setInput name value) := by
  unfold setInput
  split
  · exact .refused id
  · rename_i index found
    dsimp only
    split
    · exact .ok ⟨index, ‹_›, rfl⟩
    · exact .refused id

theorem answers_hostRole (sim : Simulator) (path role : String) :
    Answers (fun place => sim.state.hostRole? place.1 place.2.1 = some place.2.2)
      (sim.hostRole path role) := by
  unfold hostRole
  split
  · exact .refused id
  · rename_i host found
    split
    · exact .refused id
    · rename_i held present
      unfold Host.roleIndex
      cases named : held.roles.findIdx? (·.name = role) with
      | none => exact .refused id
      | some index =>
          dsimp only [Bind.bind, Except.bind]
          split
          · exact .refused id
          · rename_i slot inside
            refine .ok ?_
            rw [SimState.hostRole?, present, Option.bind_some, inside]

theorem hostRole?_of_hostRole {sim : Simulator} {path role : String} {host index : Nat}
    {slot : HostRole} (found : sim.hostRole path role = .ok (host, index, slot)) :
    sim.state.hostRole? host index = some slot :=
  (sim.answers_hostRole path role).of_ok found

theorem answers_hostSend (sim : Simulator) (path role : String) (value : SimValue) :
    Answers (fun next => ∃ host index slot, sim.hostRole path role = .ok (host, index, slot) ∧
        slot.sends = true ∧ value.conforms slot.payload = true ∧
        next = sim.setHostRole host index fun held =>
          { held with outbound := held.outbound ++ [value] })
      (sim.hostSend path role value) := by
  refine (sim.answers_hostRole path role).bind fun place found _ => ?_
  obtain ⟨host, index, slot⟩ := place
  dsimp only
  split
  · exact .refused id
  · rename_i sends
    split
    · exact .refused id
    · rename_i conforms
      exact .ok ⟨host, index, slot, found, by simpa using sends, by simpa using conforms, rfl⟩

theorem answers_hostReceive (sim : Simulator) (path role : String) :
    Answers (fun taken => ∃ host index slot, sim.hostRole path role = .ok (host, index, slot) ∧
        slot.sends = false ∧
        taken = (slot.inbound.head?, sim.setHostRole host index fun held =>
          { held with inbound := held.inbound.drop 1 }))
      (sim.hostReceive path role) := by
  refine (sim.answers_hostRole path role).bind fun place found _ => ?_
  obtain ⟨host, index, slot⟩ := place
  dsimp only
  split
  · exact .refused id
  · rename_i receives
    exact .ok ⟨host, index, slot, found, by simpa using receives, rfl⟩

theorem answers_hostPending (sim : Simulator) (path role : String) :
    Answers (fun _ => True) (sim.hostPending path role) :=
  (sim.answers_hostRole path role).bind fun _ _ _ => .ok trivial

theorem answers_memoryIndex (sim : Simulator) (path : String) :
    Answers (fun index => ∃ held, sim.state.memories[index]? = some held)
      (sim.memoryIndex path) := by
  unfold memoryIndex
  split
  · rename_i index found
    obtain ⟨bound, -⟩ := List.findIdx?_eq_some_iff_getElem.1 found
    exact .ok ⟨_, List.getElem?_eq_getElem bound⟩
  · exact .refused id

theorem answers_memory (sim : Simulator) (path : String) :
    Answers (fun _ => True) (sim.memory path) :=
  (sim.answers_memoryIndex path).bind fun _ _ _ => .ok trivial

theorem answers_pokeMemory (sim : Simulator) (path : String) (address : UInt64)
    (value : SimValue) :
    Answers (fun next => ∃ index held poked, sim.memoryIndex path = .ok index ∧
        sim.state.memories[index]? = some held ∧ held.poke address value = .ok poked ∧
        next = { sim with state := sim.state.modifyMemory index fun _ => poked })
      (sim.pokeMemory path address value) := by
  refine (sim.answers_memoryIndex path).bind fun index found present => ?_
  obtain ⟨held, present⟩ := present
  rw [present]
  exact (held.answers_poke address value).bind fun poked pokes _ =>
    .ok ⟨index, held, poked, found, present, pokes, rfl⟩

end Simulator

end Elastic
