import Elastic.Sim.Signal

namespace Elastic

/-! Settling signals on demand. The memo holds what is settled and marks what is being settled; to
ask for a marked signal is a combinational loop. -/

structure MemoEntry where
  signal : Signal
  outcome : Option signal.Outcome
deriving DecidableEq

abbrev Memo := List MemoEntry

namespace Memo

def find? : Memo → (signal : Signal) → Option (Option signal.Outcome)
  | [], _ => none
  | entry :: rest, signal =>
    if same : entry.signal = signal then some (same ▸ entry.outcome)
    else find? rest signal

def mark (memo : Memo) (signal : Signal) : Memo := ⟨signal, none⟩ :: memo

def settle (memo : Memo) (signal : Signal) (outcome : signal.Outcome) : Memo :=
  ⟨signal, some outcome⟩ :: memo

theorem find?_mark (memo : Memo) (signal other : Signal) :
    (memo.mark signal).find? other =
      if other = signal then some none else memo.find? other := by
  unfold mark
  by_cases same : signal = other
  · subst same
    simp [find?]
  · have distinct : ¬ other = signal := fun equal => same equal.symm
    simp [find?, same, distinct]

theorem find?_settle_self (memo : Memo) (signal : Signal) (outcome : signal.Outcome) :
    (memo.settle signal outcome).find? signal = some (some outcome) := by
  simp [settle, find?]

theorem find?_settle_other (memo : Memo) {signal other : Signal} (outcome : signal.Outcome)
    (distinct : signal ≠ other) :
    (memo.settle signal outcome).find? other = memo.find? other := by
  simp [settle, find?, distinct]

end Memo

abbrev Settling (α : Type) := StateT Memo (Except SimError) α

namespace Query

def run (settle : (signal : Signal) → Settling signal.Outcome) : Query α → Settling α
  | .answer value => return value
  | .fail error => throw error
  | .ask signal next => do run settle (next (← settle signal))

end Query

namespace Settling

/-- Settles a signal with at most `fuel` signals being settled at once. Each of them is marked, so
that the number of signals of the design is enough. -/
def demand (net : Netlist) (state : SimState) : Nat → (signal : Signal) → Settling signal.Outcome
  | fuel, signal => do
    match (← get).find? signal with
    | some (some outcome) => return outcome
    | some none => throw (signal.loopError net state)
    | none =>
      match fuel with
      | 0 => throw (.internal "more signals are being settled than the design has")
      | fuel + 1 =>
        modify (·.mark signal)
        let outcome ← (Query.equation net state signal).run (demand net state fuel)
        modify (·.settle signal outcome)
        return outcome

/-- Enough fuel for every signal of a design. A signal that does not exist may be marked too. -/
def fuelFor (net : Netlist) (state : SimState) : Nat :=
  net.signalCount state.memories.length + 2

def query (net : Netlist) (state : SimState) (fuel : Nat) (query : Query α) : Settling α :=
  query.run (demand net state fuel)

end Settling

end Elastic
