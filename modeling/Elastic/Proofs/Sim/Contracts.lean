import Elastic.Proofs.Sim.Cycle

namespace Elastic

/-! Contracts on signals. A query may ask for the signals of a contract and rely on what it
promises of their outcomes. If the equations of these signals keep the promises in this way, then
the promises hold of everything that settles, and the faults are of the sort that the contract
allows. -/

structure Contract where
  live : Signal → Prop
  good : (signal : Signal) → signal.Outcome → Prop
  sort : SimError → Prop

namespace Query

variable {contract : Contract} {fact goal : α → Prop}

def Meets (contract : Contract) (fact : α → Prop) : Query α → Prop
  | .answer value => fact value
  | .fail error => contract.sort error
  | .ask signal next =>
    contract.live signal ∧
      ∀ outcome, contract.good signal outcome → (next outcome).Meets contract fact

theorem meets_pure {value : α} (holds : fact value) :
    (pure value : Query α).Meets contract fact := holds

theorem meets_demand {signal : Signal} (live : contract.live signal) :
    (demand signal).Meets contract (contract.good signal) :=
  ⟨live, fun _ good => good⟩

theorem Meets.bind {query : Query α} {next : α → Query β} {goal : β → Prop}
    (first : query.Meets contract fact)
    (rest : ∀ value, fact value → (next value).Meets contract goal) :
    (query >>= next).Meets contract goal := by
  induction query with
  | answer value => exact rest value first
  | fail error => exact first
  | ask signal inner induction =>
      exact ⟨first.1, fun outcome good => induction outcome (first.2 outcome good)⟩

theorem Meets.mono {query : Query α} (meets : query.Meets contract fact)
    (weaker : ∀ value, fact value → goal value) : query.Meets contract goal := by
  induction query with
  | answer value => exact weaker value meets
  | fail error => exact meets
  | ask signal inner induction =>
      exact ⟨meets.1, fun outcome good => induction outcome (meets.2 outcome good)⟩

theorem meets_forall {index : Type} [Nonempty index] {facts : index → α → Prop} {query : Query α}
    (each : ∀ place, query.Meets contract (facts place)) :
    query.Meets contract fun value => ∀ place, facts place value := by
  induction query with
  | answer value => exact each
  | fail error => exact each (Classical.arbitrary index)
  | ask signal inner induction =>
      refine ⟨(each (Classical.arbitrary index)).1, fun outcome good => ?_⟩
      exact induction outcome fun place => (each place).2 outcome good

end Query

def Contract.Kept (contract : Contract) (net : Netlist) (state : SimState) : Prop :=
  ∀ signal, contract.live signal →
    (Query.equation net state signal).Meets contract (contract.good signal)

namespace Query

variable {contract : Contract} {net : Netlist} {state : SimState}

theorem Yields.meets {query : Query α} {value : α} (kept : contract.Kept net state)
    (yields : Yields net state query value) {fact : α → Prop}
    (meets : query.Meets contract fact) : fact value := by
  induction yields with
  | answer value => exact meets
  | ask settles yields settled induction =>
      exact induction (meets.2 _ (settled (kept _ meets.1)))

theorem Stops.meets {running : List Signal} {query : Query α} {stop : Stop} {error : SimError}
    (kept : contract.Kept net state)
    (stops : Stops net state running query stop) (fault : stop = .fault error)
    {fact : α → Prop} (meets : query.Meets contract fact) : contract.sort error := by
  induction stops with
  | fault error =>
      cases fault
      exact meets
  | again member => cases fault
  | inside fresh stops induction => exact induction fault (kept _ meets.1)
  | after fresh settles stops induction =>
      exact induction fault (meets.2 _ (settles.meets kept (kept _ meets.1)))

end Query

namespace Simulator

def Fails (sim : Simulator) (action : Settling α) (sort : SimError → Prop) : Prop :=
  ∀ memo error, Settling.Reached sim.net sim.state memo → action.run memo = .error error →
    sort error

variable {sim : Simulator} {sort : SimError → Prop}

theorem fails_pure (value : α) : sim.Fails (pure value : Settling α) sort := by
  intro memo error reached failed
  cases failed

theorem fails_lift {outcome : Except SimError α}
    (sorted : ∀ error, outcome = .error error → sort error) :
    sim.Fails (liftM outcome : Settling α) sort := by
  intro memo error reached failed
  cases outcome with
  | error held =>
      cases failed
      exact sorted error rfl
  | ok value => cases failed

theorem Fails.bind {action : Settling α} {next : α → Settling β} {fact : α → Prop}
    (first : sim.Fails action sort) (gives : sim.Gives action fact)
    (rest : ∀ value, fact value → sim.Fails (next value) sort) :
    sim.Fails (action >>= next) sort := by
  intro memo error reached failed
  rw [StateT.run_bind] at failed
  cases run : action.run memo with
  | error held =>
      rw [run] at failed
      cases failed
      exact first memo _ reached run
  | ok result =>
      rw [run] at failed
      obtain ⟨holds, reached⟩ := gives memo result.1 result.2 reached run
      exact rest result.1 holds result.2 error reached failed

/-- Settling a query comes back to a signal on the way, or stops at a fault that the contract
allows. -/
theorem fails_settle {contract : Contract} (kept : contract.Kept sim.net sim.state)
    {query : Query α} {fact : α → Prop} (meets : query.Meets contract fact)
    (loops : ∀ signal : Signal, sort (signal.loopError sim.net sim.state))
    (faults : ∀ error, contract.sort error → sort error) :
    sim.Fails (sim.settle query) sort := by
  intro memo error reached failed
  obtain ⟨stop, stops, rfl⟩ := (Settling.outcome_error_iff reached).1 failed
  cases stop with
  | loop signal => exact loops signal
  | fault error => exact faults error (stops.meets kept rfl meets)

end Simulator

end Elastic
