import Elastic.Proofs.Sim.Routines
import Mathlib.Data.Finset.Card

namespace Elastic

/-! Settling ends for every design, state and memo, also where expressions, channels or bundles of
the design form cycles. A signal that is computed is marked first, so that fewer signals are left to
mark for the calls within it, and calls between marks go down in rank. -/

variable {net : Netlist} {state : SimState}

namespace Memo

def unmarked (net : Netlist) (state : SimState) (memo : Memo) : Finset Signal :=
  (net.allSignals state).toFinset.filter fun signal => memo.find? signal = none

def Extends (memo later : Memo) : Prop :=
  ∀ signal held, memo.find? signal = some held → later.find? signal = some held

/-- Whether a call computes the routine: a signal that has an entry is not computed again. -/
def Opens (memo : Memo) : Routine → Prop
  | .settle signal => memo.find? signal = none
  | _ => True

def enter (memo : Memo) : Routine → Memo
  | .settle signal => memo.mark signal
  | _ => memo

def leave (memo : Memo) : (routine : Routine) → routine.Outcome → Memo
  | .settle signal, outcome => memo.settle signal outcome
  | _, _ => memo

theorem Extends.refl (memo : Memo) : memo.Extends memo := fun _ _ found => found

theorem Extends.trans {memo later last : Memo} (first : memo.Extends later)
    (rest : later.Extends last) : memo.Extends last :=
  fun signal held found => rest signal held (first signal held found)

theorem Opens.extends_enter {memo : Memo} {routine : Routine} (opens : memo.Opens routine) :
    memo.Extends (memo.enter routine) := by
  cases routine with
  | settle signal =>
      intro other held found
      have distinct : other ≠ signal := by
        rintro rfl
        rw [show memo.find? other = none from opens] at found
        cases found
      simpa only [enter, find?_mark, distinct, if_false] using found
  | _ => exact Extends.refl memo

theorem Opens.extends_leave {memo after : Memo} {routine : Routine} {outcome : routine.Outcome}
    (opens : memo.Opens routine) (grown : (memo.enter routine).Extends after) :
    memo.Extends (after.leave routine outcome) := by
  replace grown := opens.extends_enter.trans grown
  cases routine with
  | settle signal =>
      intro other held found
      have distinct : signal ≠ other := by
        rintro rfl
        rw [show memo.find? signal = none from opens] at found
        cases found
      rw [leave, find?_settle_other _ _ distinct]
      exact grown other held found
  | _ => exact grown

theorem mem_unmarked {memo : Memo} {signal : Signal} :
    signal ∈ memo.unmarked net state ↔
      signal ∈ net.allSignals state ∧ memo.find? signal = none := by
  simp [unmarked]

theorem Extends.unmarked_subset {memo later : Memo} (grown : memo.Extends later) :
    later.unmarked net state ⊆ memo.unmarked net state := by
  intro signal member
  rw [mem_unmarked] at member ⊢
  refine ⟨member.1, ?_⟩
  cases found : memo.find? signal with
  | none => rfl
  | some held =>
      have := grown signal held found
      rw [member.2] at this
      cases this

theorem Extends.card_unmarked_le {memo later : Memo} (grown : memo.Extends later) :
    (later.unmarked net state).card ≤ (memo.unmarked net state).card :=
  Finset.card_le_card grown.unmarked_subset

theorem card_unmarked_mark_lt {memo : Memo} {signal : Signal} (fresh : memo.find? signal = none)
    (has : net.Has state signal) :
    ((memo.mark signal).unmarked net state).card < (memo.unmarked net state).card := by
  have opens : memo.Opens (.settle signal) := fresh
  refine Finset.card_lt_card (Finset.ssubset_iff_of_subset opens.extends_enter.unmarked_subset |>.2
    ⟨signal, mem_unmarked.2 ⟨Netlist.mem_allSignals has, fresh⟩, fun member => ?_⟩)
  have marked : (memo.mark signal).find? signal = none := (mem_unmarked.1 member).2
  simp [find?_mark] at marked

theorem card_unmarked_le (memo : Memo) :
    (memo.unmarked net state).card ≤ net.signalCount state.memories.length :=
  calc
    _ ≤ (net.allSignals state).toFinset.card := Finset.card_filter_le _ _
    _ ≤ (net.allSignals state).length := List.toFinset_card_le _
    _ = _ := Netlist.length_allSignals net state

end Memo

namespace Routine

theorem signalBody_of_not_has {signal : Signal} (absent : ¬ net.Has state signal) :
    ∃ error, signalBody net state signal = .fail error := by
  cases signal with
  | expr inst id =>
      have none := ((net.graph.moduleOf inst).exprs.get?_eq_none_iff id).2 (Nat.le_of_not_lt absent)
      exact ⟨_, by simp only [signalBody, exprBody, none]; rfl⟩
  | grant memory port =>
      have none := List.getElem?_eq_none_iff.2 (Nat.le_of_not_lt absent)
      exact ⟨_, by simp only [signalBody, grantBody, none]; rfl⟩
  | valid inst channel | data inst channel | ready inst channel =>
      have none := ((net.graph.moduleOf inst).channels.get?_eq_none_iff channel).2
        (Nat.le_of_not_lt absent)
      exact ⟨_, by simp only [signalBody, channelBody, none]; rfl⟩

theorem has_of_calls {signal : Signal} {callee : Routine}
    (calls : (Routine.settle signal).Calls net state callee) : net.Has state signal := by
  by_contra absent
  obtain ⟨error, fails⟩ := signalBody_of_not_has absent
  rw [Calls, body, fails] at calls
  exact calls

end Routine

/-- The evaluation of a procedure over a memo. Only derivations that end are counted. -/
inductive Evaluates (net : Netlist) (state : SimState) :
    {α : Type} → Procedure α → Memo → Except SimError (α × Memo) → Prop
  | answer {α : Type} (value : α) (memo : Memo) :
      Evaluates net state (.answer value) memo (.ok (value, memo))
  | fail {α : Type} (error : SimError) (memo : Memo) :
      Evaluates net state (.fail error : Procedure α) memo (.error error)
  | known {α : Type} {signal : Signal} {outcome : signal.Outcome}
      {next : signal.Outcome → Procedure α} {memo : Memo} {result : Except SimError (α × Memo)}
      (found : memo.find? signal = some (some outcome))
      (rest : Evaluates net state (next outcome) memo result) :
      Evaluates net state (.call (.settle signal) next) memo result
  | again {α : Type} {signal : Signal} {next : signal.Outcome → Procedure α} {memo : Memo}
      (found : memo.find? signal = some none) :
      Evaluates net state (.call (.settle signal) next) memo (.error (signal.loopError net state))
  | returns {α : Type} {routine : Routine} {next : routine.Outcome → Procedure α}
      {memo after : Memo} {outcome : routine.Outcome} {result : Except SimError (α × Memo)}
      (opens : memo.Opens routine)
      (computes : Evaluates net state (routine.body net state) (memo.enter routine)
        (.ok (outcome, after)))
      (rest : Evaluates net state (next outcome) (after.leave routine outcome) result) :
      Evaluates net state (.call routine next) memo result
  | breaks {α : Type} {routine : Routine} {next : routine.Outcome → Procedure α} {memo : Memo}
      {error : SimError} (opens : memo.Opens routine)
      (computes : Evaluates net state (routine.body net state) (memo.enter routine)
        (.error error)) :
      Evaluates net state (.call routine next) memo (.error error)

inductive Reaches (net : Netlist) (state : SimState) {α : Type} (start : Procedure α)
    (memo : Memo) : Procedure α → Memo → Prop
  | start : Reaches net state start memo start memo
  | known {signal : Signal} {outcome : signal.Outcome} {next : signal.Outcome → Procedure α}
      {inner : Memo} (reaches : Reaches net state start memo (.call (.settle signal) next) inner)
      (found : inner.find? signal = some (some outcome)) :
      Reaches net state start memo (next outcome) inner
  | returns {routine : Routine} {next : routine.Outcome → Procedure α} {inner after : Memo}
      {outcome : routine.Outcome}
      (reaches : Reaches net state start memo (.call routine next) inner)
      (opens : inner.Opens routine)
      (computes : Evaluates net state (routine.body net state) (inner.enter routine)
        (.ok (outcome, after))) :
      Reaches net state start memo (next outcome) (after.leave routine outcome)

/-- A call: a routine with the memo that it is called over. While the outer call is computed, the
inner one is made. -/
def Nests (net : Netlist) (state : SimState) (outer inner : Memo × Routine) : Prop :=
  outer.1.Opens outer.2 ∧ ∃ next, Reaches net state (outer.2.body net state)
    (outer.1.enter outer.2) (.call inner.2 next) inner.1

namespace Evaluates

theorem unique {procedure : Procedure α} {memo : Memo} {first second : Except SimError (α × Memo)}
    (one : Evaluates net state procedure memo first)
    (other : Evaluates net state procedure memo second) : first = second := by
  induction one with
  | answer value memo => cases other with | answer => rfl
  | fail error memo => cases other with | fail => rfl
  | known found rest induction =>
      cases other with
      | known found' rest' =>
          cases found.symm.trans found'
          exact induction rest'
      | again found' => cases found.symm.trans found'
      | returns opens => cases found.symm.trans opens
      | breaks opens => cases found.symm.trans opens
  | again found =>
      cases other with
      | known found' => cases found.symm.trans found'
      | again => rfl
      | returns opens => cases found.symm.trans opens
      | breaks opens => cases found.symm.trans opens
  | returns opens computes rest computed induction =>
      cases other with
      | known found => cases found.symm.trans opens
      | again found => cases found.symm.trans opens
      | returns opens' computes' rest' =>
          cases computed computes'
          exact induction rest'
      | breaks opens' computes' => cases computed computes'
  | breaks opens computes computed =>
      cases other with
      | known found => cases found.symm.trans opens
      | again found => cases found.symm.trans opens
      | returns opens' computes' => cases computed computes'
      | breaks opens' computes' =>
          cases computed computes'
          rfl

/-- Entries stay as they are while a procedure is evaluated: a mark is taken back only by the call
that set it. -/
theorem extends_of_ok {procedure : Procedure α} {memo after : Memo} {value : α}
    (evaluates : Evaluates net state procedure memo (.ok (value, after))) :
    memo.Extends after := by
  generalize result : Except.ok (value, after) = ended at evaluates
  induction evaluates generalizing after with
  | answer value memo => cases result; exact Memo.Extends.refl _
  | fail error memo => cases result
  | known found rest induction => exact induction result
  | again found => cases result
  | returns opens computes rest computed induction =>
      exact (opens.extends_leave (computed rfl)).trans (induction result)
  | breaks opens computes => cases result

end Evaluates

namespace Reaches

theorem memo_extends {start procedure : Procedure α} {memo inner : Memo}
    (reaches : Reaches net state start memo procedure inner) : memo.Extends inner := by
  induction reaches with
  | start => exact Memo.Extends.refl memo
  | known reaches found grown => exact grown
  | returns reaches opens computes grown =>
      exact grown.trans (opens.extends_leave computes.extends_of_ok)

theorem calls {start procedure : Procedure α} {memo inner : Memo} {callee : Routine}
    (reaches : Reaches net state start memo procedure inner) (calls : procedure.Calls callee) :
    start.Calls callee := by
  induction reaches with
  | start => exact calls
  | known reaches found induction => exact induction (.inr ⟨_, calls⟩)
  | returns reaches opens computes induction => exact induction (.inr ⟨_, calls⟩)

end Reaches

namespace Nests

variable {outer inner : Memo × Routine}

theorem calls (nests : Nests net state outer inner) : outer.2.Calls net state inner.2 := by
  obtain ⟨-, next, reaches⟩ := nests
  exact reaches.calls (.inl rfl)

theorem extends_enter (nests : Nests net state outer inner) :
    (outer.1.enter outer.2).Extends inner.1 := by
  obtain ⟨-, next, reaches⟩ := nests
  exact reaches.memo_extends

theorem card_unmarked_le (nests : Nests net state outer inner) :
    (inner.1.unmarked net state).card ≤ (outer.1.unmarked net state).card :=
  (nests.1.extends_enter.trans nests.extends_enter).card_unmarked_le

theorem card_unmarked_lt (nests : Nests net state outer inner) (marked : outer.2.IsMarked) :
    (inner.1.unmarked net state).card < (outer.1.unmarked net state).card := by
  obtain ⟨memo, routine⟩ := outer
  cases routine with
  | settle signal =>
      calc
        _ ≤ ((memo.mark signal).unmarked net state).card := nests.extends_enter.card_unmarked_le
        _ < _ := Memo.card_unmarked_mark_lt nests.1 (Routine.has_of_calls nests.calls)
  | _ => exact marked.elim

theorem wellFounded (net : Netlist) (state : SimState) :
    WellFounded fun inner outer : Memo × Routine => Nests net state outer inner := by
  let measure (call : Memo × Routine) : Nat × Nat :=
    ((call.1.unmarked net state).card, call.2.rank)
  refine Subrelation.wf ?_ (InvImage.wf measure (Prod.lex Nat.lt_wfRel Nat.lt_wfRel).wf)
  intro inner outer nests
  refine Prod.lex_def.2 ?_
  rcases Nat.lt_or_eq_of_le nests.card_unmarked_le with fewer | same
  · exact .inl fewer
  · have unmarked : ¬ outer.2.IsMarked :=
      fun marked => Nat.ne_of_lt (nests.card_unmarked_lt marked) same
    exact .inr ⟨same, Routine.rank_lt_of_calls unmarked nests.calls⟩

/-- Calls within the computation of a signal find it marked. -/
theorem marked_of_transGen {signal : Signal} {memo : Memo}
    (within : Relation.TransGen (Nests net state) (memo, .settle signal) inner) :
    inner.1.find? signal = some none := by
  induction within with
  | single nests =>
      refine nests.extends_enter signal none ?_
      simp [Memo.enter, Memo.find?_mark]
  | tail within nests marked =>
      exact (nests.1.extends_enter.trans nests.extends_enter) signal none marked

end Nests

namespace Evaluates

theorem exists_of_reaches {start procedure : Procedure α} {memo inner : Memo}
    (reaches : Reaches net state start memo procedure inner)
    (ends : ∀ (routine : Routine) next within,
      Reaches net state start memo (.call routine next) within → within.Opens routine →
      ∃ result, Evaluates net state (routine.body net state) (within.enter routine) result) :
    ∃ result, Evaluates net state procedure inner result := by
  induction procedure generalizing inner with
  | answer value => exact ⟨_, .answer value inner⟩
  | fail error => exact ⟨_, .fail error inner⟩
  | call routine next induction =>
      by_cases opens : inner.Opens routine
      · obtain ⟨result, computes⟩ := ends routine next inner reaches opens
        cases result with
        | error error => exact ⟨_, .breaks opens computes⟩
        | ok result =>
            obtain ⟨outcome, after⟩ := result
            obtain ⟨result, rest⟩ := induction outcome (reaches.returns opens computes)
            exact ⟨result, .returns opens computes rest⟩
      · cases routine with
        | settle signal =>
            cases found : inner.find? signal with
            | none => exact absurd found opens
            | some held =>
                cases held with
                | none => exact ⟨_, .again found⟩
                | some outcome =>
                    obtain ⟨result, rest⟩ := induction outcome (reaches.known found)
                    exact ⟨result, .known found rest⟩
        | _ => exact absurd trivial opens

theorem exists_body (call : Memo × Routine) (opens : call.1.Opens call.2) :
    ∃ result, Evaluates net state (call.2.body net state) (call.1.enter call.2) result := by
  induction call using (Nests.wellFounded net state).induction with
  | _ call induction =>
      refine exists_of_reaches .start fun routine next within reaches inside => ?_
      exact induction (within, routine) ⟨opens, next, reaches⟩ inside

theorem exists_result (procedure : Procedure α) (memo : Memo) :
    ∃ result, Evaluates net state procedure memo result :=
  exists_of_reaches .start fun routine _ within _ opens => exists_body (within, routine) opens

end Evaluates

namespace Query

theorem run_run_bind (settle : (signal : Signal) → Settling signal.Outcome) (query : Query α)
    (next : α → Query β) (memo : Memo) :
    ((query >>= next).run settle).run memo =
      (query.run settle).run memo >>= fun result => ((next result.1).run settle).run result.2 := by
  induction query generalizing memo with
  | answer value => rfl
  | fail error => rfl
  | ask signal rest induction =>
      change (settle signal).run memo >>= (fun result =>
        ((rest result.1 >>= next).run settle).run result.2) = _
      simp only [Query.run, StateT.run_bind, bind_assoc, induction]

end Query

namespace Evaluates

open Settling

theorem run_call {routine : Routine} {next : routine.Outcome → Procedure α} (fuel : Nat)
    (memo : Memo) :
    (((Procedure.call routine next).flatten net state).run (demand net state fuel)).run memo =
      ((routine.query net state).run (demand net state fuel)).run memo >>= fun result =>
        (((next result.1).flatten net state).run (demand net state fuel)).run result.2 :=
  Query.run_run_bind ..

theorem run_settle (fuel : Nat) (signal : Signal) (memo : Memo) :
    (((Routine.settle signal).query net state).run (demand net state fuel)).run memo =
      (demand net state fuel signal).run memo := by
  simp only [Routine.query, Query.demand, Query.run]
  rw [bind_pure]

theorem run_query {routine : Routine} {memo : Memo} (opens : memo.Opens routine) {fuel : Nat}
    (enough : (memo.unmarked net state).card < fuel)
    {computed : Except SimError (routine.Outcome × Memo)}
    (computes : ∀ {fuel : Nat}, ((memo.enter routine).unmarked net state).card < fuel →
      (((routine.body net state).flatten net state).run (demand net state fuel)).run
        (memo.enter routine) = computed) :
    ((routine.query net state).run (demand net state fuel)).run memo =
      computed.map fun result => (result.1, result.2.leave routine result.1) := by
  by_cases marked : routine.IsMarked
  · cases routine with
    | settle signal =>
        obtain ⟨fuel, rfl⟩ := Nat.exists_eq_succ_of_ne_zero (Nat.ne_zero_of_lt enough)
        have inner : (((Query.equation net state signal).run (demand net state fuel)).run
            (memo.mark signal)) = computed := by
          rw [← Routine.flatten_signalBody]
          by_cases has : net.Has state signal
          · have fewer := Memo.card_unmarked_mark_lt opens has
            exact computes (Nat.lt_of_lt_of_le fewer (Nat.le_of_lt_succ enough))
          · obtain ⟨error, fails⟩ := Routine.signalBody_of_not_has has
            have failed := computes (Nat.lt_succ_self _)
            rw [Routine.body, fails] at failed
            rw [fails]
            exact failed
        rw [run_settle, run_demand, show memo.find? signal = none from opens]
        simp only [inner]
        cases computed <;> rfl
    | _ => exact marked.elim
  · have same : memo.enter routine = memo ∧
        (fun result : routine.Outcome × Memo => (result.1, result.2.leave routine result.1)) =
          id := by
      cases routine with
      | settle signal => exact absurd trivial marked
      | _ => exact ⟨rfl, rfl⟩
    rw [same.1, Routine.flatten_body marked] at computes
    rw [same.2, computes enough]
    cases computed <;> rfl

/-- With more fuel than there are signals to mark, a procedure runs to the result of its
evaluation. -/
theorem run_eq {procedure : Procedure α} {memo : Memo} {result : Except SimError (α × Memo)}
    (evaluates : Evaluates net state procedure memo result) {fuel : Nat}
    (enough : (memo.unmarked net state).card < fuel) :
    ((procedure.flatten net state).run (demand net state fuel)).run memo = result := by
  induction evaluates generalizing fuel with
  | answer value memo => rfl
  | fail error memo => rfl
  | known found rest induction =>
      rw [run_call, run_settle, run_demand, found]
      exact induction enough
  | again found =>
      rw [run_call, run_settle, run_demand, found]
      rfl
  | returns opens computes rest computed induction =>
      rw [run_call, run_query opens enough computed]
      refine induction (Nat.lt_of_le_of_lt ?_ enough)
      exact (opens.extends_leave computes.extends_of_ok).card_unmarked_le
  | breaks opens computes computed =>
      rw [run_call, run_query opens enough computed]
      rfl

theorem outcome_eq {routine : Routine} {memo : Memo}
    {result : Except SimError (routine.Outcome × Memo)}
    (evaluates : Evaluates net state (.invoke routine) memo result) :
    outcome net state (routine.query net state) memo = result := by
  have enough : (memo.unmarked net state).card < fuelFor net state := by
    have bound : (memo.unmarked net state).card ≤ net.signalCount state.memories.length :=
      memo.card_unmarked_le
    unfold fuelFor
    omega
  have run := evaluates.run_eq enough
  rwa [Procedure.flatten_invoke] at run

end Evaluates

/-- Every routine ends over every memo, with one result, and the fuel of the design is enough for
it. Cycles of calls go through signals; calls within calls are well-founded, they leave no more
signals unmarked, and fewer within a signal; and they find all signals marked that they are
within. -/
theorem settling_terminates (net : Netlist) (state : SimState) :
    (∀ (routine : Routine) (memo : Memo), ∃ result,
      Evaluates net state (.invoke routine) memo result ∧
      (∀ other, Evaluates net state (.invoke routine) memo other → other = result) ∧
      Settling.outcome net state (routine.query net state) memo = result) ∧
    (∀ (routine : Routine) (path : List Routine),
      (routine :: path ++ [routine]).IsChain (Routine.Calls net state) →
        ∃ signal, Routine.settle signal ∈ routine :: path) ∧
    (WellFounded fun inner outer : Memo × Routine => Nests net state outer inner) ∧
    (∀ outer inner : Memo × Routine, Nests net state outer inner →
      Routine.Calls net state outer.2 inner.2 ∧
      (inner.1.unmarked net state).card ≤ (outer.1.unmarked net state).card ∧
      (outer.2.IsMarked →
        (inner.1.unmarked net state).card < (outer.1.unmarked net state).card)) ∧
    ∀ (signal : Signal) (memo : Memo) (inner : Memo × Routine),
      Relation.TransGen (Nests net state) (memo, .settle signal) inner →
        inner.1.find? signal = some none := by
  refine ⟨fun routine memo => ?_, fun _ _ => Routine.exists_signal_of_cycle,
    Nests.wellFounded net state,
    fun _ _ nests => ⟨nests.calls, nests.card_unmarked_le, nests.card_unmarked_lt⟩,
    fun _ _ _ => Nests.marked_of_transGen⟩
  obtain ⟨result, evaluates⟩ : ∃ result, Evaluates net state (.invoke routine) memo result :=
    Evaluates.exists_result (.invoke routine) memo
  exact ⟨result, evaluates, fun _ other => other.unique evaluates, evaluates.outcome_eq⟩

/-- A request of a memory that is valid once it is ready, in an instance that feeds its own port. -/
def requestLoop : Netlist where
  graph := {
    modules := .ofList [{
      id := 0, name := 0, ports := [⟨0, 0⟩], metadata := none
      exprs := .ofList [.channelReady 0, .port 0]
      channels := .ofList [⟨0, .wrapped 1 0, .bundle 0 0⟩]
      bundles := .ofList [⟨0, [⟨0, .toService, 0, some 0, none⟩], .local, .service 0⟩]
      services := .ofList [⟨⟨"read", none⟩, 0, 0, 0, .server⟩]
      children := [⟨⟨"self", none⟩, 0, [1]⟩] }]
    instances := .ofList [⟨0, [], 0, some 0, [0]⟩]
    root := 0
    types := {}
    services := [] }
  parents := [(0, 0, 0)]
  endpoints := [((0, 0), .memory 0 .read 0)]

def requestLoopState : SimState where
  memories := [{
    path := "ram", word := .bits 1, words := #[.bits 0]
    readPort := { clients := [⟨0, 0, none⟩], arbiter := ⟨.fixedPriority, none⟩ }
    writePort := { arbiter := ⟨.fixedPriority, none⟩ }
    inst := 0, reset := none }]

theorem requestLoop_terminates :
    let grant : Routine := .settle (.grant 0 .read)
    let path : List Routine :=
      [.requestValid ⟨0, 0, none⟩, .roleValid ⟨0, 0, 0⟩, .settle (.valid 0 0),
        .settle (.expr 0 0), .settle (.ready 0 0), .roleReady ⟨0, 0, 0⟩, .serviceReady 0 0]
    let marked : Memo := Memo.mark [] (.expr 0 1)
    (∃ signal, Routine.settle signal ∈ grant :: path) ∧
      Evaluates requestLoop requestLoopState (.invoke grant) []
        (.error (.combinationalLoop "ram" "read port arbitration")) ∧
      (marked.unmarked requestLoop requestLoopState).card <
        (Memo.unmarked requestLoop requestLoopState []).card ∧
      marked.find? (.expr 0 1) = some none := by
  intro grant path marked
  have cycle : (grant :: path ++ [grant]).IsChain (Routine.Calls requestLoop requestLoopState) := by
    have direct : Routine.Calls requestLoop requestLoopState grant (.requestValid ⟨0, 0, none⟩) :=
      .inr ⟨false, .inl rfl⟩
    exact .cons_cons direct <| .cons_cons (.inl rfl) <| .cons_cons (.inl rfl) <|
      .cons_cons (.inl rfl) <| .cons_cons (.inl rfl) <| .cons_cons (.inl rfl) <|
      .cons_cons (.inl rfl) <| .cons_cons (.inl rfl) <| .singleton grant
  have port : Nests requestLoop requestLoopState ([], .settle (.expr 0 1))
      (marked, .portValue 0 0) := ⟨rfl, _, .start⟩
  have again : Nests requestLoop requestLoopState (marked, .portValue 0 0)
      (marked, .settle (.expr 0 1)) := ⟨trivial, _, .start⟩
  obtain ⟨ends, cycles, -, within, marks⟩ := settling_terminates requestLoop requestLoopState
  have failed : Settling.outcome requestLoop requestLoopState (.demand (.grant 0 .read)) [] =
      .error (.combinationalLoop "ram" "read port arbitration") := by
    decide +kernel
  obtain ⟨result, evaluates, -, outcome⟩ := ends grant []
  exact ⟨cycles grant path cycle, failed ▸ outcome ▸ evaluates, (within _ _ port).2.2 trivial,
    marks (.expr 0 1) [] (marked, .settle (.expr 0 1)) (.tail (.single port) again)⟩

end Elastic
