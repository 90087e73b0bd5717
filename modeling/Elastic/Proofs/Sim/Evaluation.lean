import Elastic.Proofs.Build.Tree
import Elastic.Proofs.Sim.Equations
import Mathlib.Data.List.Perm.Subperm

namespace Elastic

/-! Settling over a memo agrees with the equations. While signals are being settled the memo holds
only what follows from the equations, and its marks are the signals on the way; as no signal is
marked twice, the fuel lasts. -/

variable {net : Netlist} {state : SimState}

namespace Netlist

/-- Whether a signal has an equation: the parts that it names are there. -/
def Has (net : Netlist) (state : SimState) : Signal → Prop
  | .expr inst id => id < (net.graph.moduleOf inst).exprs.size
  | .valid inst channel | .data inst channel | .ready inst channel =>
    channel < (net.graph.moduleOf inst).channels.size
  | .grant memory _ => memory < state.memories.length

def instanceSignals (net : Netlist) (inst : InstanceId) : List Signal :=
  (net.graph.moduleOf inst).exprs.ids.map (.expr inst) ++
    (net.graph.moduleOf inst).channels.ids.flatMap fun channel =>
      [.valid inst channel, .data inst channel, .ready inst channel]

def allSignals (net : Netlist) (state : SimState) : List Signal :=
  net.graph.instances.ids.flatMap net.instanceSignals ++
    (List.range state.memories.length).flatMap fun memory =>
      [.grant memory .read, .grant memory .write]

theorem length_allSignals (net : Netlist) (state : SimState) :
    (net.allSignals state).length = net.signalCount state.memories.length := by
  simp only [allSignals, instanceSignals, signalCount, List.length_append, List.length_flatMap,
    List.length_map, List.length_cons, List.length_nil, Arena.ids, List.length_range,
    ← List.sum_eq_foldr, List.map_const', List.sum_replicate_nat, Nat.mul_comm]

theorem lt_size_of_has_part {graph : Graph} {inst : InstanceId} {part : Nat}
    (has : part < (graph.moduleOf inst).exprs.size ∨ part < (graph.moduleOf inst).channels.size) :
    inst < graph.instances.size := by
  by_contra beyond
  rw [Graph.moduleOf_of_size_le (Nat.le_of_not_lt beyond)] at has
  rcases has with has | has <;> cases has

theorem mem_allSignals {signal : Signal} (has : net.Has state signal) :
    signal ∈ net.allSignals state := by
  unfold allSignals
  cases signal with
  | expr inst id =>
      have inside := lt_size_of_has_part (.inl has)
      refine List.mem_append_left _ (List.mem_flatMap.2 ⟨inst, ?_, ?_⟩)
      · simpa [Arena.ids] using inside
      · simpa [instanceSignals, Arena.ids, Has] using has
  | grant memory port =>
      refine List.mem_append_right _ (List.mem_flatMap.2 ⟨memory, List.mem_range.2 has, ?_⟩)
      cases port <;> simp
  | valid inst channel | data inst channel | ready inst channel =>
      have inside := lt_size_of_has_part (.inr has)
      refine List.mem_append_left _ (List.mem_flatMap.2 ⟨inst, ?_, ?_⟩)
      · simpa [Arena.ids] using inside
      · simpa [instanceSignals, Arena.ids, Has] using has

theorem length_le_signalCount {running : List Signal} (nodup : running.Nodup)
    (has : ∀ signal ∈ running, net.Has state signal) :
    running.length ≤ net.signalCount state.memories.length := by
  rw [← length_allSignals]
  exact (nodup.subperm fun signal member => mem_allSignals (has signal member)).length_le

end Netlist

namespace Query

theorem equation_of_not_has {signal : Signal} (absent : ¬ net.Has state signal) :
    ∃ error, equation net state signal = .fail error := by
  cases signal with
  | expr inst id =>
      have none := ((net.graph.moduleOf inst).exprs.get?_eq_none_iff id).2 (Nat.le_of_not_lt absent)
      exact ⟨_, by simp only [equation, none]; rfl⟩
  | grant memory port =>
      have none := List.getElem?_eq_none_iff.2 (Nat.le_of_not_lt absent)
      exact ⟨_, by simp only [equation, ofGrant, none]; rfl⟩
  | valid inst channel | data inst channel | ready inst channel =>
      have none := ((net.graph.moduleOf inst).channels.get?_eq_none_iff channel).2
        (Nat.le_of_not_lt absent)
      exact ⟨_, by simp only [equation, withChannel, none]; rfl⟩

end Query

/-- The memo holds outcomes that follow from the equations, and marks the signals that are being
settled. -/
structure Memo.Sound (net : Netlist) (state : SimState) (running : List Signal) (memo : Memo) :
    Prop where
  settled : ∀ signal outcome, memo.find? signal = some (some outcome) →
    Query.Yields net state (Query.equation net state signal) outcome
  marked : ∀ signal, memo.find? signal = some none ↔ signal ∈ running

namespace Memo

theorem sound_nil : Sound net state [] [] := by
  constructor
  · intro signal outcome found
    cases found
  · intro signal
    simp [find?]

theorem Sound.mark {running : List Signal} {memo : Memo} {signal : Signal}
    (sound : Sound net state running memo) :
    Sound net state (signal :: running) (memo.mark signal) := by
  constructor
  · intro other outcome found
    rw [find?_mark] at found
    split at found
    · cases found
    · exact sound.settled other outcome found
  · intro other
    rw [find?_mark, List.mem_cons, ← sound.marked other]
    by_cases same : other = signal <;> simp [same]

theorem Sound.settle {running : List Signal} {memo : Memo} {signal : Signal}
    {outcome : signal.Outcome} (sound : Sound net state (signal :: running) memo)
    (fresh : signal ∉ running)
    (yields : Query.Yields net state (Query.equation net state signal) outcome) :
    Sound net state running (memo.settle signal outcome) := by
  constructor
  · intro other value found
    by_cases same : signal = other
    · subst other
      rw [find?_settle_self] at found
      cases found
      exact yields
    · rw [find?_settle_other _ _ same] at found
      exact sound.settled other value found
  · intro other
    by_cases same : signal = other
    · subst other
      rw [find?_settle_self]
      simp [fresh]
    · rw [find?_settle_other _ _ same, sound.marked other]
      simp [Ne.symm same]

end Memo

namespace Settling

open Query

/-- What a run of a query over a memo comes to, read off the equations alone. -/
def Agrees (net : Netlist) (state : SimState) (running : List Signal) (query : Query α) :
    Except SimError (α × Memo) → Prop
  | .ok (value, memo) => Yields net state query value ∧ memo.Sound net state running
  | .error error => ∃ stop, Stops net state running query stop ∧ stop.error net state = error

/-- The fuel lasts until all signals of the design are being settled. -/
structure Supplied (net : Netlist) (state : SimState) (fuel : Nat) (running : List Signal) :
    Prop where
  nodup : running.Nodup
  has : ∀ signal ∈ running, net.Has state signal
  enough : net.signalCount state.memories.length < fuel + running.length

end Settling

namespace Settling

open Query

theorem agrees_run {running : List Signal} {settle : (signal : Signal) → Settling signal.Outcome}
    (agrees : ∀ signal memo, memo.Sound net state running →
      Agrees net state running (.demand signal) ((settle signal).run memo))
    (fresh : ∀ signal memo result, memo.Sound net state running →
      (settle signal).run memo = .ok result → signal ∉ running)
    (query : Query α) {memo : Memo} (sound : memo.Sound net state running) :
    Agrees net state running query ((query.run settle).run memo) := by
  induction query generalizing memo with
  | answer value => exact ⟨.answer value, sound⟩
  | fail error => exact ⟨.fault error, .fault error, rfl⟩
  | ask signal next induction =>
      have first := agrees signal memo sound
      simp only [Query.run, StateT.run_bind]
      cases settled : (settle signal).run memo with
      | error error =>
          rw [settled] at first
          obtain ⟨stop, stops, rfl⟩ := first
          refine ⟨stop, ?_, rfl⟩
          cases stops with
          | again member => exact .again member
          | inside fresh inner => exact .inside fresh inner
          | after fresh settles rest => cases rest
      | ok result =>
          obtain ⟨outcome, after⟩ := result
          rw [settled] at first
          obtain ⟨yields, sound⟩ := first
          have unmarked := fresh signal memo (outcome, after) ‹_› settled
          have yields : Yields net state (equation net state signal) outcome := by
            cases yields with
            | ask settles rest =>
                cases rest
                exact settles
          have rest := induction outcome sound
          change Agrees net state running _ (((next outcome).run settle).run after)
          cases run : ((next outcome).run settle).run after with
          | error error =>
              rw [run] at rest
              obtain ⟨stop, stops, rfl⟩ := rest
              exact ⟨stop, .after unmarked yields stops, rfl⟩
          | ok result =>
              rw [run] at rest
              exact ⟨.ask yields rest.1, rest.2⟩

theorem run_demand (fuel : Nat) (signal : Signal) (memo : Memo) :
    (demand net state fuel signal).run memo =
      match memo.find? signal with
      | some (some outcome) => .ok (outcome, memo)
      | some none => .error (signal.loopError net state)
      | none =>
        match fuel with
        | 0 => .error (.internal "more signals are being settled than the design has")
        | fuel + 1 =>
          match ((equation net state signal).run (demand net state fuel)).run
              (memo.mark signal) with
          | .ok (outcome, after) => .ok (outcome, after.settle signal outcome)
          | .error error => .error error := by
  rw [demand.eq_def]
  simp only [StateT.run_bind, StateT.run_get, pure_bind]
  cases memo.find? signal with
  | some known => cases known <;> rfl
  | none =>
      cases fuel with
      | zero => rfl
      | succ fuel =>
          simp only [StateT.run_bind, StateT.run_modify, pure_bind]
          cases ((equation net state signal).run (demand net state fuel)).run
            (memo.mark signal) <;> rfl

theorem not_mem_of_demand_ok {running : List Signal} {fuel : Nat} {signal : Signal} {memo : Memo}
    {result : signal.Outcome × Memo} (sound : memo.Sound net state running)
    (settled : (demand net state fuel signal).run memo = .ok result) : signal ∉ running := by
  intro member
  rw [run_demand, (sound.marked signal).2 member] at settled
  cases settled

theorem Supplied.next {fuel : Nat} {running : List Signal} {signal : Signal}
    (supplied : Supplied net state (fuel + 1) running) (fresh : signal ∉ running)
    (has : net.Has state signal) : Supplied net state fuel (signal :: running) where
  nodup := List.nodup_cons.2 ⟨fresh, supplied.nodup⟩
  has := by
    intro other member
    rcases List.mem_cons.1 member with rfl | outer
    · exact has
    · exact supplied.has other outer
  enough := by
    have := supplied.enough
    simp only [List.length_cons]
    omega

/-- Settling a signal with enough fuel agrees with the equations: the memo changes nothing. -/
theorem agrees_demand (fuel : Nat) {running : List Signal} {memo : Memo} (signal : Signal)
    (supplied : Supplied net state fuel running) (sound : memo.Sound net state running) :
    Agrees net state running (.demand signal) ((demand net state fuel signal).run memo) := by
  induction fuel generalizing running memo signal with
  | zero =>
      have crowded := Netlist.length_le_signalCount supplied.nodup supplied.has
      have := supplied.enough
      omega
  | succ fuel induction =>
      rw [run_demand]
      cases found : memo.find? signal with
      | some known =>
          cases known with
          | some outcome =>
              have settles := sound.settled signal outcome found
              exact ⟨.ask settles (.answer outcome), sound⟩
          | none => exact ⟨.loop signal, .again ((sound.marked signal).1 found), rfl⟩
      | none =>
          have fresh : signal ∉ running := by
            intro member
            rw [(sound.marked signal).2 member] at found
            cases found
          have inner : Agrees net state (signal :: running) (equation net state signal)
              (((equation net state signal).run (demand net state fuel)).run
                (memo.mark signal)) := by
            by_cases has : net.Has state signal
            · exact agrees_run
                (fun other memo sound => induction other (supplied.next fresh has) sound)
                (fun other memo result sound => not_mem_of_demand_ok sound) _ sound.mark
            · obtain ⟨error, fails⟩ := equation_of_not_has has
              rw [fails]
              exact ⟨.fault error, .fault error, rfl⟩
          cases run : ((equation net state signal).run (demand net state fuel)).run
              (memo.mark signal) with
          | error error =>
              rw [run] at inner
              obtain ⟨stop, stops, rfl⟩ := inner
              simp only [run]
              exact ⟨stop, .inside fresh stops, rfl⟩
          | ok result =>
              obtain ⟨outcome, after⟩ := result
              rw [run] at inner
              simp only [run]
              exact ⟨.ask inner.1 (.answer outcome), inner.2.settle fresh inner.1⟩

theorem supplied_fuelFor : Supplied net state (fuelFor net state) [] where
  nodup := List.nodup_nil
  has := by simp
  enough := by
    simp only [fuelFor, List.length_nil]
    omega

theorem agrees_query (query : Query α) {memo : Memo} (sound : memo.Sound net state []) :
    Agrees net state [] query ((Settling.query net state (fuelFor net state) query).run memo) :=
  agrees_run (fun signal _ sound => agrees_demand _ signal supplied_fuelFor sound)
    (fun _ _ _ sound => not_mem_of_demand_ok sound) query sound

end Settling

namespace Query

def each : List Signal → Query (List (Sigma Signal.Outcome))
  | [] => return []
  | signal :: rest => do
    let outcome ← demand signal
    return ⟨signal, outcome⟩ :: (← each rest)

theorem yields_each {signals : List Signal} {outcomes : List (Sigma Signal.Outcome)} :
    Yields net state (each signals) outcomes ↔
      outcomes.map (·.1) = signals ∧ ∀ entry ∈ outcomes, entry.1.Settles net state entry.2 := by
  induction signals generalizing outcomes with
  | nil => cases outcomes <;> simp [each, yields_pure]
  | cons signal rest induction =>
      simp only [each, yields_bind, yields_demand, yields_pure, induction]
      constructor
      · intro facts
        obtain ⟨outcome, settles, others, ⟨rfl, settled⟩, rfl⟩ := facts
        simp only [List.map_cons, List.mem_cons, forall_eq_or_imp]
        exact ⟨trivial, settles, settled⟩
      · intro facts
        obtain ⟨names, settled⟩ := facts
        cases outcomes with
        | nil => cases names
        | cons entry others =>
            obtain ⟨signal', outcome⟩ := entry
            simp only [List.map_cons, List.cons.injEq] at names
            obtain ⟨rfl, rfl⟩ := names
            exact ⟨outcome, settled _ (List.mem_cons_self ..), others,
              ⟨rfl, fun entry member => settled entry (List.mem_cons_of_mem _ member)⟩, rfl⟩

theorem yields_each_of_settles {signals : List Signal}
    (settles : ∀ signal ∈ signals, ∃ outcome, signal.Settles net state outcome) :
    ∃ outcomes, Yields net state (each signals) outcomes := by
  induction signals with
  | nil => exact ⟨[], .answer []⟩
  | cons signal rest induction =>
      obtain ⟨outcome, settled⟩ := settles signal (List.mem_cons_self ..)
      obtain ⟨outcomes, others⟩ :=
        induction fun other member => settles other (List.mem_cons_of_mem _ member)
      refine ⟨⟨signal, outcome⟩ :: outcomes, ?_⟩
      rw [yields_each] at others ⊢
      exact ⟨by rw [List.map_cons, others.1],
        List.forall_mem_cons.2 ⟨settled, others.2⟩⟩

theorem mem_of_yields_each {signals : List Signal} {outcomes : List (Sigma Signal.Outcome)}
    (yields : Yields net state (each signals) outcomes) (entry : Sigma Signal.Outcome) :
    entry ∈ outcomes ↔ entry.1 ∈ signals ∧ entry.1.Settles net state entry.2 := by
  obtain ⟨names, settled⟩ := yields_each.1 yields
  constructor
  · intro member
    exact ⟨names ▸ List.mem_map_of_mem member, settled entry member⟩
  · intro facts
    obtain ⟨member, settles⟩ := facts
    rw [← names] at member
    obtain ⟨⟨signal, outcome⟩, inside, rfl⟩ := List.mem_map.1 member
    have equal := (settled _ inside).unique settles
    rwa [show entry = ⟨entry.1, entry.2⟩ from rfl, ← equal]

end Query

namespace Settling

open Query

/-- What a query comes to over a memo, with the fuel of its design. -/
def outcome (net : Netlist) (state : SimState) (query : Query α) (memo : Memo) :
    Except SimError (α × Memo) :=
  (Settling.query net state (fuelFor net state) query).run memo

/-- The memos of one cycle: those that successful queries leave behind, in whatever order. -/
inductive Reached (net : Netlist) (state : SimState) : Memo → Prop
  | fresh : Reached net state []
  | query {α : Type} {query : Query α} {value : α} {memo after : Memo}
      (reached : Reached net state memo)
      (answered : outcome net state query memo = .ok (value, after)) :
      Reached net state after

theorem Reached.sound {memo : Memo} (reached : Reached net state memo) :
    memo.Sound net state [] := by
  induction reached with
  | fresh => exact Memo.sound_nil
  | @query α query value memo after reached answered sound =>
      have agrees := agrees_query query sound
      rw [← outcome, answered] at agrees
      exact agrees.2

theorem outcome_ok_iff {memo : Memo} (reached : Reached net state memo) {query : Query α}
    {value : α} :
    (∃ after, outcome net state query memo = .ok (value, after)) ↔
      Yields net state query value := by
  have agrees := agrees_query query reached.sound
  rw [← outcome] at agrees
  constructor
  · intro facts
    obtain ⟨after, answered⟩ := facts
    rw [answered] at agrees
    exact agrees.1
  · intro yields
    cases run : outcome net state query memo with
    | error error =>
        rw [run] at agrees
        obtain ⟨stop, stops, -⟩ := agrees
        exact absurd yields (stops.not_yields (by simp))
    | ok result =>
        obtain ⟨answer, after⟩ := result
        rw [run] at agrees
        cases yields.unique agrees.1
        exact ⟨after, rfl⟩

theorem outcome_error_iff {memo : Memo} (reached : Reached net state memo) {query : Query α}
    {error : SimError} :
    outcome net state query memo = .error error ↔
      ∃ stop, Stops net state [] query stop ∧ stop.error net state = error := by
  have agrees := agrees_query query reached.sound
  rw [← outcome] at agrees
  cases run : outcome net state query memo with
  | error error' =>
      rw [run] at agrees
      obtain ⟨stop, stops, rfl⟩ := agrees
      constructor
      · intro impossible
        cases impossible
        exact ⟨stop, stops, rfl⟩
      · intro facts
        obtain ⟨stop', stops', rfl⟩ := facts
        rw [stops.unique (by simp) stops']
  | ok result =>
      obtain ⟨answer, after⟩ := result
      rw [run] at agrees
      constructor
      · intro impossible
        cases impossible
      · intro facts
        obtain ⟨stop, stops, -⟩ := facts
        exact absurd agrees.1 (stops.not_yields (by simp))

/-- A combinational loop is reported for a chain of demands that comes back to itself, and for
nothing else. -/
theorem outcome_loop_iff {memo : Memo} (reached : Reached net state memo) {signal : Signal} :
    (∃ path what, outcome net state (.demand signal) memo =
      .error (.combinationalLoop path what)) ↔
      ∃ inner, Stops net state [] (.demand signal) (.loop inner) := by
  constructor
  · intro facts
    obtain ⟨path, what, failed⟩ := facts
    obtain ⟨stop, stops, error⟩ := (outcome_error_iff reached).1 failed
    cases stop with
    | loop inner => exact ⟨inner, stops⟩
    | fault fault =>
        have own := stops.own_fault (faults_demand signal) rfl
        rw [show fault = _ from error] at own
        exact own.elim
  · intro facts
    obtain ⟨inner, stops⟩ := facts
    have failed := (outcome_error_iff reached).2 ⟨.loop inner, stops, rfl⟩
    cases inner <;> exact ⟨_, _, failed⟩

theorem outcome_each {memo other : Memo} (reached : Reached net state memo)
    (reached' : Reached net state other) {first second : List Signal}
    (same : ∀ signal, signal ∈ first ↔ signal ∈ second) :
    (∃ error error', outcome net state (.each first) memo = .error error ∧
      outcome net state (.each second) other = .error error') ∨
    ∃ outcomes outcomes' after after',
      outcome net state (.each first) memo = .ok (outcomes, after) ∧
      outcome net state (.each second) other = .ok (outcomes', after') ∧
      outcomes.map (·.1) = first ∧ outcomes'.map (·.1) = second ∧
      ∀ entry, entry ∈ outcomes ↔ entry ∈ outcomes' := by
  by_cases settles : ∀ signal ∈ first, ∃ outcome, signal.Settles net state outcome
  · right
    obtain ⟨outcomes, yields⟩ := yields_each_of_settles settles
    have settles' : ∀ signal ∈ second, ∃ outcome, signal.Settles net state outcome :=
      fun signal member => settles signal ((same signal).2 member)
    obtain ⟨outcomes', yields'⟩ := yields_each_of_settles settles'
    obtain ⟨after, answered⟩ := (outcome_ok_iff reached).2 yields
    obtain ⟨after', answered'⟩ := (outcome_ok_iff reached').2 yields'
    refine ⟨outcomes, outcomes', after, after', answered, answered', (yields_each.1 yields).1,
      (yields_each.1 yields').1, fun entry => ?_⟩
    rw [mem_of_yields_each yields, mem_of_yields_each yields', same]
  · left
    -- An answer of either order would settle all signals of the set.
    have fails {memo : Memo} (reached : Reached net state memo) {signals : List Signal}
        (same : ∀ signal, signal ∈ first ↔ signal ∈ signals) :
        ∃ error, outcome net state (.each signals) memo = .error error := by
      cases run : outcome net state (.each signals) memo with
      | error error => exact ⟨error, rfl⟩
      | ok result =>
          obtain ⟨names, settled⟩ := yields_each.1 ((outcome_ok_iff reached).1 ⟨result.2, run⟩)
          refine absurd (fun signal member => ?_) settles
          rw [same, ← names] at member
          obtain ⟨⟨_, outcome⟩, inside, rfl⟩ := List.mem_map.1 member
          exact ⟨outcome, settled _ inside⟩
    obtain ⟨error, failed⟩ := fails reached fun _ => Iff.rfl
    obtain ⟨error', failed'⟩ := fails reached' same
    exact ⟨error, error', failed, failed'⟩

/-- Over every memo of a cycle, queries answer what the equations yield and fail where the chain of
their demands stops. -/
theorem settling_agrees_with_equations (net : Netlist) (state : SimState) {memo : Memo}
    (reached : Reached net state memo) :
    (∀ (signal : Signal) (value : signal.Outcome),
      (∃ after, outcome net state (.demand signal) memo = .ok (value, after)) ↔
        signal.Settles net state value) ∧
    (∀ {α : Type} (query : Query α) (value : α),
      (∃ after, outcome net state query memo = .ok (value, after)) ↔
        Yields net state query value) ∧
    (∀ {α : Type} (query : Query α) (error : SimError),
      outcome net state query memo = .error error ↔
        ∃ stop, Stops net state [] query stop ∧ stop.error net state = error) ∧
    (∀ signal : Signal,
      (∃ path what, outcome net state (.demand signal) memo =
        .error (.combinationalLoop path what)) ↔
        ∃ inner, Stops net state [] (.demand signal) (.loop inner)) ∧
    ∀ (other : Memo) (first second : List Signal), Reached net state other →
      (∀ signal, signal ∈ first ↔ signal ∈ second) →
      (∃ error error', outcome net state (.each first) memo = .error error ∧
        outcome net state (.each second) other = .error error') ∨
      ∃ outcomes outcomes' after after',
        outcome net state (.each first) memo = .ok (outcomes, after) ∧
        outcome net state (.each second) other = .ok (outcomes', after') ∧
        outcomes.map (·.1) = first ∧ outcomes'.map (·.1) = second ∧
        ∀ entry, entry ∈ outcomes ↔ entry ∈ outcomes' :=
  ⟨fun _ _ => (outcome_ok_iff reached).trans yields_demand,
    fun _ _ => outcome_ok_iff reached,
    fun _ _ => outcome_error_iff reached,
    fun _ => outcome_loop_iff reached,
    fun _ _ _ reached' same => outcome_each reached reached' same⟩

/-- One instance whose expression 2 asks for itself; expression 1 settles without asking for it. -/
def selfLoop : Netlist where
  graph := {
    modules := .ofList [{
      id := 0, name := 0, ports := [], metadata := none
      exprs := .ofList [.const 0, .and 0 2, .not 2] }]
    instances := .ofList [⟨0, [], 0, none, []⟩]
    root := 0
    types := {}
    services := [] }
  parents := []
  endpoints := []

theorem settling_agrees_in_selfLoop :
    ∃ memo, Reached selfLoop {} memo ∧
      (Signal.expr 0 1).Settles selfLoop {} (.ofBool false) ∧
      ∃ inner, Stops selfLoop {} [] (.demand (.expr 0 2)) (.loop inner) := by
  let memo : Memo :=
    [⟨.expr 0 1, some (.ofBool false)⟩, ⟨.expr 0 0, some (.bits 0)⟩, ⟨.expr 0 0, none⟩,
      ⟨.expr 0 1, none⟩]
  have answered : outcome selfLoop {} (.demand (.expr 0 1)) [] = .ok (.ofBool false, memo) := by
    decide +kernel
  have known : outcome selfLoop {} (.demand (.expr 0 1)) memo = .ok (.ofBool false, memo) := by
    decide +kernel
  have failed : outcome selfLoop {} (.demand (.expr 0 2)) memo =
      .error (.combinationalLoop "" "expression #2") := by
    decide +kernel
  have reached : Reached selfLoop {} memo := Reached.query .fresh answered
  obtain ⟨values, -, -, loops, -⟩ := settling_agrees_with_equations selfLoop {} reached
  exact ⟨memo, reached, (values _ _).1 ⟨_, known⟩, (loops _).1 ⟨_, _, failed⟩⟩

end Settling

end Elastic
