import Elastic.Sim.Settle

namespace Elastic

/-! The equations of a cycle on their own, without a memo. A query yields a value by a finite
derivation, or it stops: at a signal that is being settled already, or at a fault. -/

namespace Query

variable {net : Netlist} {state : SimState}

/-- A query yields a value if each signal that it asks for has an outcome by its own equation. -/
inductive Yields (net : Netlist) (state : SimState) : {α : Type} → Query α → α → Prop
  | answer {α : Type} (value : α) : Yields net state (.answer value) value
  | ask {α : Type} {signal : Signal} {outcome : signal.Outcome}
      {next : signal.Outcome → Query α} {value : α}
      (settles : Yields net state (equation net state signal) outcome)
      (yields : Yields net state (next outcome) value) :
      Yields net state (.ask signal next) value

/-- What a query comes to an end at without a value. -/
inductive Stop
  | loop (signal : Signal)
  | fault (error : SimError)

def Stop.error (net : Netlist) (state : SimState) : Stop → SimError
  | .loop signal => signal.loopError net state
  | .fault error => error

/-- The chain of demands of a query, down to where it stops. Signals that are being settled are
given from the inside out; a demand that has an outcome is passed over. -/
inductive Stops (net : Netlist) (state : SimState) :
    List Signal → {α : Type} → Query α → Stop → Prop
  | fault {running : List Signal} {α : Type} (error : SimError) :
      Stops net state running (.fail error : Query α) (.fault error)
  | again {running : List Signal} {α : Type} {signal : Signal}
      {next : signal.Outcome → Query α} (running_signal : signal ∈ running) :
      Stops net state running (.ask signal next) (.loop signal)
  | inside {running : List Signal} {α : Type} {signal : Signal}
      {next : signal.Outcome → Query α} {stop : Stop} (fresh : signal ∉ running)
      (stops : Stops net state (signal :: running) (equation net state signal) stop) :
      Stops net state running (.ask signal next) stop
  | after {running : List Signal} {α : Type} {signal : Signal} {outcome : signal.Outcome}
      {next : signal.Outcome → Query α} {stop : Stop} (fresh : signal ∉ running)
      (settles : Yields net state (equation net state signal) outcome)
      (stops : Stops net state running (next outcome) stop) :
      Stops net state running (.ask signal next) stop

theorem Yields.unique {query : Query α} {first second : α}
    (one : Yields net state query first) (other : Yields net state query second) :
    first = second := by
  induction one with
  | answer value => cases other with | answer => rfl
  | ask settles yields settled yielded =>
      cases other with
      | ask settles' yields' =>
          cases settled settles'
          exact yielded yields'

inductive Takes (net : Netlist) (state : SimState) : {α : Type} → Query α → α → Nat → Prop
  | answer {α : Type} (value : α) : Takes net state (.answer value) value 0
  | ask {α : Type} {signal : Signal} {outcome : signal.Outcome}
      {next : signal.Outcome → Query α} {value : α} {inner rest : Nat}
      (settles : Takes net state (equation net state signal) outcome inner)
      (takes : Takes net state (next outcome) value rest) :
      Takes net state (.ask signal next) value (inner + rest + 1)

theorem Yields.takes {query : Query α} {value : α} (yields : Yields net state query value) :
    ∃ count, Takes net state query value count := by
  induction yields with
  | answer value => exact ⟨0, .answer value⟩
  | ask settles yields settled yielded =>
      obtain ⟨inner, settled⟩ := settled
      obtain ⟨rest, yielded⟩ := yielded
      exact ⟨inner + rest + 1, .ask settled yielded⟩

theorem Takes.yields {query : Query α} {value : α} {count : Nat}
    (takes : Takes net state query value count) : Yields net state query value := by
  induction takes with
  | answer value => exact .answer value
  | ask settles takes settled taken => exact .ask settled taken

theorem Takes.unique {query : Query α} {first second : α} {few many : Nat}
    (one : Takes net state query first few) (other : Takes net state query second many) :
    first = second ∧ few = many := by
  induction one generalizing many with
  | answer value => cases other with | answer => exact ⟨rfl, rfl⟩
  | ask settles takes settled taken =>
      cases other with
      | ask settles' takes' =>
          obtain ⟨rfl, rfl⟩ := settled settles'
          obtain ⟨rfl, rfl⟩ := taken takes'
          exact ⟨rfl, rfl⟩

theorem Stops.exists_shorter {running : List Signal} {query : Query α} {stop : Stop}
    (stops : Stops net state running query stop) {value : α} {count : Nat}
    (takes : Takes net state query value count) :
    ∃ signal ∈ running, ∃ outcome inner,
      Takes net state (equation net state signal) outcome inner ∧ inner < count := by
  induction stops generalizing count with
  | fault error => cases takes
  | again member =>
      cases takes with
      | ask settles rest => exact ⟨_, member, _, _, settles, by omega⟩
  | inside fresh stops induction =>
      cases takes with
      | ask settles rest =>
          obtain ⟨signal, member, outcome, inner, shorter, bound⟩ := induction settles
          rcases List.mem_cons.1 member with rfl | outer
          · obtain ⟨-, rfl⟩ := settles.unique shorter
            omega
          · exact ⟨signal, outer, outcome, inner, shorter, by omega⟩
  | after fresh settles stops induction =>
      cases takes with
      | ask settles' rest =>
          obtain ⟨_, settles⟩ := settles.takes
          obtain ⟨rfl, rfl⟩ := settles.unique settles'
          obtain ⟨signal, outer, outcome, inner, shorter, bound⟩ := induction rest
          exact ⟨signal, outer, outcome, inner, shorter, by omega⟩

theorem Stops.not_yields {running : List Signal} {query : Query α} {stop : Stop} {value : α}
    (unsettled : ∀ signal ∈ running, ∀ outcome,
      ¬ Yields net state (equation net state signal) outcome)
    (stops : Stops net state running query stop) : ¬ Yields net state query value := by
  intro yields
  obtain ⟨count, takes⟩ := yields.takes
  obtain ⟨signal, member, outcome, inner, shorter, -⟩ := stops.exists_shorter takes
  exact unsettled signal member outcome shorter.yields

theorem Stops.unsettled_cons {running : List Signal} {signal : Signal} {stop : Stop}
    (unsettled : ∀ signal ∈ running, ∀ outcome,
      ¬ Yields net state (equation net state signal) outcome)
    (stops : Stops net state (signal :: running) (equation net state signal) stop) :
    ∀ other ∈ signal :: running, ∀ outcome,
      ¬ Yields net state (equation net state other) outcome := by
  intro other member outcome yields
  rcases List.mem_cons.1 member with rfl | outer
  · obtain ⟨count, takes⟩ := yields.takes
    obtain ⟨inner, member, result, few, shorter, bound⟩ := stops.exists_shorter takes
    rcases List.mem_cons.1 member with rfl | outer
    · obtain ⟨-, rfl⟩ := takes.unique shorter
      omega
    · exact unsettled inner outer result shorter.yields
  · exact unsettled other outer outcome yields

theorem Stops.unique {running : List Signal} {query : Query α} {first second : Stop}
    (unsettled : ∀ signal ∈ running, ∀ outcome,
      ¬ Yields net state (equation net state signal) outcome)
    (one : Stops net state running query first) (other : Stops net state running query second) :
    first = second := by
  induction one with
  | fault error => cases other with | fault error => rfl
  | again member =>
      cases other with
      | again member' => rfl
      | inside fresh stops => exact absurd member fresh
      | after fresh settles stops => exact absurd member fresh
  | inside fresh stops induction =>
      have inner := stops.unsettled_cons unsettled
      cases other with
      | again member => exact absurd member fresh
      | inside fresh' stops' => exact induction inner stops'
      | after fresh' settles stops' => exact absurd settles (inner _ (List.mem_cons_self ..) _)
  | after fresh settles stops induction =>
      cases other with
      | again member => exact absurd member fresh
      | inside fresh' stops' =>
          exact absurd settles
            (stops'.unsettled_cons unsettled _ (List.mem_cons_self ..) _)
      | after fresh' settles' stops' =>
          cases settles.unique settles'
          exact induction unsettled stops'

theorem yields_bind {query : Query α} {next : α → Query β} {value : β} :
    Yields net state (query >>= next) value ↔
      ∃ first, Yields net state query first ∧ Yields net state (next first) value := by
  induction query with
  | answer held =>
      constructor
      · intro yields
        exact ⟨held, .answer held, yields⟩
      · intro facts
        obtain ⟨first, inner, yields⟩ := facts
        cases inner
        exact yields
  | fail error =>
      constructor
      · intro yields
        cases yields
      · intro facts
        obtain ⟨first, inner, -⟩ := facts
        cases inner
  | ask signal rest induction =>
      constructor
      · intro yields
        cases yields with
        | ask settles yields =>
            obtain ⟨first, inner, yields⟩ := (induction _).1 yields
            exact ⟨first, .ask settles inner, yields⟩
      · intro facts
        obtain ⟨first, inner, yields⟩ := facts
        cases inner with
        | ask settles inner => exact .ask settles ((induction _).2 ⟨first, inner, yields⟩)

theorem yields_pure {held value : α} :
    Yields net state (pure held : Query α) value ↔ held = value := by
  constructor
  · intro yields
    cases yields
    rfl
  · intro equal
    subst equal
    exact .answer held

theorem yields_demand {signal : Signal} {outcome : signal.Outcome} :
    Yields net state (demand signal) outcome ↔
      Yields net state (equation net state signal) outcome := by
  constructor
  · intro yields
    cases yields with
    | ask settles rest =>
        cases rest
        exact settles
  · intro settles
    exact .ask settles (.answer outcome)

/-- All faults of a query itself, whatever its demands settle to, are of one sort. -/
def Faults (sort : SimError → Prop) : Query α → Prop
  | .answer _ => True
  | .fail error => sort error
  | .ask _ next => ∀ outcome, (next outcome).Faults sort

variable {sort : SimError → Prop}

@[simp] theorem faults_pure (value : α) : (pure value : Query α).Faults sort := trivial

@[simp] theorem faults_demand (signal : Signal) : (demand signal).Faults sort := fun _ => trivial

theorem faults_bind {query : Query α} {next : α → Query β} (first : query.Faults sort)
    (rest : ∀ value, (next value).Faults sort) : (query >>= next).Faults sort := by
  induction query with
  | answer value => exact rest value
  | fail error => exact first
  | ask signal inner induction => exact fun outcome => induction outcome (first outcome)

def IsOwnFault : SimError → Prop
  | .internal _ | .unsupported _ => True
  | _ => False

theorem faults_exprs (inst : InstanceId) (ids : List ExprId) :
    (exprs inst ids).Faults IsOwnFault := by
  induction ids with
  | nil => exact trivial
  | cons id rest induction =>
      exact faults_bind (faults_demand _) fun _ => faults_bind induction fun _ => trivial

theorem faults_inReset (state : SimState) (memory : Nat) :
    (inReset state memory).Faults IsOwnFault := by
  unfold inReset
  split
  · trivial
  · split
    · trivial
    · exact faults_bind (faults_demand _) fun _ => trivial

theorem faults_endpoint (net : Netlist) (inst : InstanceId)
    (serviceInstance : ServiceInstanceId) :
    (ofExcept (net.endpoint inst serviceInstance)).Faults IsOwnFault := by
  unfold Netlist.endpoint
  split <;> trivial

theorem faults_serviceReady (net : Netlist) (inst : InstanceId)
    (serviceInstance : ServiceInstanceId) :
    (serviceReady net inst serviceInstance).Faults IsOwnFault := by
  refine faults_bind (faults_endpoint _ _ _) fun endpoint => ?_
  cases endpoint with
  | memory memory port client => exact faults_bind (faults_demand _) fun _ => trivial
  | host host => trivial

theorem faults_pending (state : SimState) (ref : ClientRef) :
    (pending state ref).Faults IsOwnFault := by
  unfold pending
  split <;> trivial

theorem faults_outbound (state : SimState) (host role : Nat) :
    (outbound state host role).Faults IsOwnFault := by
  unfold outbound
  split <;> trivial

theorem faults_roleValid (net : Netlist) (state : SimState) (site : RoleSite) :
    (roleValid net state site).Faults IsOwnFault := by
  unfold roleValid
  split
  · exact faults_demand _
  · refine faults_bind (faults_endpoint _ _ _) fun endpoint => ?_
    cases endpoint with
    | memory memory port client =>
        refine faults_bind (faults_inReset _ _) fun high => ?_
        cases high
        · exact faults_bind (faults_pending _ _) fun _ => trivial
        · trivial
    | host host => exact faults_bind (faults_outbound _ _ _) fun _ => trivial
  · trivial
  · trivial

theorem faults_roleData (net : Netlist) (state : SimState) (site : RoleSite) :
    (roleData net state site).Faults IsOwnFault := by
  unfold roleData
  split
  · trivial
  split
  · exact faults_demand _
  · refine faults_bind (faults_endpoint _ _ _) fun endpoint => ?_
    cases endpoint with
    | memory memory port client => exact faults_bind (faults_pending _ _) fun _ => trivial
    | host host => exact faults_bind (faults_outbound _ _ _) fun _ => trivial
  · trivial
  · trivial

theorem faults_roleReady (net : Netlist) (site : RoleSite) :
    (roleReady net site).Faults IsOwnFault := by
  unfold roleReady
  split
  · exact faults_demand _
  · exact faults_serviceReady _ _ _
  · trivial
  · trivial

theorem faults_port (net : Netlist) (state : SimState) (inst : InstanceId) (index : Nat) :
    (port net state inst index).Faults IsOwnFault := by
  unfold port
  split
  · split <;> trivial
  · split
    · trivial
    · split
      · exact faults_demand _
      · trivial

theorem faults_ofExpr (net : Netlist) (state : SimState) (inst : InstanceId) (held : Expr) :
    (ofExpr net state inst held).Faults IsOwnFault := by
  cases held with
  | const value => trivial
  | port index => exact faults_port _ _ _ _
  | channelData channel => exact faults_demand _
  | channelValid channel | channelReady channel =>
      exact faults_bind (faults_demand _) fun _ => trivial
  | struct fields => exact faults_bind (faults_exprs _ _) fun _ => trivial
  | field base index =>
      refine faults_bind (faults_demand _) fun value => ?_
      cases value.field? index <;> trivial
  | and first second | or first second =>
      refine faults_bind (faults_demand _) fun value => ?_
      cases value.isTrue
      all_goals first | trivial | exact faults_bind (faults_demand _) fun _ => trivial
  | not operand => exact faults_bind (faults_demand _) fun _ => trivial
  | builtinResult builtin index => trivial

theorem faults_requestValid (net : Netlist) (state : SimState) (client : PortClient) :
    (requestValid net state client).Faults IsOwnFault := by
  unfold requestValid
  split
  · trivial
  · split
    · trivial
    · split
      · exact faults_roleValid _ _ _
      · trivial

theorem faults_requests (net : Netlist) (state : SimState) (clients : List PortClient) :
    (requests net state clients).Faults IsOwnFault := by
  induction clients with
  | nil => trivial
  | cons client rest induction =>
      unfold requests
      split
      · exact faults_bind (faults_pure _) fun _ => faults_bind induction fun _ => trivial
      · exact faults_bind (faults_requestValid _ _ _) fun _ =>
          faults_bind induction fun _ => trivial

theorem faults_ofGrant (net : Netlist) (state : SimState) (memory : Nat) (port : MemoryPort) :
    (ofGrant net state memory port).Faults IsOwnFault := by
  unfold ofGrant
  split
  · trivial
  · refine faults_bind (faults_inReset _ _) fun high => ?_
    cases high
    · exact faults_bind (faults_requests _ _ _) fun _ => trivial
    · trivial

theorem faults_equation (net : Netlist) (state : SimState) (signal : Signal) :
    (equation net state signal).Faults IsOwnFault := by
  cases signal with
  | expr inst id =>
      simp only [equation]
      split
      · trivial
      · exact faults_ofExpr _ _ _ _
  | grant memory port => exact faults_ofGrant _ _ _ _
  | valid inst channel =>
      simp only [equation, withChannel]
      split
      · trivial
      · split
        · exact faults_bind (faults_demand _) fun _ => trivial
        · exact faults_roleValid _ _ _
  | data inst channel =>
      simp only [equation, withChannel]
      split
      · trivial
      · split
        · exact faults_demand _
        · exact faults_roleData _ _ _
  | ready inst channel =>
      simp only [equation, withChannel]
      split
      · trivial
      · split
        · trivial
        · exact faults_bind (faults_demand _) fun _ => trivial
        · exact faults_roleReady _ _

theorem Stops.own_fault {running : List Signal} {query : Query α} {error : SimError} {stop : Stop}
    (stops : Stops net state running query stop) (faults : query.Faults IsOwnFault)
    (fault : stop = .fault error) : IsOwnFault error := by
  induction stops with
  | fault error => cases fault; exact faults
  | again member => cases fault
  | inside fresh stops induction => exact induction (faults_equation _ _ _) fault
  | after fresh settles stops induction => exact induction (faults _) fault

end Query

/-- A signal settles to an outcome if its equation yields it. -/
abbrev Signal.Settles (net : Netlist) (state : SimState) (signal : Signal)
    (outcome : signal.Outcome) : Prop :=
  Query.Yields net state (Query.equation net state signal) outcome

end Elastic
