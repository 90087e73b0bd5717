import Elastic.Proofs.Sim.Evaluation

namespace Elastic

/-! The functions that settle a cycle, and their calls of one another. A signal is marked while it
is computed; the functions between signals are not. -/

/-- A function with its arguments. -/
inductive Routine
  | settle (signal : Signal)
  | portValue (inst : InstanceId) (index : Nat)
  | roleValid (site : RoleSite)
  | roleData (site : RoleSite)
  | roleReady (site : RoleSite)
  | serviceValid (inst : InstanceId) (serviceInstance : ServiceInstanceId) (role : Nat)
  | serviceData (inst : InstanceId) (serviceInstance : ServiceInstanceId) (role : Nat)
      (payload : Ty)
  | serviceReady (inst : InstanceId) (serviceInstance : ServiceInstanceId)
  | inReset (memory : Nat)
  | requestValid (client : PortClient)
deriving DecidableEq

namespace Routine

abbrev Outcome : Routine → Type
  | .settle signal => signal.Outcome
  | .portValue _ _ | .roleData _ | .serviceData _ _ _ _ => SimValue
  | .roleValid _ | .roleReady _ | .serviceValid _ _ _ | .serviceReady _ _ | .inReset _ |
    .requestValid _ => Bool

def IsMarked : Routine → Prop
  | .settle _ => True
  | _ => False

instance : DecidablePred IsMarked := by
  intro routine
  cases routine <;> unfold IsMarked <;> infer_instance

/-- What a routine asks for, with the unmarked routines that it calls written out. -/
def query (net : Netlist) (state : SimState) : (routine : Routine) → Query routine.Outcome
  | .settle signal => .demand signal
  | .portValue inst index => .port net state inst index
  | .roleValid site => .roleValid net state site
  | .roleData site => .roleData net state site
  | .roleReady site => .roleReady net site
  | .serviceValid inst serviceInstance role => .serviceValid net state inst serviceInstance role
  | .serviceData inst serviceInstance role payload =>
    .serviceData net state inst serviceInstance role payload
  | .serviceReady inst serviceInstance => .serviceReady net inst serviceInstance
  | .inReset memory => .inReset state memory
  | .requestValid client => .requestValid net state client

end Routine

/-- A computation that calls routines. -/
inductive Procedure (α : Type) : Type
  | answer (value : α)
  | fail (error : SimError)
  | call (routine : Routine) (next : routine.Outcome → Procedure α)

namespace Procedure

protected def bind : Procedure α → (α → Procedure β) → Procedure β
  | .answer value, next => next value
  | .fail error, _ => .fail error
  | .call routine rest, next => .call routine fun outcome => (rest outcome).bind next

instance : Monad Procedure where
  pure := .answer
  bind := Procedure.bind

def invoke (routine : Routine) : Procedure routine.Outcome := .call routine .answer

def ofQuery : Query α → Procedure α
  | .answer value => .answer value
  | .fail error => .fail error
  | .ask signal next => .call (.settle signal) fun outcome => ofQuery (next outcome)

/-- Writes out the routines that are called, down to signals. -/
def flatten (net : Netlist) (state : SimState) : Procedure α → Query α
  | .answer value => .answer value
  | .fail error => .fail error
  | .call routine next => do (next (← routine.query net state)).flatten net state

def Calls : Procedure α → Routine → Prop
  | .answer _, _ | .fail _, _ => False
  | .call routine next, callee => callee = routine ∨ ∃ outcome, (next outcome).Calls callee

end Procedure

namespace Routine

open Procedure

def exprBody (net : Netlist) (state : SimState) (inst : InstanceId) (id : ExprId) :
    Procedure SimValue :=
  match (net.graph.moduleOf inst).exprs.get? id with
  | some (.port index) => invoke (.portValue inst index)
  | some held => ofQuery (.ofExpr net state inst held)
  | none => ofQuery (.missing "expression")

def channelBody (net : Netlist) (inst : InstanceId) (channel : ChannelId)
    (next : Channel → Procedure α) : Procedure α :=
  match (net.graph.moduleOf inst).channels.get? channel with
  | none => ofQuery (.missing "channel")
  | some held => next held

/-- The pending responses of a port are looked at first: a client that has one is not called. -/
def requestsBody : List PortClient → Procedure (List Bool)
  | [] => return []
  | client :: rest => do
    let requested ← if client.pending.isSome then pure false else invoke (.requestValid client)
    return requested :: (← requestsBody rest)

def grantBody (state : SimState) (memory : Nat) (port : MemoryPort) : Procedure (Option Nat) :=
  match state.memories[memory]? with
  | none => ofQuery (.missing "memory")
  | some held => do
    if ← invoke (.inReset memory) then return none
    return (held.port port).arbiter.select (← requestsBody (held.port port).clients)

def signalBody (net : Netlist) (state : SimState) : (signal : Signal) → Procedure signal.Outcome
  | .expr inst id => exprBody net state inst id
  | .valid inst channel =>
    channelBody net inst channel fun held =>
      match held.producer with
      | .wrapped _ valid => ofQuery do return (← Query.expr inst valid).isTrue
      | .bundle bundle role => invoke (.roleValid ⟨inst, bundle, role⟩)
  | .data inst channel =>
    channelBody net inst channel fun held =>
      match held.producer with
      | .wrapped data _ => ofQuery (.expr inst data)
      | .bundle bundle role => invoke (.roleData ⟨inst, bundle, role⟩)
  | .ready inst channel =>
    channelBody net inst channel fun held =>
      match held.consumer with
      | .unbound => return true
      | .unwrapped ready => ofQuery do return (← Query.expr inst ready).isTrue
      | .bundle bundle role => invoke (.roleReady ⟨inst, bundle, role⟩)
  | .grant memory port => grantBody state memory port

def serviceValidBody (net : Netlist) (state : SimState) (inst : InstanceId)
    (serviceInstance : ServiceInstanceId) (role : Nat) : Procedure Bool := do
  match ← ofQuery (.ofExcept (net.endpoint inst serviceInstance)) with
  | .memory memory port client =>
    if ← invoke (.inReset memory) then return false
    return (← ofQuery (.pending state ⟨memory, port, client⟩)).isSome
  | .host host => return (← ofQuery (.outbound state host role)).isSome

def roleValidBody (net : Netlist) (site : RoleSite) : Procedure Bool :=
  match net.source site with
  | .channel channel => invoke (.settle (.valid site.inst channel))
  | .service serviceInstance => invoke (.serviceValid site.inst serviceInstance site.role)
  | .nothing => return false
  | .absent => ofQuery (.missing "role")

def roleDataBody (net : Netlist) (site : RoleSite) : Procedure SimValue :=
  match net.rolePayload? site with
  | none => ofQuery (.missing "role")
  | some payload =>
    match net.source site with
    | .channel channel => invoke (.settle (.data site.inst channel))
    | .service serviceInstance =>
      invoke (.serviceData site.inst serviceInstance site.role payload)
    | .nothing => return .zero payload
    | .absent => ofQuery (.missing "role")

def roleReadyBody (net : Netlist) (site : RoleSite) : Procedure Bool :=
  match net.sink site with
  | .channel channel => invoke (.settle (.ready site.inst channel))
  | .service serviceInstance => invoke (.serviceReady site.inst serviceInstance)
  | .nothing => return true
  | .absent => ofQuery (.missing "role")

def requestValidBody (net : Netlist) (client : PortClient) : Procedure Bool :=
  match (net.graph.moduleOf client.inst).services.get? client.serviceInstance with
  | none => ofQuery (.missing "service instance")
  | some held =>
    match net.bundle? client.inst held.bundle with
    | none => ofQuery (.missing "bundle")
    | some bundle =>
      match Netlist.requestRole? bundle with
      | some role => invoke (.roleValid ⟨client.inst, held.bundle, role⟩)
      | none => .fail (.internal
          ("memory client in " ++ net.pathText client.inst ++ " has no request role"))

/-- A routine with the calls that it makes itself. -/
def body (net : Netlist) (state : SimState) : (routine : Routine) → Procedure routine.Outcome
  | .settle signal => signalBody net state signal
  | .portValue inst index => ofQuery (.port net state inst index)
  | .roleValid site => roleValidBody net site
  | .roleData site => roleDataBody net site
  | .roleReady site => roleReadyBody net site
  | .serviceValid inst serviceInstance role =>
    serviceValidBody net state inst serviceInstance role
  | .serviceData inst serviceInstance role payload =>
    ofQuery (.serviceData net state inst serviceInstance role payload)
  | .serviceReady inst serviceInstance => ofQuery (.serviceReady net inst serviceInstance)
  | .inReset memory => ofQuery (.inReset state memory)
  | .requestValid client => requestValidBody net client

def Calls (net : Netlist) (state : SimState) (routine callee : Routine) : Prop :=
  (routine.body net state).Calls callee

end Routine

variable {net : Netlist} {state : SimState}

namespace Query

theorem bind_answer (query : Query α) : query >>= Query.answer = query := by
  induction query with
  | answer value => rfl
  | fail error => rfl
  | ask signal next induction => exact congrArg (Query.ask signal) (funext induction)

theorem bind_bind (query : Query α) (next : α → Query β) (last : β → Query γ) :
    (query >>= next) >>= last = query >>= fun value => next value >>= last := by
  induction query with
  | answer value => rfl
  | fail error => rfl
  | ask signal rest induction => exact congrArg (Query.ask signal) (funext induction)

end Query

namespace Procedure

theorem flatten_bind (procedure : Procedure α) (next : α → Procedure β) :
    (procedure >>= next).flatten net state =
      procedure.flatten net state >>= fun value => (next value).flatten net state := by
  induction procedure with
  | answer value => rfl
  | fail error => rfl
  | call routine rest induction =>
      change routine.query net state >>= (fun outcome =>
        (rest outcome >>= next).flatten net state) = _
      simp only [induction, flatten, Query.bind_bind]

theorem flatten_invoke (routine : Routine) :
    (invoke routine).flatten net state = routine.query net state := Query.bind_answer _

theorem flatten_ofQuery (query : Query α) : (ofQuery query).flatten net state = query := by
  induction query with
  | answer value => rfl
  | fail error => rfl
  | ask signal next induction => exact congrArg (Query.ask signal) (funext induction)

theorem flatten_ofQuery_bind (query : Query α) (change : α → β) :
    (do return change (← ofQuery query) : Procedure β).flatten net state =
      do return change (← query) := by
  rw [flatten_bind, flatten_ofQuery]
  rfl

end Procedure

namespace Routine

open Procedure

theorem flatten_exprBody (inst : InstanceId) (id : ExprId) :
    (exprBody net state inst id).flatten net state = .equation net state (.expr inst id) := by
  unfold exprBody
  simp only [Query.equation]
  cases (net.graph.moduleOf inst).exprs.get? id with
  | none => exact flatten_ofQuery _
  | some held =>
      cases held with
      | port index => exact flatten_invoke _
      | _ => exact flatten_ofQuery _

theorem flatten_channelBody {inst : InstanceId} {channel : ChannelId}
    {next : Channel → Procedure α} {rest : Channel → Query α}
    (same : ∀ held, (next held).flatten net state = rest held) :
    (channelBody net inst channel next).flatten net state = .withChannel net inst channel rest := by
  unfold channelBody Query.withChannel
  cases (net.graph.moduleOf inst).channels.get? channel with
  | none => exact flatten_ofQuery _
  | some held => exact same held

theorem flatten_requestsBody (clients : List PortClient) :
    (requestsBody clients).flatten net state = .requests net state clients := by
  induction clients with
  | nil => rfl
  | cons client rest induction =>
      have others (requested : Bool) :
          (do return requested :: (← requestsBody rest) : Procedure (List Bool)).flatten net state =
            do return requested :: (← Query.requests net state rest) := by
        rw [flatten_bind, induction]
        rfl
      unfold requestsBody Query.requests
      by_cases pending : client.pending.isSome
      · simp only [pending, if_true]
        exact others false
      · simp only [pending]
        exact congrArg (Query.requestValid net state client >>= ·) (funext others)

theorem flatten_grantBody (memory : Nat) (port : MemoryPort) :
    (grantBody state memory port).flatten net state = .ofGrant net state memory port := by
  unfold grantBody Query.ofGrant
  cases state.memories[memory]? with
  | none => exact flatten_ofQuery _
  | some held =>
      let clients := (held.port port).clients
      let select := (held.port port).arbiter.select
      have granted :
          (do return select (← requestsBody clients) : Procedure (Option Nat)).flatten net state =
            do return select (← Query.requests net state clients) := by
        rw [flatten_bind, flatten_requestsBody]
        rfl
      refine congrArg (Query.inReset state memory >>= ·) (funext fun high => ?_)
      cases high with
      | false => exact granted
      | true => rfl

theorem flatten_signalBody (signal : Signal) :
    (signalBody net state signal).flatten net state = .equation net state signal := by
  cases signal with
  | expr inst id => exact flatten_exprBody inst id
  | grant memory port => exact flatten_grantBody memory port
  | valid inst channel =>
      refine flatten_channelBody fun held => ?_
      cases held.producer with
      | wrapped data valid => exact flatten_ofQuery _
      | bundle bundle role => exact flatten_invoke _
  | data inst channel =>
      refine flatten_channelBody fun held => ?_
      cases held.producer with
      | wrapped data valid => exact flatten_ofQuery _
      | bundle bundle role => exact flatten_invoke _
  | ready inst channel =>
      refine flatten_channelBody fun held => ?_
      cases held.consumer with
      | unbound => rfl
      | unwrapped ready => exact flatten_ofQuery _
      | bundle bundle role => exact flatten_invoke _

theorem flatten_serviceValidBody (inst : InstanceId) (serviceInstance : ServiceInstanceId)
    (role : Nat) :
    (serviceValidBody net state inst serviceInstance role).flatten net state =
      .serviceValid net state inst serviceInstance role := by
  unfold serviceValidBody Query.serviceValid
  rw [flatten_bind, flatten_ofQuery]
  refine congrArg (Query.ofExcept (net.endpoint inst serviceInstance) >>= ·)
    (funext fun endpoint => ?_)
  cases endpoint with
  | host host => exact flatten_ofQuery_bind _ Option.isSome
  | memory memory port client =>
      refine congrArg (Query.inReset state memory >>= ·) (funext fun high => ?_)
      cases high
      · exact flatten_ofQuery_bind _ Option.isSome
      · rfl

/-- The body of a routine that is no signal comes to the query of that routine. -/
theorem flatten_body {routine : Routine} (unmarked : ¬ routine.IsMarked) :
    (routine.body net state).flatten net state = routine.query net state := by
  cases routine with
  | settle signal => exact absurd trivial unmarked
  | portValue | serviceData | serviceReady | inReset => exact flatten_ofQuery _
  | serviceValid inst serviceInstance role => exact flatten_serviceValidBody _ _ _
  | roleValid site =>
      simp only [body, query, roleValidBody, Query.roleValid]
      cases net.source site with
      | nothing | absent => rfl
      | _ => exact flatten_invoke _
  | roleData site =>
      simp only [body, query, roleDataBody, Query.roleData]
      cases net.rolePayload? site with
      | none => rfl
      | some payload =>
          cases net.source site with
          | nothing | absent => rfl
          | _ => exact flatten_invoke _
  | roleReady site =>
      simp only [body, query, roleReadyBody, Query.roleReady]
      cases net.sink site with
      | nothing | absent => rfl
      | _ => exact flatten_invoke _
  | requestValid client =>
      simp only [body, query, requestValidBody, Query.requestValid]
      cases (net.graph.moduleOf client.inst).services.get? client.serviceInstance with
      | none => exact flatten_ofQuery _
      | some held =>
          simp only
          cases net.bundle? client.inst held.bundle with
          | none => rfl
          | some bundle =>
              simp only
              cases Netlist.requestRole? bundle with
              | none => rfl
              | some role => exact flatten_invoke _

end Routine

namespace Routine

def rank : Routine → Nat
  | .settle _ => 0
  | .portValue _ _ | .serviceData _ _ _ _ | .serviceReady _ _ | .inReset _ => 1
  | .serviceValid _ _ _ => 2
  | .roleValid _ | .roleData _ | .roleReady _ => 3
  | .requestValid _ => 4

end Routine

namespace Procedure

def CallsBelow (bound : Nat) (procedure : Procedure α) : Prop :=
  ∀ callee, procedure.Calls callee → callee.rank < bound

variable {bound : Nat}

theorem callsBelow_pure (value : α) : (pure value : Procedure α).CallsBelow bound :=
  fun _ => False.elim

theorem callsBelow_fail (error : SimError) : (fail error : Procedure α).CallsBelow bound :=
  fun _ => False.elim

theorem callsBelow_invoke {routine : Routine} (below : routine.rank < bound) :
    (invoke routine).CallsBelow bound := by
  intro callee calls
  rcases calls with rfl | ⟨outcome, calls⟩
  · exact below
  · exact calls.elim

theorem callsBelow_ofQuery (query : Query α) (positive : 0 < bound) :
    (ofQuery query).CallsBelow bound := by
  intro callee calls
  induction query with
  | answer value => exact calls.elim
  | fail error => exact calls.elim
  | ask signal next induction =>
      rcases calls with rfl | ⟨outcome, calls⟩
      · exact positive
      · exact induction outcome calls

theorem callsBelow_bind {procedure : Procedure α} {next : α → Procedure β}
    (first : procedure.CallsBelow bound) (rest : ∀ value, (next value).CallsBelow bound) :
    (procedure >>= next).CallsBelow bound := by
  induction procedure with
  | answer value => exact rest value
  | fail error => exact callsBelow_fail error
  | call routine inner induction =>
      intro callee calls
      rcases calls with rfl | ⟨outcome, calls⟩
      · exact first _ (.inl rfl)
      · exact induction outcome (fun callee calls => first callee (.inr ⟨outcome, calls⟩))
          callee calls

end Procedure

namespace Routine

open Procedure

theorem callsBelow_serviceValidBody (inst : InstanceId) (serviceInstance : ServiceInstanceId)
    (role : Nat) : (serviceValidBody net state inst serviceInstance role).CallsBelow 2 := by
  refine callsBelow_bind (callsBelow_ofQuery _ Nat.two_pos) fun endpoint => ?_
  cases endpoint with
  | host host => exact callsBelow_bind (callsBelow_ofQuery _ Nat.two_pos) fun _ =>
      callsBelow_pure _
  | memory memory port client =>
      refine callsBelow_bind (callsBelow_invoke (by simp [rank])) fun high => ?_
      cases high
      · exact callsBelow_bind (callsBelow_ofQuery _ Nat.two_pos) fun _ => callsBelow_pure _
      · exact callsBelow_pure _

theorem callsBelow_body {routine : Routine} (unmarked : ¬ routine.IsMarked) :
    (routine.body net state).CallsBelow routine.rank := by
  cases routine with
  | settle signal => exact absurd trivial unmarked
  | portValue | serviceData | serviceReady | inReset => exact callsBelow_ofQuery _ Nat.one_pos
  | serviceValid inst serviceInstance role => exact callsBelow_serviceValidBody _ _ _
  | roleValid site =>
      simp only [body, roleValidBody]
      cases net.source site with
      | nothing => exact callsBelow_pure _
      | absent => exact callsBelow_fail _
      | _ => exact callsBelow_invoke (by simp [rank])
  | roleData site =>
      simp only [body, roleDataBody]
      cases net.rolePayload? site with
      | none => exact callsBelow_fail _
      | some payload =>
          cases net.source site with
          | nothing => exact callsBelow_pure _
          | absent => exact callsBelow_fail _
          | _ => exact callsBelow_invoke (by simp [rank])
  | roleReady site =>
      simp only [body, roleReadyBody]
      cases net.sink site with
      | nothing => exact callsBelow_pure _
      | absent => exact callsBelow_fail _
      | _ => exact callsBelow_invoke (by simp [rank])
  | requestValid client =>
      simp only [body, requestValidBody]
      split
      · exact callsBelow_ofQuery _ (by simp [rank])
      · split
        · exact callsBelow_ofQuery _ (by simp [rank])
        · split
          · exact callsBelow_invoke (by simp [rank])
          · exact callsBelow_fail _

theorem rank_lt_of_calls {routine callee : Routine} (unmarked : ¬ routine.IsMarked)
    (calls : routine.Calls net state callee) : callee.rank < routine.rank :=
  callsBelow_body unmarked callee calls

theorem rank_lt_of_chain {routine last : Routine} {path : List Routine}
    (chain : (routine :: path ++ [last]).IsChain (Calls net state))
    (unmarked : ∀ held ∈ routine :: path, ¬ held.IsMarked) : last.rank < routine.rank := by
  induction path generalizing routine with
  | nil => exact rank_lt_of_calls (unmarked _ (by simp)) (by simpa using chain)
  | cons next rest induction =>
      simp only [List.cons_append, List.isChain_cons_cons] at chain induction
      have first := rank_lt_of_calls (unmarked routine (by simp)) chain.1
      have others := induction chain.2 fun held member => unmarked held (by simp [member])
      omega

/-- Routines that call one another in a cycle have a signal among them. -/
theorem exists_signal_of_cycle {routine : Routine} {path : List Routine}
    (cycle : (routine :: path ++ [routine]).IsChain (Calls net state)) :
    ∃ signal, Routine.settle signal ∈ routine :: path := by
  by_contra none
  have unmarked : ∀ held ∈ routine :: path, ¬ held.IsMarked := by
    intro held member marked
    cases held with
    | settle signal => exact none ⟨signal, member⟩
    | _ => exact marked
  exact absurd (rank_lt_of_chain cycle unmarked) (Nat.lt_irrefl _)

end Routine

end Elastic
