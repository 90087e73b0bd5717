import Elastic.Sim.Netlist

namespace Elastic

/-! The equations of one cycle. Each signal is given by a query: a tree that asks for other signals
and goes on with what they settle to. -/

inductive Signal
  | expr (inst : InstanceId) (id : ExprId)
  | valid (inst : InstanceId) (channel : ChannelId)
  | data (inst : InstanceId) (channel : ChannelId)
  | ready (inst : InstanceId) (channel : ChannelId)
  | grant (memory : Nat) (port : MemoryPort)
deriving DecidableEq, Repr, Inhabited

namespace Signal

/-- What a signal settles to. A grant is the client served, if any. -/
abbrev Outcome : Signal → Type
  | .expr _ _ => SimValue
  | .valid _ _ => Bool
  | .data _ _ => SimValue
  | .ready _ _ => Bool
  | .grant _ _ => Option Nat

instance decidableEqOutcome : (signal : Signal) → DecidableEq signal.Outcome
  | .expr _ _ => inferInstanceAs (DecidableEq SimValue)
  | .valid _ _ => inferInstanceAs (DecidableEq Bool)
  | .data _ _ => inferInstanceAs (DecidableEq SimValue)
  | .ready _ _ => inferInstanceAs (DecidableEq Bool)
  | .grant _ _ => inferInstanceAs (DecidableEq (Option Nat))

def loopError (net : Netlist) (state : SimState) : Signal → SimError
  | .expr inst id =>
    .combinationalLoop (net.pathText inst) ("expression #" ++ toString id)
  | .valid inst channel =>
    .combinationalLoop (net.pathText inst) ("valid of channel #" ++ toString channel)
  | .data inst channel =>
    .combinationalLoop (net.pathText inst) ("data of channel #" ++ toString channel)
  | .ready inst channel =>
    .combinationalLoop (net.pathText inst) ("ready of channel #" ++ toString channel)
  | .grant memory port =>
    .combinationalLoop (((state.memories[memory]?).map (·.path)).getD "")
      (port.text ++ " port arbitration")

end Signal

/-- A computation that asks for signals. -/
inductive Query (α : Type) : Type
  | answer (value : α)
  | fail (error : SimError)
  | ask (signal : Signal) (next : signal.Outcome → Query α)

namespace Query

protected def bind : Query α → (α → Query β) → Query β
  | .answer value, next => next value
  | .fail error, _ => .fail error
  | .ask signal rest, next => .ask signal fun outcome => (rest outcome).bind next

instance : Monad Query where
  pure := .answer
  bind := Query.bind

def demand (signal : Signal) : Query signal.Outcome := .ask signal .answer

def expr (inst : InstanceId) (id : ExprId) : Query SimValue := demand (.expr inst id)

def valid (inst : InstanceId) (channel : ChannelId) : Query Bool := demand (.valid inst channel)

def data (inst : InstanceId) (channel : ChannelId) : Query SimValue :=
  demand (.data inst channel)

def ready (inst : InstanceId) (channel : ChannelId) : Query Bool := demand (.ready inst channel)

def grant (memory : Nat) (port : MemoryPort) : Query (Option Nat) := demand (.grant memory port)

def ofExcept : Except SimError α → Query α
  | .ok value => .answer value
  | .error error => .fail error

def missing (what : String) : Query α := .fail (.internal ("no such " ++ what))

def exprs (inst : InstanceId) : List ExprId → Query (List SimValue)
  | [] => return []
  | id :: rest => do
    let first ← expr inst id
    return first :: (← exprs inst rest)

def inReset (state : SimState) (memory : Nat) : Query Bool :=
  match state.memories[memory]? with
  | none => missing "memory"
  | some held =>
    match held.reset with
    | none => return false
    | some reset => return (← expr held.inst reset).isTrue

def pending (state : SimState) (ref : ClientRef) : Query (Option SimValue) :=
  match state.client? ref with
  | none => missing "memory client"
  | some held => return held.pending

def outbound (state : SimState) (host role : Nat) : Query (Option SimValue) :=
  match state.hostRole? host role with
  | none => missing "host role"
  | some held => return held.outbound.head?

/-- Whether a service offers a payload on a role: a memory a response outside reset, the host a
queued value. -/
def serviceValid (net : Netlist) (state : SimState) (inst : InstanceId)
    (serviceInstance : ServiceInstanceId) (role : Nat) : Query Bool := do
  match ← ofExcept (net.endpoint inst serviceInstance) with
  | .memory memory port client =>
    if ← inReset state memory then return false
    return (← pending state ⟨memory, port, client⟩).isSome
  | .host host => return (← outbound state host role).isSome

def serviceData (net : Netlist) (state : SimState) (inst : InstanceId)
    (serviceInstance : ServiceInstanceId) (role : Nat) (payload : Ty) : Query SimValue := do
  match ← ofExcept (net.endpoint inst serviceInstance) with
  | .memory memory port client =>
    return (← pending state ⟨memory, port, client⟩).getD (.zero payload)
  | .host host => return (← outbound state host role).getD (.zero payload)

def serviceReady (net : Netlist) (inst : InstanceId) (serviceInstance : ServiceInstanceId) :
    Query Bool := do
  match ← ofExcept (net.endpoint inst serviceInstance) with
  | .memory memory port client => return (← grant memory port) = some client
  | .host _ => return true

def roleValid (net : Netlist) (state : SimState) (site : RoleSite) : Query Bool :=
  match net.source site with
  | .channel channel => valid site.inst channel
  | .service serviceInstance => serviceValid net state site.inst serviceInstance site.role
  | .nothing => return false
  | .absent => missing "role"

def roleData (net : Netlist) (state : SimState) (site : RoleSite) : Query SimValue :=
  match net.rolePayload? site with
  | none => missing "role"
  | some payload =>
    match net.source site with
    | .channel channel => data site.inst channel
    | .service serviceInstance =>
      serviceData net state site.inst serviceInstance site.role payload
    | .nothing => return .zero payload
    | .absent => missing "role"

def roleReady (net : Netlist) (site : RoleSite) : Query Bool :=
  match net.sink site with
  | .channel channel => ready site.inst channel
  | .service serviceInstance => serviceReady net site.inst serviceInstance
  | .nothing => return true
  | .absent => missing "role"

def port (net : Netlist) (state : SimState) (inst : InstanceId) (index : Nat) :
    Query SimValue :=
  match net.parent? inst with
  | none =>
    match state.inputs[index]? with
    | some value => return value
    | none => .fail (.internal ("top-level input #" ++ toString index ++ " does not exist"))
  | some (parent, position) =>
    match (net.graph.moduleOf parent).children[position]? with
    | none => missing "child"
    | some child =>
      match child.connections[index]? with
      | some connection => expr parent connection
      | none => .fail (.internal
          ("port #" ++ toString index ++ " of " ++ net.pathText inst ++ " is not connected"))

/-- The equation of an expression. The second operand of a conjunction or a disjunction is asked
for only if the first leaves the result open. -/
def ofExpr (net : Netlist) (state : SimState) (inst : InstanceId) : Expr → Query SimValue
  | .const value => return .bits value
  | .port index => port net state inst index
  | .channelData channel => data inst channel
  | .channelValid channel => return .ofBool (← valid inst channel)
  | .channelReady channel => return .ofBool (← ready inst channel)
  | .struct fields => return .struct (← exprs inst fields)
  | .field base index => do
    let value ← expr inst base
    match value.field? index with
    | some part => return part
    | none => .fail (.internal
        ("field " ++ toString index ++ " of non-struct value " ++ value.text ++ " in " ++
          net.pathText inst))
  | .and first second => do
    if !(← expr inst first).isTrue then return .ofBool false
    return .ofBool (← expr inst second).isTrue
  | .or first second => do
    if (← expr inst first).isTrue then return .ofBool true
    return .ofBool (← expr inst second).isTrue
  | .not operand => return .ofBool (!(← expr inst operand).isTrue)
  | .builtinResult builtin index => .fail (.unsupported
      ("result " ++ toString index ++ " of builtin #" ++ toString builtin ++ " in " ++
        net.pathText inst))

def requestValid (net : Netlist) (state : SimState) (client : PortClient) : Query Bool :=
  match (net.graph.moduleOf client.inst).services.get? client.serviceInstance with
  | none => missing "service instance"
  | some held =>
    match net.bundle? client.inst held.bundle with
    | none => missing "bundle"
    | some bundle =>
      match Netlist.requestRole? bundle with
      | some role => roleValid net state ⟨client.inst, held.bundle, role⟩
      | none => .fail (.internal
          ("memory client in " ++ net.pathText client.inst ++ " has no request role"))

/-- Which clients request and have no response pending, in order. -/
def requests (net : Netlist) (state : SimState) : List PortClient → Query (List Bool)
  | [] => return []
  | client :: rest => do
    let requested ← if client.pending.isSome then pure false else requestValid net state client
    return requested :: (← requests net state rest)

def ofGrant (net : Netlist) (state : SimState) (memory : Nat) (port : MemoryPort) :
    Query (Option Nat) :=
  match state.memories[memory]? with
  | none => missing "memory"
  | some held => do
    if ← inReset state memory then return none
    return (held.port port).arbiter.select (← requests net state (held.port port).clients)

def withChannel (net : Netlist) (inst : InstanceId) (channel : ChannelId)
    (next : Channel → Query α) : Query α :=
  match (net.graph.moduleOf inst).channels.get? channel with
  | none => missing "channel"
  | some held => next held

def equation (net : Netlist) (state : SimState) : (signal : Signal) → Query signal.Outcome
  | .expr inst id =>
    match (net.graph.moduleOf inst).exprs.get? id with
    | none => missing "expression"
    | some held => ofExpr net state inst held
  | .valid inst channel =>
    withChannel net inst channel fun held =>
      match held.producer with
      | .wrapped _ valid => return (← expr inst valid).isTrue
      | .bundle bundle role => roleValid net state ⟨inst, bundle, role⟩
  | .data inst channel =>
    withChannel net inst channel fun held =>
      match held.producer with
      | .wrapped data _ => expr inst data
      | .bundle bundle role => roleData net state ⟨inst, bundle, role⟩
  | .ready inst channel =>
    withChannel net inst channel fun held =>
      match held.consumer with
      | .unbound => return true
      | .unwrapped ready => return (← expr inst ready).isTrue
      | .bundle bundle role => roleReady net ⟨inst, bundle, role⟩
  | .grant memory port => ofGrant net state memory port

end Query

end Elastic
