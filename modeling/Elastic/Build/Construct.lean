import Elastic.Build.Builder

namespace Elastic.Construction

/-! The operations of a construction. Every operation checks its arguments in a fixed order before
it declares anything, and the first fault found is the one reported. -/

def moduleName : Construction String := return (← get).name

def internTy (ty : Ty) : Construction TyId :=
  modifyGet fun builder =>
    let (id, types) := builder.shared.types.intern ty
    (id, { builder with shared := { builder.shared with types := types } })

def internName (text : String) : Construction Ident :=
  modifyGet fun builder =>
    let (ident, names) := builder.shared.names.intern text
    (ident, { builder with shared := { builder.shared with names := names } })

def tyText (id : TyId) : Construction String := return ((← get).shared.types.get id).text

def modifyModule (change : Module → Module) : Construction Unit :=
  modify fun builder => { builder with module := change builder.module }

def addExpr (expr : Expr) (ty : TyId) : Construction Value :=
  modifyGet fun builder =>
    let id := builder.module.exprs.nextId
    (⟨id, ty⟩, { builder with module :=
      { builder.module with exprs := builder.module.exprs.push expr } })

def addChannel (channel : Channel) : Construction ChannelHandle :=
  modifyGet fun builder =>
    let id := builder.module.channels.nextId
    (⟨id, channel.payload, builder.scope⟩, { builder with module :=
      { builder.module with channels := builder.module.channels.push channel } })

def addBundle (bundle : Bundle) : Construction BundleHandle :=
  modifyGet fun builder =>
    let id := builder.module.bundles.nextId
    (⟨id, bundle.ty, builder.scope⟩, { builder with module :=
      { builder.module with bundles := builder.module.bundles.push bundle } })

def addService (held : ServiceInstance) : Construction ServiceInstanceId :=
  modifyGet fun builder =>
    (builder.module.services.nextId, { builder with module :=
      { builder.module with services := builder.module.services.push held } })

def setBundle (id : BundleId) (bundle : Bundle) : Construction Unit :=
  modifyModule fun module => { module with bundles := module.bundles.set id bundle }

def mismatch (context expected found : String) : Construction α := do
  throw (.typeMismatch (← moduleName) context expected found)

def fieldFault (ty : Ty) (field problem : String) : Construction α := do
  throw (.fieldMismatch (← moduleName) ty.text field problem)

def expectTy (value : Value) (expected : TyId) (context : String) : Construction Unit := do
  if value.ty ≠ expected then mismatch context (← tyText expected) (← tyText value.ty)

def checkScope (scope : Nat) (what : String) : Construction Unit := do
  let builder ← get
  if scope ≠ builder.scope then throw (.foreignHandle builder.name what)

/-- Reserves an identifier in the module. A reservation stays even if the operation that made it
fails later. -/
def reserve (appId : AppId) : Construction Unit := do
  let builder ← get
  if !appId.isWellFormed then throw (.invalidAppId builder.name appId.text)
  if builder.appIds.contains appId then throw (.duplicateAppId builder.name appId.text)
  set { builder with appIds := appId :: builder.appIds }

def serviceIndex (setting : Setting) (service : Service) : Construction Nat := do
  match setting.library.service? service.name with
  | none => throw (.unknownService service.name)
  | some (index, registered) =>
    if registered = service then return index
    else throw (.invalidServiceUse (← moduleName) service.name
      "it differs from the declaration registered in the library")

def operationIndex (service : Service) (operation : String) : Construction Nat :=
  match service.operationIndex? operation with
  | some index => return index
  | none => throw (.unknownOperation service.name operation)

def operationBundle (service : Service) (index : Nat) : BundleTy :=
  (service.operations[index]?.map (·.bundle)).getD []

def checkHost (setting : Setting) (service : Service) : Construction Unit := do
  if service.provider = .host ∧ !setting.capabilities.hostChannels then
    throw (.hostChannelsUnsupported setting.preset.text (← moduleName) service.name)

def port (name : String) : Construction Value := do
  let builder ← get
  match (builder.shared.names.find? name).bind builder.module.portIndex? with
  | none => throw (.unknownPort builder.name name)
  | some index =>
    let ty := (builder.module.ports[index]?.map (·.ty)).getD 0
    addExpr (.port index) ty

def constant (ty : Ty) (value : UInt64) : Construction Value := do
  match ty with
  | .bits width =>
    if !fitsWidth width value then
      throw (.constantOutOfRange (← moduleName) value ty.text)
    addExpr (.const value) (← internTy ty)
  | _ => mismatch "constant" "bits" ty.text

def bool (value : Bool) : Construction Value := do
  addExpr (.const (if value then 1 else 0)) (← internTy .bit)

def fillSlots (ty : Ty) :
    List (String × Value) → List (Option Value) → Construction (List (Option Value))
  | [], slots => return slots
  | (name, value) :: rest, slots => do
    match ty.field? name with
    | none => fieldFault ty name "unknown"
    | some (index, fieldTy) =>
      if ((slots[index]?).join).isSome then fieldFault ty name "given twice"
      expectTy value (← internTy fieldTy) ("field '" ++ name ++ "'")
      fillSlots ty rest (slots.set index (some value))

def collectSlots (ty : Ty) :
    List (Option Value) → List (String × Ty) → Construction (List ExprId)
  | some value :: slots, _ :: fields => do
    return value.expr :: (← collectSlots ty slots fields)
  | none :: _, (name, _) :: _ => fieldFault ty name "missing"
  | _, _ => return []

def struct (ty : Ty) (fields : List (String × Value)) : Construction Value := do
  match ty with
  | .struct decls =>
    let slots ← fillSlots ty fields (List.replicate decls.length none)
    let exprs ← collectSlots ty slots decls
    addExpr (.struct exprs) (← internTy ty)
  | _ => mismatch "struct literal" "struct" ty.text

def field (value : Value) (name : String) : Construction Value := do
  let ty := (← get).shared.types.get value.ty
  match ty with
  | .struct _ =>
    match ty.field? name with
    | none => fieldFault ty name "unknown"
    | some (index, fieldTy) => addExpr (.field value.expr index) (← internTy fieldTy)
  | _ => mismatch ("field '" ++ name ++ "'") "struct" ty.text

def and (first second : Value) : Construction Value := do
  let bit ← internTy .bit
  expectTy first bit "and"
  expectTy second bit "and"
  addExpr (.and first.expr second.expr) bit

def or (first second : Value) : Construction Value := do
  let bit ← internTy .bit
  expectTy first bit "or"
  expectTy second bit "or"
  addExpr (.or first.expr second.expr) bit

def not (operand : Value) : Construction Value := do
  let bit ← internTy .bit
  expectTy operand bit "not"
  addExpr (.not operand.expr) bit

def wrap (payload : Ty) (value valid : Value) : Construction (ChannelHandle × Value) := do
  if !payload.isPayload then mismatch "channel payload" "bits or struct" payload.text
  let ty ← internTy payload
  expectTy value ty "wrapped value"
  let bit ← internTy .bit
  expectTy valid bit "valid"
  let channel ← addChannel ⟨ty, .wrapped value.expr valid.expr, .unbound⟩
  let ready ← addExpr (.channelReady channel.id) bit
  return (channel, ready)

def bind (channel : ChannelHandle) (consumer : Consumer) : Construction Unit := do
  let builder ← get
  if builder.module.isOpen channel.id then
    modifyModule fun module => module.consume channel.id consumer
  else throw (.channelRebound builder.name)

def unwrap (channel : ChannelHandle) (ready : Value) : Construction (Value × Value) := do
  checkScope channel.scope "channel"
  let bit ← internTy .bit
  expectTy ready bit "ready"
  bind channel (.unwrapped ready.expr)
  let data ← addExpr (.channelData channel.id) channel.payload
  let valid ← addExpr (.channelValid channel.id) bit
  return (data, valid)

def roleSlots : BundleTy → Construction (List RoleSlot)
  | [] => return []
  | role :: rest => do
    let name ← internName role.name
    let payload ← internTy role.payload
    return ⟨name, role.flow, payload, none, none⟩ :: (← roleSlots rest)

def wrongFlowReason : Flow → String
  | .toService => "it flows from the service and is returned by pack"
  | .fromService => "it flows to the service and is returned by unpack"

def matchRole (ty : BundleTy) (flow : Flow) (taken : List Nat) (name : String)
    (channel : ChannelHandle) : Construction Nat := do
  checkScope channel.scope "channel"
  let module ← moduleName
  match BundleTy.role? name ty with
  | none => throw (.unexpectedRole module name ("not a role of " ++ BundleTy.text ty))
  | some (index, role) =>
    if role.flow ≠ flow then throw (.unexpectedRole module name (wrongFlowReason flow))
    if taken.contains index then throw (.duplicateRole module name)
    let expected ← internTy role.payload
    if channel.payload ≠ expected then
      throw (.roleTypeMismatch module ("role '" ++ name ++ "'")
        (← tyText expected) (← tyText channel.payload))
    if !(← get).module.isOpen channel.id then throw (.channelRebound module)
    return index

def matchEach (ty : BundleTy) (flow : Flow) :
    List (String × ChannelHandle) → List Nat → Construction (List Nat)
  | [], taken => return taken
  | (name, channel) :: rest, taken => do
    let index ← matchRole ty flow taken name channel
    matchEach ty flow rest (taken ++ [index])

/-- The positions of the roles that channels are supplied for. Each role of the flow has to be
supplied once, with a channel of its payload. -/
def matchRoles (ty : BundleTy) (flow : Flow) (channels : List (String × ChannelHandle)) :
    Construction (List Nat) := do
  let positions ← matchEach ty flow channels []
  match (BundleTy.rolesIn ty flow).find? fun role => !channels.any (·.1 = role.name) with
  | some role => throw (.missingRole (← moduleName) role.name)
  | none => return positions

def attach (side : ServiceSide) (channel : ChannelId) (slot : RoleSlot) : RoleSlot :=
  match side with
  | .client => { slot with client := some channel }
  | .server => { slot with server := some channel }

def bindRoles (bundle : BundleId) (side : ServiceSide) :
    List (ChannelHandle × Nat) → List RoleSlot → Construction (List RoleSlot)
  | [], slots => return slots
  | (channel, role) :: rest, slots => do
    bind channel (.bundle bundle role)
    bindRoles bundle side rest (slots.modify role (attach side channel.id))

def openRoles (bundle : BundleId) (flow : Flow) (side : ServiceSide) :
    BundleTy → Nat → List RoleSlot →
      Construction (List (String × ChannelHandle) × List RoleSlot)
  | [], _, slots => return ([], slots)
  | role :: rest, position, slots => do
    if role.flow = flow then
      let payload := (slots[position]?.map (·.payload)).getD 0
      let channel ← addChannel ⟨payload, .bundle bundle position, .unbound⟩
      let slots := slots.modify position (attach side channel.id)
      let (opened, slots) ← openRoles bundle flow side rest (position + 1) slots
      return ((role.name, channel) :: opened, slots)
    else openRoles bundle flow side rest (position + 1) slots

/-- Packs the client's request channels into a new bundle; gives the channels that come back from
the service. -/
def pack (ty : BundleTy) (channels : List (String × ChannelHandle)) :
    Construction (BundleHandle × RoleChannels) := do
  let positions ← matchRoles ty .toService channels
  let bundleTy ← internTy (.bundle ty)
  let bundle := (← get).module.bundles.nextId
  let slots ← roleSlots ty
  let slots ← bindRoles bundle .client ((channels.map (·.2)).zip positions) slots
  let (opened, slots) ← openRoles bundle .fromService .client ty 0 slots
  let handle ← addBundle ⟨bundleTy, slots, .local, .unbound⟩
  return (handle, ⟨← moduleName, opened⟩)

def unservedBundle (handle : BundleHandle) : Construction Bundle := do
  let builder ← get
  match builder.module.bundles.get? handle.id with
  | none => throw (.internal "bundle handle without bundle")
  | some bundle =>
    if bundle.server.isBound then throw (.bundleRebound builder.name "server")
    else return bundle

/-- Serves a bundle in the module itself; gives the client's request channels. -/
def unpack (handle : BundleHandle) (channels : List (String × ChannelHandle)) :
    Construction RoleChannels := do
  checkScope handle.scope "bundle"
  let _ ← unservedBundle handle
  match (← get).shared.types.get handle.ty with
  | .bundle ty =>
    let positions ← matchRoles ty .fromService channels
    let bundle ← unservedBundle handle
    setBundle handle.id { bundle with roles := [] }
    let slots ← bindRoles handle.id .server ((channels.map (·.2)).zip positions) bundle.roles
    let (opened, slots) ← openRoles handle.id .toService .server ty 0 slots
    setBundle handle.id { bundle with roles := slots, server := .local }
    return ⟨← moduleName, opened⟩
  | _ => throw (.internal "bundle handle without bundle type")

def call (setting : Setting) (service : Service) (operation : String) (handle : BundleHandle)
    (appId : AppId) : Construction Unit := do
  checkScope handle.scope "bundle"
  let serviceAt ← serviceIndex setting service
  let operationAt ← operationIndex service operation
  checkHost setting service
  let bundle ← unservedBundle handle
  let expected ← internTy (.bundle (operationBundle service operationAt))
  if expected ≠ handle.ty then
    throw (.roleTypeMismatch (← moduleName)
      ("operation '" ++ service.name ++ "." ++ operation ++ "'")
      (← tyText expected) (← tyText handle.ty))
  reserve appId
  let held ← addService ⟨appId, serviceAt, operationAt, handle.id, .server⟩
  setBundle handle.id { bundle with server := .service held }

/-- A bundle whose client is the host. -/
def request (setting : Setting) (service : Service) (operation : String) (appId : AppId) :
    Construction BundleHandle := do
  let serviceAt ← serviceIndex setting service
  let operationAt ← operationIndex service operation
  if service.provider ≠ .host then
    throw (.invalidServiceUse (← moduleName) service.name
      "only host services originate bundles; use call")
  checkHost setting service
  reserve appId
  let ty := operationBundle service operationAt
  let bundleTy ← internTy (.bundle ty)
  let slots ← roleSlots ty
  let bundle := (← get).module.bundles.nextId
  let held ← addService ⟨appId, serviceAt, operationAt, bundle, .client⟩
  addBundle ⟨bundleTy, slots, .service held, .unbound⟩

def internTys : List Ty → Construction (List TyId)
  | [] => return []
  | ty :: rest => do
    let id ← internTy ty
    return id :: (← internTys rest)

def addResults (builtin : Nat) : List TyId → Nat → Construction (List Value)
  | [], _ => return []
  | ty :: rest, position => do
    let value ← addExpr (.builtinResult builtin position) ty
    return value :: (← addResults builtin rest (position + 1))

def builtin (setting : Setting) (service : Service) (appId : AppId) (tag : String)
    (results : List Ty) (inputs : List Value) : Construction (List Value) := do
  let serviceAt ← serviceIndex setting service
  let module ← moduleName
  if service.provider ≠ .builtin then
    throw (.invalidServiceUse module service.name
      "host services have no builtin realization")
  if !setting.capabilities.supports tag then
    throw (.unsupportedBuiltin setting.preset.text module tag)
  reserve appId
  let position := (← get).module.builtins.length
  let tys ← internTys results
  let ident ← internName tag
  modifyModule fun held =>
    { held with builtins :=
      held.builtins ++ [⟨appId, serviceAt, ident, tys, inputs.map (·.expr)⟩] }
  addResults position tys 0

def connectionFault (child port problem : String) : Construction α := do
  throw (.portConnection (← moduleName) child port problem)

def checkConnections (child : String) (ports : List Port) :
    List (String × Value) → Construction Unit
  | [] => return
  | (name, _) :: rest => do
    let known := match (← get).shared.names.find? name with
      | none => false
      | some ident => ports.any (·.name = ident)
    if !known then throw (.unknownPort child name)
    checkConnections child ports rest

def wirePorts (child : String) (connections : List (String × Value)) :
    List Port → Construction (List ExprId)
  | [] => return []
  | port :: rest => do
    let name := (← get).shared.names.text port.name
    match connections.filter (·.1 = name) with
    | [] => connectionFault child name "not connected"
    | [(_, value)] =>
      if value.ty ≠ port.ty then
        throw (.portTypeMismatch (← moduleName) child name
          (← tyText port.ty) (← tyText value.ty))
      return value.expr :: (← wirePorts child connections rest)
    | _ => connectionFault child name "connected twice"

def onShared (action : ExceptT BuildError (StateM Elaboration) α) : Construction α := fun builder =>
  let (outcome, shared) := action builder.shared
  (outcome, { builder with shared := shared })

def instantiate (elaborate : String → ExceptT BuildError (StateM Elaboration) ModuleId)
    (child : String) (appId : AppId) (connections : List (String × Value)) :
    Construction Unit := do
  reserve appId
  let id ← onShared (elaborate child)
  let ports := (((← get).shared.modules.get? id).map (·.ports)).getD []
  checkConnections child ports connections
  let wired ← wirePorts child connections ports
  modifyModule fun module =>
    { module with children := module.children ++ [⟨appId, id, wired⟩] }

end Elastic.Construction
