import Elastic.Proofs.Build.Links

namespace Elastic

/-! What it is for a module to be wired: every number in it stands for something, channels and role
slots name one another, and the ends of bundles and the service instances do. -/

def Bundle.at (bundle : Bundle) : ServiceSide → BundleEnd
  | .client => bundle.client
  | .server => bundle.server

namespace Expr

def operands : Expr → List ExprId
  | .struct fields => fields
  | .field base _ => [base]
  | .and first second | .or first second => [first, second]
  | .not operand => [operand]
  | _ => []

def Within (module : Module) : Expr → Prop
  | .port index => index < module.ports.length
  | .channelData channel | .channelValid channel | .channelReady channel =>
    channel < module.channels.size
  | .builtinResult builtin index =>
    ∃ held, module.builtins[builtin]? = some held ∧ index < held.results.length
  | _ => True

end Expr

def Channel.operands (channel : Channel) : List ExprId :=
  (match channel.producer with
    | .wrapped data valid => [data, valid]
    | .bundle _ _ => []) ++
  match channel.consumer with
    | .unwrapped ready => [ready]
    | .unbound | .bundle _ _ => []

structure SlotsOf (types : TyPool) (ty : BundleTy) (slots : List RoleSlot) : Prop where
  length : slots.length = ty.length
  role : ∀ (index : Nat) (slot : RoleSlot), slots[index]? = some slot →
    ∃ role : Role, ty[index]? = some role ∧ slot.flow = role.flow ∧
      types.find? role.payload = some slot.payload

theorem SlotsOf.slot {types : TyPool} {ty : BundleTy} {slots : List RoleSlot}
    (slotsOf : SlotsOf types ty slots) {index : Nat} {role : Role} (held : ty[index]? = some role) :
    ∃ slot, slots[index]? = some slot ∧ slot.flow = role.flow ∧
      types.find? role.payload = some slot.payload := by
  have bound : index < slots.length := by
    rw [slotsOf.length]
    exact (List.getElem?_eq_some_iff.1 held).1
  have present := List.getElem?_eq_getElem bound
  obtain ⟨same, known, flow, payload⟩ := slotsOf.role index _ present
  rw [held] at known
  cases known
  exact ⟨_, present, flow, payload⟩

def Bundle.Typed (types : TyPool) (bundle : Bundle) : Prop :=
  ∃ ty, types.get? bundle.ty = some (.bundle ty) ∧ SlotsOf types ty bundle.roles

theorem Bundle.Typed.of_get {types : TyPool} {bundle : Bundle} {ty : BundleTy}
    (typed : bundle.Typed types) (named : types.get bundle.ty = .bundle ty) :
    types.get? bundle.ty = some (.bundle ty) ∧ SlotsOf types ty bundle.roles := by
  obtain ⟨ty', known, slots⟩ := typed
  rw [TyPool.get, known] at named
  cases named
  exact ⟨known, slots⟩

/-- A service instance names an operation of a known service by the operation's first position, and
a bundle of the operation's type. Only services of the host take the client's side. -/
def ServiceInstance.Declared (services : List Service) (types : TyPool) (bundles : Arena Bundle)
    (held : ServiceInstance) : Prop :=
  ∃ service operation bundle, services[held.service]? = some service ∧
    service.operations[held.operation]? = some operation ∧
    service.operationIndex? operation.name = some held.operation ∧
    bundles.get? held.bundle = some bundle ∧
    types.get? bundle.ty = some (.bundle operation.bundle) ∧
    (held.side = .client → service.provider = .host)

/-- The service of a builtin exists and is realized by builtins, and so do its results' types. -/
def Builtin.Declared (services : List Service) (types : TyPool) (held : Builtin) : Prop :=
  (∃ service, services[held.service]? = some service ∧ service.provider = .builtin) ∧
    ∀ ty ∈ held.results, ty < types.size

namespace Module

/-- Every expression is computed from earlier ones, and everything else from existing ones. -/
structure Ordered (module : Module) : Prop where
  exprs : ∀ id expr, module.exprs.get? id = some expr → ∀ operand ∈ expr.operands, operand < id
  channels : ∀ id channel, module.channels.get? id = some channel →
    ∀ operand ∈ channel.operands, operand < module.exprs.size
  builtins : ∀ held ∈ module.builtins, ∀ input ∈ held.inputs, input < module.exprs.size
  children : ∀ child ∈ module.children, ∀ input ∈ child.connections, input < module.exprs.size

/-- The parts of a module name existing parts, services, types, and modules before `limit`. -/
structure Placed (services : List Service) (types : TyPool) (limit : ModuleId)
    (module : Module) : Prop where
  ports : ∀ port ∈ module.ports, port.ty < types.size
  exprs : ∀ id expr, module.exprs.get? id = some expr → expr.Within module
  channels : ∀ id channel, module.channels.get? id = some channel → channel.payload < types.size
  bundles : ∀ id bundle, module.bundles.get? id = some bundle → bundle.Typed types
  instances : ∀ id held, module.services.get? id = some held →
    held.Declared services types module.bundles
  builtins : ∀ held ∈ module.builtins, held.Declared services types
  children : ∀ child ∈ module.children, child.module < limit

/-- The ends of bundles and the service instances name one another, and channels stand only at the
sides that the module keeps for itself. -/
structure Served (module : Module) : Prop where
  ends : ∀ id bundle side serviceInstance, module.bundles.get? id = some bundle →
    (bundle.at side = .service serviceInstance ↔
      ∃ held, module.services.get? serviceInstance = some held ∧ held.bundle = id ∧
        held.side = side)
  filled : ∀ id bundle (role : Nat) (slot : RoleSlot) side, module.bundles.get? id = some bundle →
    bundle.roles[role]? = some slot → (slot.at? side).isSome → bundle.at side = .local

theorem Served.vacant {module : Module} (served : module.Served) {id : BundleId} {bundle : Bundle}
    {side : ServiceSide} (held : module.bundles.get? id = some bundle)
    (unbound : bundle.at side = .unbound) {slot : RoleSlot} (member : slot ∈ bundle.roles) :
    slot.at? side = none := by
  obtain ⟨role, inside⟩ := List.mem_iff_getElem?.1 member
  cases filled : slot.at? side with
  | none => rfl
  | some channel =>
      have kept := served.filled id bundle role slot side held inside (by rw [filled]; rfl)
      rw [unbound] at kept
      cases kept

/-- A module is wired. Its operands are in order if its values are its own. -/
structure Wired (own : Prop) (services : List Service) (types : TyPool) (limit : ModuleId)
    (module : Module) : Prop where
  placed : module.Placed services types limit
  linked : Linked module.channels module.bundles.slot?
  served : module.Served
  ordered : own → module.Ordered

end Module

theorem SlotsOf.grow {before after : TyPool} {ty : BundleTy} {slots : List RoleSlot}
    (grows : before.Grows after) (typed : SlotsOf before ty slots) : SlotsOf after ty slots := by
  refine ⟨typed.length, ?_⟩
  intro index slot held
  obtain ⟨role, known, flow, payload⟩ := typed.role index slot held
  exact ⟨role, known, flow, grows.find? payload⟩

theorem Bundle.Typed.grow {before after : TyPool} {bundle : Bundle}
    (grows : before.Grows after) (typed : bundle.Typed before) : bundle.Typed after := by
  obtain ⟨ty, known, slots⟩ := typed
  exact ⟨ty, grows.get? known, slots.grow grows⟩

theorem ServiceInstance.Declared.grow {services : List Service} {before after : TyPool}
    {bundles : Arena Bundle} {held : ServiceInstance} (grows : before.Grows after)
    (declared : held.Declared services before bundles) : held.Declared services after bundles := by
  obtain ⟨service, operation, bundle, known, inside, first, present, typed, side⟩ := declared
  exact ⟨service, operation, bundle, known, inside, first, present, grows.get? typed, side⟩

namespace Module

variable {own : Prop} {services : List Service} {before after : TyPool} {limit : ModuleId}
  {module : Module}

theorem Placed.grow {limit' : ModuleId} (placed : module.Placed services before limit)
    (grows : before.Grows after) (later : limit ≤ limit') :
    module.Placed services after limit' where
  ports port member := Nat.lt_of_lt_of_le (placed.ports port member) grows.size_le
  exprs := placed.exprs
  channels id channel held := Nat.lt_of_lt_of_le (placed.channels id channel held) grows.size_le
  bundles id bundle held := (placed.bundles id bundle held).grow grows
  instances id held known := (placed.instances id held known).grow grows
  builtins held member :=
    ⟨(placed.builtins held member).1, fun ty inside =>
      Nat.lt_of_lt_of_le ((placed.builtins held member).2 ty inside) grows.size_le⟩
  children child member := Nat.lt_of_lt_of_le (placed.children child member) later

theorem Wired.grow {limit' : ModuleId} (wired : module.Wired own services before limit)
    (grows : before.Grows after) (later : limit ≤ limit') :
    module.Wired own services after limit' :=
  ⟨wired.placed.grow grows later, wired.linked, wired.served, wired.ordered⟩

end Module

end Elastic
