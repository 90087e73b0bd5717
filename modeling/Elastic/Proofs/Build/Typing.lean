import Elastic.Proofs.Build.Soundness
import Mathlib.Data.List.Forall2

namespace Elastic

/-! Types of expressions. A module keeps no types of its expressions; they are read off from the
constants, the ports and the channels that the expressions lead to. -/

theorem Ty.getElem?_of_field? {decls : List (String × Ty)} {name : String} {index : Nat} {ty : Ty}
    (found : Ty.field? (.struct decls) name = some (index, ty)) :
    ∃ key, decls[index]? = some (key, ty) := by
  change Ty.findField? name decls = some (index, ty) at found
  induction decls generalizing index with
  | nil => cases found
  | cons decl rest induction =>
      obtain ⟨key, held⟩ := decl
      unfold Ty.findField? at found
      split at found
      · cases found
        exact ⟨key, rfl⟩
      · obtain ⟨⟨before, same⟩, inner, equal⟩ := Option.map_eq_some_iff.1 found
        cases equal
        exact induction inner

namespace Module

inductive HasTy (types : TyPool) (module : Module) : ExprId → Ty → Prop
  | const {id : ExprId} {value : UInt64} {width : UInt32}
      (held : module.exprs.get? id = some (.const value))
      (fits : fitsWidth width value = true) : HasTy types module id (.bits width)
  | port {id : ExprId} {index : Nat} {port : Port} {ty : Ty}
      (held : module.exprs.get? id = some (.port index))
      (stands : module.ports[index]? = some port) (typed : types.get? port.ty = some ty) :
      HasTy types module id ty
  | data {id : ExprId} {channel : ChannelId} {carrier : Channel} {ty : Ty}
      (held : module.exprs.get? id = some (.channelData channel))
      (present : module.channels.get? channel = some carrier)
      (typed : types.get? carrier.payload = some ty) : HasTy types module id ty
  | valid {id : ExprId} {channel : ChannelId}
      (held : module.exprs.get? id = some (.channelValid channel)) : HasTy types module id .bit
  | ready {id : ExprId} {channel : ChannelId}
      (held : module.exprs.get? id = some (.channelReady channel)) : HasTy types module id .bit
  | struct {id : ExprId} {fields : List ExprId} {decls : List (String × Ty)}
      (held : module.exprs.get? id = some (.struct fields))
      (length : fields.length = decls.length)
      (typed : ∀ (index : Nat) operand decl, fields[index]? = some operand →
        decls[index]? = some decl → HasTy types module operand decl.2) :
      HasTy types module id (.struct decls)
  | field {id base : ExprId} {index : Nat} {decls : List (String × Ty)} {decl : String × Ty}
      (held : module.exprs.get? id = some (.field base index))
      (typed : HasTy types module base (.struct decls)) (known : decls[index]? = some decl) :
      HasTy types module id decl.2
  | and {id first second : ExprId} (held : module.exprs.get? id = some (.and first second))
      (one : HasTy types module first .bit) (other : HasTy types module second .bit) :
      HasTy types module id .bit
  | or {id first second : ExprId} (held : module.exprs.get? id = some (.or first second))
      (one : HasTy types module first .bit) (other : HasTy types module second .bit) :
      HasTy types module id .bit
  | not {id operand : ExprId} (held : module.exprs.get? id = some (.not operand))
      (typed : HasTy types module operand .bit) : HasTy types module id .bit
  | result {id : ExprId} {builtin index : Nat} {realized : Builtin} {result : TyId} {ty : Ty}
      (held : module.exprs.get? id = some (.builtinResult builtin index))
      (present : module.builtins[builtin]? = some realized)
      (named : realized.results[index]? = some result) (typed : types.get? result = some ty) :
      HasTy types module id ty

/-- A later state of a module, in which all that expressions lead to is still the same. -/
structure Extends (before after : Module) : Prop where
  ports : after.ports = before.ports
  exprs : before.exprs.Grows after.exprs
  channels : ChannelsKept before.channels after.channels
  builtins : ∀ (index : Nat) (held : Builtin), before.builtins[index]? = some held →
    after.builtins[index]? = some held

theorem Extends.refl (module : Module) : module.Extends module :=
  ⟨rfl, fun _ _ held => held, .refl _, fun _ _ held => held⟩

theorem Extends.trans {first second third : Module} (one : first.Extends second)
    (other : second.Extends third) : first.Extends third where
  ports := other.ports.trans one.ports
  exprs id expr held := other.exprs id expr (one.exprs id expr held)
  channels := one.channels.trans other.channels
  builtins index held known := other.builtins index held (one.builtins index held known)

variable {types later : TyPool} {modules : Arena Module} {before after module : Module}

theorem HasTy.grow {id : ExprId} {ty : Ty} (typed : before.HasTy types id ty)
    (grows : types.Grows later) (keeps : before.Extends after) : after.HasTy later id ty := by
  induction typed with
  | const held fits => exact .const (keeps.exprs _ _ held) fits
  | port held stands typed =>
      refine .port (keeps.exprs _ _ held) ?_ (grows.get? typed)
      rw [keeps.ports]
      exact stands
  | data held present typed =>
      obtain ⟨carrier, known, payload⟩ := keeps.channels _ _ present
      refine .data (keeps.exprs _ _ held) known ?_
      rw [payload]
      exact grows.get? typed
  | valid held => exact .valid (keeps.exprs _ _ held)
  | ready held => exact .ready (keeps.exprs _ _ held)
  | struct held length typed induction => exact .struct (keeps.exprs _ _ held) length induction
  | field held typed known induction => exact .field (keeps.exprs _ _ held) induction known
  | and held one other first second => exact .and (keeps.exprs _ _ held) first second
  | or held one other first second => exact .or (keeps.exprs _ _ held) first second
  | not held typed induction => exact .not (keeps.exprs _ _ held) induction
  | result held present named typed =>
      exact .result (keeps.exprs _ _ held) (keeps.builtins _ _ present) named (grows.get? typed)

def Feeds (types : TyPool) (module : Module) (connection : ExprId) (port : Port) : Prop :=
  ∃ ty, types.get? port.ty = some ty ∧ module.HasTy types connection ty

theorem Feeds.grow {connection : ExprId} {port : Port} (feeds : before.Feeds types connection port)
    (grows : types.Grows later) (keeps : before.Extends after) :
    after.Feeds later connection port := by
  obtain ⟨ty, known, typed⟩ := feeds
  exact ⟨ty, grows.get? known, typed.grow grows keeps⟩

end Module

structure Channel.Typed (types : TyPool) (module : Module) (channel : Channel) : Prop where
  driven : ∀ data valid, channel.producer = .wrapped data valid →
    (∃ ty, types.get? channel.payload = some ty ∧ module.HasTy types data ty) ∧
      module.HasTy types valid .bit
  taken : ∀ ready, channel.consumer = .unwrapped ready → module.HasTy types ready .bit

theorem Channel.Typed.grow {types later : TyPool} {before after : Module} {channel : Channel}
    (typed : channel.Typed types before) (grows : types.Grows later)
    (keeps : before.Extends after) : channel.Typed later after := by
  constructor
  · intro data valid wrapped
    obtain ⟨⟨ty, known, carried⟩, bit⟩ := typed.driven data valid wrapped
    exact ⟨⟨ty, grows.get? known, carried.grow grows keeps⟩, bit.grow grows keeps⟩
  · exact fun ready unwrapped => (typed.taken ready unwrapped).grow grows keeps

namespace Module

def Fits (types : TyPool) (modules : Arena Module) (module : Module) (child : Child) : Prop :=
  ∃ inner, modules.get? child.module = some inner ∧
    List.Forall₂ (module.Feeds types) child.connections inner.ports

/-- Every expression of a module has a type, and channels and children are given what they are
declared for. -/
structure Typed (types : TyPool) (modules : Arena Module) (module : Module) : Prop where
  exprs : ∀ id, id < module.exprs.size → ∃ ty, module.HasTy types id ty
  channels : ∀ id channel, module.channels.get? id = some channel → channel.Typed types module
  children : ∀ child ∈ module.children, module.Fits types modules child

variable {types later : TyPool} {modules modules' : Arena Module} {before after module : Module}

theorem Fits.grow {child : Child} (fits : before.Fits types modules child)
    (grows : types.Grows later) (more : modules.Grows modules') (keeps : before.Extends after) :
    after.Fits later modules' child := by
  obtain ⟨inner, known, feeds⟩ := fits
  exact ⟨inner, more _ _ known, feeds.imp fun _ _ feeds => feeds.grow grows keeps⟩

theorem Typed.grow (typed : module.Typed types modules) (grows : types.Grows later)
    (more : modules.Grows modules') : module.Typed later modules' where
  exprs id bound := (typed.exprs id bound).imp fun _ typed => typed.grow grows (.refl _)
  channels id channel held := (typed.channels id channel held).grow grows (.refl _)
  children child member := (typed.children child member).grow grows more (.refl _)

theorem extends_pushExpr (module : Module) (expr : Expr) :
    module.Extends { module with exprs := module.exprs.push expr } :=
  ⟨rfl, Arena.grows_push _ _, .refl _, fun _ _ held => held⟩

theorem Typed.extend (typed : before.Typed types modules) (keeps : before.Extends after)
    (exprs : ∀ id, id < after.exprs.size →
      id < before.exprs.size ∨ ∃ ty, after.HasTy types id ty)
    (channels : ∀ id channel, after.channels.get? id = some channel →
      before.channels.get? id = some channel ∨ channel.Typed types after)
    (children : ∀ child ∈ after.children,
      child ∈ before.children ∨ after.Fits types modules child) :
    after.Typed types modules where
  exprs id bound := by
    rcases exprs id bound with old | new
    · exact (typed.exprs id old).imp fun _ typed => typed.grow (.refl _) keeps
    · exact new
  channels id channel held := by
    rcases channels id channel held with old | new
    · exact (typed.channels id channel old).grow (.refl _) keeps
    · exact new
  children child member := by
    rcases children child member with old | new
    · exact (typed.children child old).grow (.refl _) (fun _ _ held => held) keeps
    · exact new

theorem Typed.pushExpr (typed : module.Typed types modules) {expr : Expr} {ty : Ty}
    (fits : HasTy types { module with exprs := module.exprs.push expr } module.exprs.size ty) :
    Typed types modules { module with exprs := module.exprs.push expr } := by
  refine typed.extend (module.extends_pushExpr expr) (fun id bound => ?_)
    (fun _ _ held => .inl held) fun _ member => .inl member
  rw [Arena.size_push] at bound
  rcases Nat.lt_succ_iff_lt_or_eq.1 bound with old | rfl
  · exact .inl old
  · exact .inr ⟨ty, fits⟩

theorem extends_rewire {channels : Arena Channel} (bundles : Arena Bundle)
    (services : Arena ServiceInstance) (kept : ChannelsKept module.channels channels) :
    module.Extends { module with
      channels := channels, bundles := bundles, services := services } :=
  ⟨rfl, fun _ _ held => held, kept, fun _ _ held => held⟩

theorem Typed.rewire (typed : module.Typed types modules) {channels : Arena Channel}
    (bundles : Arena Bundle) (services : Arena ServiceInstance)
    (kept : ChannelsKept module.channels channels)
    (fit : ∀ id channel, channels.get? id = some channel →
      module.channels.get? id = some channel ∨ channel.Typed types module) :
    Typed types modules { module with
      channels := channels, bundles := bundles, services := services } := by
  have keeps := extends_rewire bundles services kept
  refine typed.extend keeps (fun _ bound => .inl bound) (fun id channel held => ?_)
    fun _ member => .inl member
  exact (fit id channel held).imp_right fun typed => typed.grow (.refl _) keeps

theorem extends_pushBuiltin (module : Module) (builtin : Builtin) :
    module.Extends { module with builtins := module.builtins ++ [builtin] } := by
  refine ⟨rfl, fun _ _ held => held, .refl _, fun index held known => ?_⟩
  rw [List.getElem?_append_left (List.getElem?_eq_some_iff.1 known).1]
  exact known

theorem Typed.pushBuiltin (typed : module.Typed types modules) (builtin : Builtin) :
    Typed types modules { module with builtins := module.builtins ++ [builtin] } :=
  typed.extend (module.extends_pushBuiltin builtin) (fun _ bound => .inl bound)
    (fun _ _ held => .inl held) fun _ member => .inl member

theorem Typed.pushChild (typed : module.Typed types modules) {child : Child}
    (fits : module.Fits types modules child) :
    Typed types modules { module with children := module.children ++ [child] } := by
  have keeps : module.Extends { module with children := module.children ++ [child] } :=
    ⟨rfl, fun _ _ held => held, .refl _, fun _ _ held => held⟩
  refine typed.extend keeps (fun _ bound => .inl bound) (fun _ _ held => .inl held)
    fun other member => ?_
  rcases List.mem_append.1 member with old | new
  · exact .inl old
  · obtain rfl := List.mem_singleton.1 new
    exact .inr (fits.grow (.refl _) (fun _ _ held => held) keeps)

theorem Typed.numbered (typed : module.Typed types modules) (id : ModuleId) :
    Typed types modules { module with id := id } :=
  typed.extend ⟨rfl, fun _ _ held => held, .refl _, fun _ _ held => held⟩
    (fun _ bound => .inl bound) (fun _ _ held => .inl held) fun _ member => .inl member

theorem typed_empty (id : ModuleId) (name : Ident) (ports : List Port)
    (metadata : Option Metadata) :
    Typed types modules { id := id, name := name, ports := ports, metadata := metadata } := by
  refine ⟨fun other bound => absurd bound (Nat.not_lt_zero _), fun other channel held => ?_, nofun⟩
  rw [Arena.get?_empty] at held
  cases held

end Module

def Value.Typed (types : TyPool) (module : Module) (value : Value) : Prop :=
  ∃ ty, types.get? value.ty = some ty ∧ module.HasTy types value.expr ty

theorem Value.Typed.grow {types later : TyPool} {before after : Module} {value : Value}
    (typed : value.Typed types before) (grows : types.Grows later)
    (keeps : before.Extends after) : value.Typed later after := by
  obtain ⟨ty, known, typed⟩ := typed
  exact ⟨ty, grows.get? known, typed.grow grows keeps⟩

theorem Value.Typed.hasTy {types : TyPool} {module : Module} {value : Value} {ty : Ty}
    (typed : value.Typed types module) (known : types.get? value.ty = some ty) :
    module.HasTy types value.expr ty := by
  obtain ⟨held, same, typed⟩ := typed
  rw [known] at same
  cases same
  exact typed

end Elastic
