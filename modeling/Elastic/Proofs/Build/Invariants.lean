import Elastic.Proofs.Build.OperationInvariants

namespace Elastic

/-! What the declarations of single parts keep, every call keeps. Calls that use up no handle also
fail for reasons of their own only, never because of a handle. -/

/-- An error about a handle that was used before, or that stands for nothing. -/
def BuildError.Stale : BuildError → Prop
  | .channelRebound _ | .bundleRebound _ _ => True
  | .internal message =>
    message = "bundle handle without bundle" ∨ message = "bundle handle without bundle type"
  | _ => False

/-- An operation that keeps a property of builders however it ends, and fails with a `fault` only.
-/
def Preserves (good : Builder → Prop) (fault : BuildError → Prop)
    (operation : Construction α) : Prop :=
  ∀ builder, good builder →
    Ends operation builder (fun _ after => good after) fun error after => good after ∧ fault error

namespace Preserves

variable {good : Builder → Prop} {fault : BuildError → Prop} {operation : Construction α}
  {next : α → Construction β}

theorem pure (value : α) : Preserves good fault (pure value : Construction α) :=
  fun _ holds => Ends.pure_iff.2 holds

theorem throw {error : BuildError} (allowed : fault error) :
    Preserves good fault (throw error : Construction α) :=
  fun _ holds => Ends.throw_iff.2 ⟨holds, allowed⟩

theorem bind (first : Preserves good fault operation)
    (rest : ∀ value, Preserves good fault (next value)) : Preserves good fault
    (operation >>= next) :=
  fun builder holds => Ends.bind (first builder holds)
    (fun value after holds => rest value after holds) fun _ _ badly => badly

theorem get_bind {next : Builder → Construction β}
    (rest : ∀ held, Preserves good fault (next held)) : Preserves good fault (get >>= next) :=
  fun builder holds => Ends.get_bind (rest builder builder holds)

theorem ite {condition : Prop} [Decidable condition] {first second : Construction α}
    (yes : Preserves good fault first) (no : Preserves good fault second) :
    Preserves good fault (if condition then first else second) :=
  fun builder holds => Ends.ite (fun _ => yes builder holds) fun _ => no builder holds

theorem maintains (preserves : Preserves good fault operation) : Maintains good operation :=
  fun builder holds => (preserves builder holds).mono (fun _ _ holds => holds)
    fun _ _ ends => ends.1

theorem nameGuard {condition : Prop} [Decidable condition] {error : String → BuildError}
    {next : Construction α} (allowed : ∀ name, fault (error name))
    (no : Preserves good fault next) :
    Preserves good fault (if condition then
      Construction.moduleName >>= fun name =>
        (MonadExcept.throw (error name) : Construction β) >>= fun _ => next
    else next) :=
  ite (bind (get_bind fun _ => pure _) fun _ => bind (throw (allowed _)) fun _ => no) no

theorem guard {condition : Prop} [Decidable condition] {refusal : Construction β}
    {next : Construction α} (yes : Preserves good fault refusal) (no : Preserves good fault next) :
    Preserves good fault (if condition then refusal >>= fun _ => next else next) :=
  ite (bind yes fun _ => no) no

end Preserves

abbrev NeverFails (operation : Construction α) : Prop :=
  Preserves (fun _ => True) (fun _ => False) operation

/-- A property of builders that no check ends: checks change nothing but the table of types. -/
structure CheckInvariant (good : Builder → Prop) (fault : BuildError → Prop) : Prop where
  internTy : ∀ ty, Preserves good fault (Construction.internTy ty)
  fresh : ∀ error : BuildError, ¬ error.Stale → fault error

namespace CheckInvariant

variable {good : Builder → Prop} {fault : BuildError → Prop}

theorem refuse (checkInvariant : CheckInvariant good fault) {error : BuildError}
    (fresh : ¬ error.Stale) : Preserves good fault (throw error : Construction α) :=
  .throw (checkInvariant.fresh error fresh)

theorem mismatch (checkInvariant : CheckInvariant good fault) (context expected found : String) :
    Preserves good fault (Construction.mismatch context expected found : Construction α) :=
  .bind (.get_bind fun _ => .pure _) fun _ => checkInvariant.refuse id

theorem fieldFault (checkInvariant : CheckInvariant good fault) (ty : Ty) (field problem : String) :
    Preserves good fault (Construction.fieldFault ty field problem : Construction α) :=
  .bind (.get_bind fun _ => .pure _) fun _ => checkInvariant.refuse id

theorem connectionFault (checkInvariant : CheckInvariant good fault) (child port problem : String) :
    Preserves good fault (Construction.connectionFault child port problem : Construction α) :=
  .bind (.get_bind fun _ => .pure _) fun _ => checkInvariant.refuse id

theorem expectTy (checkInvariant : CheckInvariant good fault) (value : Value) (expected : TyId)
    (context : String) : Preserves good fault (Construction.expectTy value expected context) :=
  .ite (.bind (.get_bind fun _ => .pure _) fun _ => .bind (.get_bind fun _ => .pure _)
    fun _ => checkInvariant.mismatch _ _ _) (.pure _)

theorem checkScope (checkInvariant : CheckInvariant good fault) (scope : Nat) (what : String) :
    Preserves good fault (Construction.checkScope scope what) :=
  .get_bind fun _ => .ite (checkInvariant.refuse id) (.pure _)

theorem serviceIndex (checkInvariant : CheckInvariant good fault) (setting : Setting)
    (service : Service) : Preserves good fault (Construction.serviceIndex setting service) := by
  unfold Construction.serviceIndex
  split
  · exact checkInvariant.refuse id
  · exact .ite (.pure _) (.bind (.get_bind fun _ => .pure _) fun _ => checkInvariant.refuse id)

theorem operationIndex (checkInvariant : CheckInvariant good fault) (service : Service)
    (operation : String) : Preserves good fault
    (Construction.operationIndex service operation) := by
  unfold Construction.operationIndex
  split
  · exact .pure _
  · exact checkInvariant.refuse id

theorem checkHost (checkInvariant : CheckInvariant good fault) (setting : Setting)
    (service : Service) : Preserves good fault (Construction.checkHost setting service) :=
  .ite (.bind (.get_bind fun _ => .pure _) fun _ => checkInvariant.refuse id) (.pure _)

theorem fillSlots (checkInvariant : CheckInvariant good fault) (ty : Ty)
    (fields : List (String × Value)) (slots : List (Option Value)) : Preserves good fault
    (Construction.fillSlots ty fields slots) := by
  induction fields generalizing slots with
  | nil => exact .pure _
  | cons field rest induction =>
      unfold Construction.fillSlots
      split
      · exact checkInvariant.fieldFault _ _ _
      · refine .guard (checkInvariant.fieldFault _ _ _) ?_
        exact (checkInvariant.internTy _).bind fun _ =>
          (checkInvariant.expectTy _ _ _).bind fun _ => induction _

theorem collectSlots (checkInvariant : CheckInvariant good fault) (ty : Ty)
    (slots : List (Option Value)) (fields : List (String × Ty)) :
    Preserves good fault (Construction.collectSlots ty slots fields) := by
  induction slots generalizing fields with
  | nil => exact .pure _
  | cons slot rest induction =>
      cases fields with
      | nil => cases slot <;> exact .pure _
      | cons field fields =>
          cases slot with
          | none => exact checkInvariant.fieldFault _ _ _
          | some value => exact (induction fields).bind fun _ => .pure _

theorem internTys (checkInvariant : CheckInvariant good fault) (tys : List Ty) :
    Preserves good fault (Construction.internTys tys) := by
  induction tys with
  | nil => exact .pure _
  | cons ty rest induction =>
      exact (checkInvariant.internTy _).bind fun _ => induction.bind fun _ => .pure _

theorem checkConnections (checkInvariant : CheckInvariant good fault) (child : String)
    (ports : List Port) (connections : List (String × Value)) :
    Preserves good fault (Construction.checkConnections child ports connections) := by
  induction connections with
  | nil => exact .pure _
  | cons connection rest induction =>
      unfold Construction.checkConnections
      refine .get_bind fun builder => ?_
      exact .guard (checkInvariant.refuse id) induction

theorem wirePorts (checkInvariant : CheckInvariant good fault) (child : String)
    (connections : List (String × Value)) (ports : List Port) :
    Preserves good fault (Construction.wirePorts child connections ports) := by
  induction ports with
  | nil => exact .pure _
  | cons port rest induction =>
      unfold Construction.wirePorts
      refine .get_bind fun builder => ?_
      dsimp only
      split
      · exact checkInvariant.connectionFault _ _ _
      · have rest (value : Value) : Preserves good fault (do
            return value.expr :: (← Construction.wirePorts child connections rest)) :=
          induction.bind fun _ => .pure _
        refine .ite ?_ (rest _)
        refine .bind (.get_bind fun _ => .pure _) fun _ => ?_
        refine .bind (.get_bind fun _ => .pure _) fun _ => ?_
        refine .bind (.get_bind fun _ => .pure _) fun _ => ?_
        exact .bind (checkInvariant.refuse id) fun _ => rest _
      · exact checkInvariant.connectionFault _ _ _

theorem matchRole (checkInvariant : CheckInvariant good fault) (any : ∀ error, fault error)
    (ty : BundleTy) (flow : Flow) (taken : List Nat) (name : String) (channel : ChannelHandle) :
    Preserves good fault (Construction.matchRole ty flow taken name channel) := by
  refine (checkInvariant.checkScope _ _).bind fun _ =>
    .bind (.get_bind fun _ => .pure _) fun module => ?_
  split
  · exact .throw (any _)
  rename_i index role found
  refine .guard (.throw (any _)) (.guard (.throw (any _)) ?_)
  refine (checkInvariant.internTy _).bind fun expected => ?_
  have opens : Preserves good fault (do
      if !(← get).module.isOpen channel.id then throw (.channelRebound module)
      return index) := .get_bind fun builder => .guard (.throw (any _)) (.pure _)
  refine .ite ?_ opens
  refine .bind (.get_bind fun _ => .pure _) fun _ => .bind (.get_bind fun _ => .pure _) fun _ => ?_
  exact .bind (.throw (any _)) fun _ => opens

theorem matchEach (checkInvariant : CheckInvariant good fault) (any : ∀ error, fault error)
    (ty : BundleTy) (flow : Flow) (supplied : List (String × ChannelHandle)) (taken : List Nat) :
    Preserves good fault (Construction.matchEach ty flow supplied taken) := by
  induction supplied generalizing taken with
  | nil => exact .pure _
  | cons entry rest induction =>
      exact (checkInvariant.matchRole any _ _ _ _ _).bind fun _ => induction _

theorem matchRoles (checkInvariant : CheckInvariant good fault) (any : ∀ error, fault error)
    (ty : BundleTy) (flow : Flow) (supplied : List (String × ChannelHandle)) :
    Preserves good fault (Construction.matchRoles ty flow supplied) := by
  refine (checkInvariant.matchEach any _ _ _ _).bind fun positions => ?_
  split
  · exact .bind (.get_bind fun _ => .pure _) fun _ => .throw (any _)
  · exact .pure _

theorem unservedBundle (any : ∀ error, fault error) (handle : BundleHandle) :
    Preserves good fault (Construction.unservedBundle handle) := by
  refine .get_bind fun builder => ?_
  split
  · exact .throw (any _)
  · exact .ite (.throw (any _)) (.pure _)

end CheckInvariant

/-- A property of builders that no declaration of a part but a bundle ends. Channels are declared
open, and only some of them come to an end. -/
structure PartInvariant (elaborate : String → Elaborating ModuleId) (channels : ChannelId → Prop)
    (good : Builder → Prop) (fault : BuildError → Prop) :
    Prop extends CheckInvariant good fault where
  internName : ∀ text, Preserves good fault (Construction.internName text)
  appIds : ∀ builder appIds, good builder → good { builder with appIds := appIds }
  addExpr : ∀ expr ty, Preserves good fault (Construction.addExpr expr ty)
  addChannel : ∀ payload producer,
    Preserves good fault (Construction.addChannel ⟨payload, producer, .unbound⟩)
  addService : ∀ held, Preserves good fault (Construction.addService held)
  declare : ∀ (builder : Builder) builtins children, good builder → good { builder with module :=
    { builder.module with builtins := builtins, children := children } }
  bind : ∀ channel consumer, channels channel.id →
    Preserves good fault (Construction.bind channel consumer)
  elaborates : ∀ name, Preserves good fault (Construction.onShared (elaborate name))

/-- A property of builders that no declaration of a part ends. Bundles are declared open too, and
only some of them come to an end. -/
structure BuilderInvariant (elaborate : String → Elaborating ModuleId) (channels : ChannelId → Prop)
    (bundles : BundleId → Prop) (good : Builder → Prop) (fault : BuildError → Prop) : Prop
    extends PartInvariant elaborate channels good fault where
  addBundle : ∀ ty roles client,
    Preserves good fault (Construction.addBundle ⟨ty, roles, client, .unbound⟩)
  setBundle : ∀ id bundle, bundles id → Preserves good fault (Construction.setBundle id bundle)

namespace PartInvariant

variable {elaborate : String → Elaborating ModuleId} {channels : ChannelId → Prop}
  {good : Builder → Prop} {fault : BuildError → Prop} {setting : Setting}

theorem reserve (partInvariant : PartInvariant elaborate channels good fault) (appId : AppId) :
    Preserves good fault (Construction.reserve appId) := by
  intro builder holds
  apply Ends.get_bind
  apply Ends.ite
  · exact fun _ => Ends.throw_bind ⟨holds, partInvariant.fresh _ id⟩
  intro _
  apply Ends.ite
  · exact fun _ => Ends.throw_bind ⟨holds, partInvariant.fresh _ id⟩
  · exact fun _ => Ends.set_iff.2 (partInvariant.appIds _ _ holds)

theorem roleSlots (partInvariant : PartInvariant elaborate channels good fault) (ty : BundleTy) :
    Preserves good fault (Construction.roleSlots ty) := by
  induction ty with
  | nil => exact .pure _
  | cons role rest induction =>
      exact (partInvariant.internName _).bind fun _ => (partInvariant.internTy _).bind fun _ =>
        induction.bind fun _ => .pure _

theorem port (partInvariant : PartInvariant elaborate channels good fault) (name : String) :
    Preserves good fault (Construction.port name) := by
  refine .get_bind fun builder => ?_
  split
  · exact partInvariant.refuse id
  · exact partInvariant.addExpr _ _

theorem constant (partInvariant : PartInvariant elaborate channels good fault) (ty : Ty)
    (value : UInt64) : Preserves good fault (Construction.constant ty value) := by
  unfold Construction.constant
  split
  · refine .nameGuard (fun _ => partInvariant.fresh _ id) ?_
    exact (partInvariant.internTy _).bind fun _ => partInvariant.addExpr _ _
  · exact partInvariant.mismatch _ _ _

theorem bool (partInvariant : PartInvariant elaborate channels good fault) (value : Bool) :
    Preserves good fault (Construction.bool value) :=
  (partInvariant.internTy _).bind fun _ => partInvariant.addExpr _ _

theorem struct (partInvariant : PartInvariant elaborate channels good fault) (ty : Ty)
    (fields : List (String × Value)) : Preserves good fault (Construction.struct ty fields) := by
  unfold Construction.struct
  split
  · exact (partInvariant.fillSlots _ _ _).bind fun _ =>
      (partInvariant.collectSlots _ _ _).bind fun _ =>
      (partInvariant.internTy _).bind fun _ => partInvariant.addExpr _ _
  · exact partInvariant.mismatch _ _ _

theorem field (partInvariant : PartInvariant elaborate channels good fault) (base : Value)
    (name : String) : Preserves good fault (Construction.field base name) := by
  refine .get_bind fun builder => ?_
  dsimp only
  split
  · split
    · exact partInvariant.fieldFault _ _ _
    · exact (partInvariant.internTy _).bind fun _ => partInvariant.addExpr _ _
  · exact partInvariant.mismatch _ _ _

theorem gate (partInvariant : PartInvariant elaborate channels good fault) (first second : Value)
    (what : String) (expr : Expr) :
    Preserves good fault (do
      let bit ← Construction.internTy .bit
      Construction.expectTy first bit what
      Construction.expectTy second bit what
      Construction.addExpr expr bit) :=
  (partInvariant.internTy _).bind fun _ => (partInvariant.expectTy _ _ _).bind fun _ =>
    (partInvariant.expectTy _ _ _).bind fun _ => partInvariant.addExpr _ _

theorem not (partInvariant : PartInvariant elaborate channels good fault) (operand : Value) :
    Preserves good fault (Construction.not operand) :=
  (partInvariant.internTy _).bind fun _ => (partInvariant.expectTy _ _ _).bind fun _ =>
    partInvariant.addExpr _ _

theorem wrap (partInvariant : PartInvariant elaborate channels good fault) (payload : Ty)
    (value valid : Value) : Preserves good fault (Construction.wrap payload value valid) :=
  .guard (partInvariant.mismatch _ _ _) <| (partInvariant.internTy _).bind fun _ =>
    (partInvariant.expectTy _ _ _).bind fun _ => (partInvariant.internTy _).bind fun _ =>
      (partInvariant.expectTy _ _ _).bind fun _ => (partInvariant.addChannel _ _).bind fun _ =>
        (partInvariant.addExpr _ _).bind fun _ => .pure _

theorem addResults (partInvariant : PartInvariant elaborate channels good fault) (builtin : Nat)
    (tys : List TyId) (position : Nat) :
    Preserves good fault (Construction.addResults builtin tys position) := by
  induction tys generalizing position with
  | nil => exact .pure _
  | cons ty rest induction =>
      exact (partInvariant.addExpr _ _).bind fun _ => (induction _).bind fun _ => .pure _

theorem builtin (partInvariant : PartInvariant elaborate channels good fault) (setting : Setting)
    (service : Service) (appId : AppId) (tag : String) (results : List Ty) (inputs : List Value) :
    Preserves good fault (Construction.builtin setting service appId tag results inputs) := by
  refine (partInvariant.serviceIndex _ _).bind fun _ =>
    .bind (.get_bind fun _ => .pure _) fun _ => ?_
  refine .guard (partInvariant.refuse id) (.guard (partInvariant.refuse id) ?_)
  refine (partInvariant.reserve _).bind fun _ => .get_bind fun _ => ?_
  refine (partInvariant.internTys _).bind fun _ => (partInvariant.internName _).bind fun _ => ?_
  refine .bind (fun builder holds => ?_) fun _ => partInvariant.addResults _ _ _
  exact Ends.modify_iff.2 (partInvariant.declare builder _ builder.module.children holds)

theorem instantiate (partInvariant : PartInvariant elaborate channels good fault) (child : String)
    (appId : AppId) (connections : List (String × Value)) :
    Preserves good fault (Construction.instantiate elaborate child appId connections) := by
  refine (partInvariant.reserve _).bind fun _ => (partInvariant.elaborates _).bind fun _ => ?_
  refine .get_bind fun _ => (partInvariant.checkConnections _ _ _).bind fun _ => ?_
  refine (partInvariant.wirePorts _ _ _).bind fun _ builder holds => ?_
  exact Ends.modify_iff.2 (partInvariant.declare builder builder.module.builtins _ holds)

theorem openRoles (partInvariant : PartInvariant elaborate channels good fault) (bundle : BundleId)
    (flow : Flow) (side : ServiceSide) (ty : BundleTy) (position : Nat)
    (slots : List RoleSlot) :
    Preserves good fault (Construction.openRoles bundle flow side ty position slots) := by
  induction ty generalizing position slots with
  | nil => exact .pure _
  | cons role rest induction =>
      unfold Construction.openRoles
      refine .ite ?_ (induction _ _)
      exact (partInvariant.addChannel _ _).bind fun _ => (induction _ _).bind fun _ => .pure _

theorem bindRoles (partInvariant : PartInvariant elaborate channels good fault) (bundle : BundleId)
    (side : ServiceSide) (pairs : List (ChannelHandle × Nat)) (slots : List RoleSlot)
    (used : ∀ pair ∈ pairs, channels pair.1.id) :
    Preserves good fault (Construction.bindRoles bundle side pairs slots) := by
  induction pairs generalizing slots with
  | nil => exact .pure _
  | cons pair rest induction =>
      refine (partInvariant.bind _ _ (used pair List.mem_cons_self)).bind fun _ => ?_
      exact induction _ fun other member => used other (List.mem_cons_of_mem _ member)

theorem unwrap (partInvariant : PartInvariant elaborate channels good fault)
    (channel : ChannelHandle) (ready : Value) (used : channels channel.id) :
    Preserves good fault (Construction.unwrap channel ready) :=
  (partInvariant.checkScope _ _).bind fun _ => (partInvariant.internTy _).bind fun _ =>
    (partInvariant.expectTy _ _ _).bind fun _ => (partInvariant.bind _ _ used).bind fun _ =>
      (partInvariant.addExpr _ _).bind fun _ => (partInvariant.addExpr _ _).bind fun _ => .pure _

theorem operationInvariant
    (partInvariant : PartInvariant elaborate (fun _ => True) good fun _ => True)
    (pack : ∀ ty channels, Maintains good (Construction.pack ty channels))
    (unpack : ∀ handle channels, Maintains good (Construction.unpack handle channels))
      (call : ∀ service operation handle appId, Maintains good
        (Construction.call setting service operation handle appId))
    (request : ∀ service operation appId,
      Maintains good (Construction.request setting service operation appId))
    (withHoldings : ∀ (builder : Builder) notes holdings, good builder →
      good { builder with shared :=
        { builder.shared with notes := notes, holdings := holdings } }) :
    OperationInvariant setting elaborate good where
  port name := (partInvariant.port name).maintains
  constant ty value := (partInvariant.constant ty value).maintains
  bool value := (partInvariant.bool value).maintains
  struct ty fields := (partInvariant.struct ty fields).maintains
  field base name := (partInvariant.field base name).maintains
  and first second := (partInvariant.gate first second "and" _).maintains
  or first second := (partInvariant.gate first second "or" _).maintains
  not operand := (partInvariant.not operand).maintains
  wrap payload value valid := (partInvariant.wrap payload value valid).maintains
  unwrap channel ready := (partInvariant.unwrap channel ready trivial).maintains
  pack := pack
  unpack := unpack
  call := call
  request := request
  builtin service appId tag results inputs :=
    (partInvariant.builtin setting service appId tag results inputs).maintains
  instantiate child appId connections :=
    (partInvariant.instantiate child appId connections).maintains
  withHoldings := withHoldings

end PartInvariant

namespace BuilderInvariant

variable {elaborate : String → Elaborating ModuleId} {channels : ChannelId → Prop}
  {bundles : BundleId → Prop} {good : Builder → Prop} {fault : BuildError → Prop}
  {setting : Setting}

theorem request (builderInvariant : BuilderInvariant elaborate channels bundles good fault)
    (setting : Setting) (service : Service) (operation : String) (appId : AppId) :
    Preserves good fault (Construction.request setting service operation appId) := by
  unfold Construction.request
  refine (builderInvariant.serviceIndex _ _).bind fun _ =>
    (builderInvariant.operationIndex _ _).bind fun _ => ?_
  refine .nameGuard (fun _ => builderInvariant.fresh _ id) ?_
  refine (builderInvariant.checkHost _ _).bind fun _ =>
    (builderInvariant.reserve _).bind fun _ => ?_
  refine (builderInvariant.internTy _).bind fun _ => (builderInvariant.roleSlots _).bind fun _ => ?_
  exact .get_bind fun _ => (builderInvariant.addService _).bind fun _ =>
    builderInvariant.addBundle _ _ _

theorem pack (builderInvariant : BuilderInvariant elaborate channels bundles good fault)
    (any : ∀ error, fault error) (ty : BundleTy) (supplied : List (String × ChannelHandle))
    (used : ∀ entry ∈ supplied, channels entry.2.id) :
    Preserves good fault (Construction.pack ty supplied) := by
  refine (builderInvariant.matchRoles any _ _ _).bind fun positions =>
    (builderInvariant.internTy _).bind fun _ => ?_
  refine .get_bind fun _ => (builderInvariant.roleSlots _).bind fun slots => ?_
  refine (builderInvariant.bindRoles _ _ _ slots ?_).bind fun _ =>
    (builderInvariant.openRoles _ _ _ _ _ _).bind fun _ =>
      (builderInvariant.addBundle _ _ _).bind fun _ => .bind (.get_bind fun _ => .pure _) fun _ =>
      .pure _
  intro pair member
  obtain ⟨entry, inside, equal⟩ := List.mem_map.1 (List.of_mem_zip member).1
  rw [← equal]
  exact used entry inside

theorem unpack (builderInvariant : BuilderInvariant elaborate channels bundles good fault)
    (any : ∀ error, fault error) (handle : BundleHandle)
    (supplied : List (String × ChannelHandle)) (ends : bundles handle.id)
    (used : ∀ entry ∈ supplied, channels entry.2.id) :
    Preserves good fault (Construction.unpack handle supplied) := by
  refine (builderInvariant.checkScope _ _).bind fun _ =>
    (CheckInvariant.unservedBundle any _).bind fun _ => ?_
  refine .get_bind fun _ => ?_
  split
  · refine (builderInvariant.matchRoles any _ _ _).bind fun positions => ?_
    refine (CheckInvariant.unservedBundle any _).bind fun _ => ?_
    refine (builderInvariant.setBundle _ _ ends).bind fun _ => ?_
    refine (builderInvariant.bindRoles _ _ _ _ ?_).bind fun _ =>
      (builderInvariant.openRoles _ _ _ _ _ _).bind fun _ =>
        (builderInvariant.setBundle _ _ ends).bind fun _ =>
          .bind (.get_bind fun _ => .pure _) fun _ =>
        .pure _
    intro pair member
    obtain ⟨entry, inside, equal⟩ := List.mem_map.1 (List.of_mem_zip member).1
    rw [← equal]
    exact used entry inside
  · exact .throw (any _)

theorem call (builderInvariant : BuilderInvariant elaborate channels bundles good fault)
    (any : ∀ error, fault error) (service : Service) (operation : String) (handle : BundleHandle)
    (appId : AppId) (ends : bundles handle.id) :
    Preserves good fault (Construction.call setting service operation handle appId) := by
  refine (builderInvariant.checkScope _ _).bind fun _ =>
    (builderInvariant.serviceIndex _ _).bind fun _ => ?_
  refine (builderInvariant.operationIndex _ _).bind fun _ =>
    (builderInvariant.checkHost _ _).bind fun _ => ?_
  refine (CheckInvariant.unservedBundle any _).bind fun _ =>
    (builderInvariant.internTy _).bind fun _ => ?_
  have serves {held : ServiceInstance} (bundle : ServiceInstanceId → Bundle) :
      Preserves good fault (do
        Construction.reserve appId
        let held ← Construction.addService held
        Construction.setBundle handle.id (bundle held)) :=
    (builderInvariant.reserve _).bind fun _ => (builderInvariant.addService _).bind fun _ =>
      builderInvariant.setBundle _ _ ends
  refine .ite ?_ (serves _)
  refine .bind (.get_bind fun _ => .pure _) fun _ => .bind (.get_bind fun _ => .pure _) fun _ => ?_
  exact .bind (.get_bind fun _ => .pure _) fun _ => .bind (.throw (any _)) fun _ => serves _

end BuilderInvariant

namespace Call

def consumes : Call → Bool
  | .unwrap .. | .pack .. | .unpack .. | .call .. => true
  | _ => false

end Call

def Token.Among (channels : ChannelId → Prop) (bundles : BundleId → Prop) : Token → Prop
  | .channel handle => channels handle.id
  | .bundle handle => bundles handle.id

namespace BuilderInvariant

variable {elaborate : String → Elaborating ModuleId} {channels : ChannelId → Prop}
  {bundles : BundleId → Prop} {good : Builder → Prop} {fault : BuildError → Prop}
  {setting : Setting}

theorem results {operation : Construction α} {results : α → List Holding}
    (preserves : Preserves good fault operation) :
    Preserves good fault (operation >>= fun value => pure (results value)) :=
  preserves.bind fun _ => .pure _

variable (setting) in
/-- Every call keeps what declarations keep, if it uses up only handles among those that may end. -/
theorem run (builderInvariant : BuilderInvariant elaborate channels bundles good fault)
    (call : Call) (any : call.consumes = true → ∀ error, fault error)
    (used : ∀ token ∈ Holding.allTokens call.given, token.Among channels bundles) :
    Preserves good fault (call.run setting elaborate) := by
  have supplied {entries : List (String × ChannelHandle)} (held : List Holding)
      (used : ∀ token ∈ Holding.allTokens (held ++ entries.map fun entry => .channel entry.2),
        token.Among channels bundles) : ∀ entry ∈ entries, channels entry.2.id := by
    intro entry member
    refine used (.channel entry.2) ?_
    rw [Holding.allTokens_append, Holding.allTokens_channels]
    exact List.mem_append_right _ (List.mem_map.2 ⟨entry, member, rfl⟩)
  cases call with
  | port name => exact results (builderInvariant.port name)
  | constant ty value => exact results (builderInvariant.constant ty value)
  | bool value => exact results (builderInvariant.bool value)
  | struct ty fields => exact results (builderInvariant.struct ty fields)
  | field base name => exact results (builderInvariant.field base name)
  | and first second => exact results (builderInvariant.gate first second "and" _)
  | or first second => exact results (builderInvariant.gate first second "or" _)
  | not operand => exact results (builderInvariant.not operand)
  | wrap payload value valid => exact results (builderInvariant.wrap payload value valid)
  | unwrap channel ready =>
      exact results (builderInvariant.unwrap channel ready
        (used (.channel channel) List.mem_cons_self))
  | pack ty channels =>
      refine results (builderInvariant.pack (any rfl) ty channels ?_)
      exact supplied [] used
  | unpack handle channels =>
      refine results (builderInvariant.unpack (any rfl) handle channels
        (used (.bundle handle) List.mem_cons_self) ?_)
      exact supplied [.bundle handle] used
  | call service operation handle appId =>
      exact results (builderInvariant.call (any rfl) service operation handle appId
        (used (.bundle handle) List.mem_cons_self))
  | request service operation appId =>
      exact results (builderInvariant.request setting service operation appId)
  | builtin service appId tag results' inputs =>
      exact results (builderInvariant.builtin setting service appId tag results' inputs)
  | instantiate child appId connections =>
      exact results (builderInvariant.instantiate child appId connections)

/-- What declarations keep whichever handles are used up lasts. -/
theorem operationInvariant {setting : Setting}
    (builderInvariant : BuilderInvariant elaborate (fun _ => True) (fun _ => True) good
      fun _ => True)
    (withHoldings : ∀ (builder : Builder) notes holdings, good builder →
      good { builder with shared :=
        { builder.shared with notes := notes, holdings := holdings } }) :
    OperationInvariant setting elaborate good :=
  builderInvariant.toPartInvariant.operationInvariant
    (fun ty channels =>
      (builderInvariant.pack (fun _ => trivial) ty channels fun _ _ => trivial).maintains)
    (fun handle channels =>
      (builderInvariant.unpack (fun _ => trivial) handle channels trivial fun _ _ =>
        trivial).maintains)
    (fun service operation handle appId =>
      (builderInvariant.call (fun _ => trivial) service operation handle appId trivial).maintains)
    (fun service operation appId =>
      (builderInvariant.request setting service operation appId).maintains)
    withHoldings

end BuilderInvariant

end Elastic
