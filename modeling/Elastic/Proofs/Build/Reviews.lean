import Elastic.Proofs.Build.Refusals
import Elastic.Proofs.Build.Visits

namespace Elastic

/-! Reviews of calls. Where a call compares the numbers of two types, its review compares the types
themselves, as the table tells them before the call. What else a call checks is asked of its
builder. A review changes nothing, and comes to the same as the call. -/

namespace Builder

/-- What an operation would come to on the builder. -/
def ask (builder : Builder) (operation : Construction α) : Except BuildError α :=
  (operation.run.run builder).1

def after (builder : Builder) (operation : Construction α) : Builder :=
  (operation.run.run builder).2

def withTypes (builder : Builder) (types : TyPool) : Builder :=
  { builder with shared := { builder.shared with types := types } }

def reviewValue (builder : Builder) (value : Value) (expected : Ty) (context : String) :
    Except BuildError Unit :=
  let found := builder.shared.types.get value.ty
  if found = expected then return
  else throw (.typeMismatch builder.name context expected.text found.text)

def reviewFields (builder : Builder) (ty : Ty) :
    List (String × Value) → List (Option Value) → Except BuildError (List (Option Value))
  | [], slots => return slots
  | (name, value) :: rest, slots =>
    match ty.field? name with
    | none => throw (.fieldMismatch builder.name ty.text name "unknown")
    | some (index, fieldTy) =>
      if ((slots[index]?).join).isSome then
        throw (.fieldMismatch builder.name ty.text name "given twice")
      else do
        builder.reviewValue value fieldTy ("field '" ++ name ++ "'")
        reviewFields builder ty rest (slots.set index (some value))

def reviewRole (builder : Builder) (ty : BundleTy) (flow : Flow) (taken : List Nat) (name : String)
    (channel : ChannelHandle) : Except BuildError Nat := do
  builder.ask (Construction.checkScope channel.scope "channel")
  match BundleTy.role? name ty with
  | none => throw (.unexpectedRole builder.name name ("not a role of " ++ BundleTy.text ty))
  | some (index, role) =>
    let found := builder.shared.types.get channel.payload
    if role.flow ≠ flow then
      throw (.unexpectedRole builder.name name (Construction.wrongFlowReason flow))
    else if taken.contains index then throw (.duplicateRole builder.name name)
    else if found ≠ role.payload then
      throw (.roleTypeMismatch builder.name ("role '" ++ name ++ "'") role.payload.text found.text)
    else if !builder.module.isOpen channel.id then throw (.channelRebound builder.name)
    else return index

def reviewEach (builder : Builder) (ty : BundleTy) (flow : Flow) :
    List (String × ChannelHandle) → List Nat → Except BuildError (List Nat)
  | [], taken => return taken
  | (name, channel) :: rest, taken => do
    let index ← builder.reviewRole ty flow taken name channel
    reviewEach builder ty flow rest (taken ++ [index])

def reviewRoles (builder : Builder) (ty : BundleTy) (flow : Flow)
    (channels : List (String × ChannelHandle)) : Except BuildError (List Nat) := do
  let positions ← builder.reviewEach ty flow channels []
  match (BundleTy.rolesIn ty flow).find? fun role => !channels.any (·.1 = role.name) with
  | some role => throw (.missingRole builder.name role.name)
  | none => return positions

def reviewPorts (builder : Builder) (child : String) (connections : List (String × Value)) :
    List Port → Except BuildError (List ExprId)
  | [] => return []
  | port :: rest => do
    let name := builder.shared.names.text port.name
    match connections.filter (·.1 = name) with
    | [] => throw (.portConnection builder.name child name "not connected")
    | [(_, value)] =>
      let expected := builder.shared.types.get port.ty
      let found := builder.shared.types.get value.ty
      if found ≠ expected then
        throw (.portTypeMismatch builder.name child name expected.text found.text)
      else return value.expr :: (← reviewPorts builder child connections rest)
    | _ => throw (.portConnection builder.name child name "connected twice")

end Builder

def Construction.enrol (elaborate : String → Elaborating ModuleId) (child : String)
    (appId : AppId) : Construction ModuleId := do
  reserve appId
  onShared (elaborate child)

open Construction in
/-- A verdict on a call. Calls that compare no types are asked as a whole. -/
def Call.review (setting : Setting) (elaborate : String → Elaborating ModuleId)
    (builder : Builder) : Call → Except BuildError Unit
  | .struct (.struct decls) fields => do
    let slots ← builder.reviewFields (.struct decls) fields (List.replicate decls.length none)
    let _ ← builder.ask (collectSlots (.struct decls) slots decls)
  | .and first second => do
    builder.reviewValue first .bit "and"
    builder.reviewValue second .bit "and"
  | .or first second => do
    builder.reviewValue first .bit "or"
    builder.reviewValue second .bit "or"
  | .not operand => builder.reviewValue operand .bit "not"
  | .wrap payload value valid =>
    if !payload.isPayload then
      throw (.typeMismatch builder.name "channel payload" "bits or struct" payload.text)
    else do
      builder.reviewValue value payload "wrapped value"
      builder.reviewValue valid .bit "valid"
  | .unwrap channel ready => do
    builder.ask (checkScope channel.scope "channel")
    builder.reviewValue ready .bit "ready"
    builder.ask (bind channel (.unwrapped ready.expr))
  | .pack ty channels => do
    let _ ← builder.reviewRoles ty .toService channels
  | .unpack handle channels => do
    builder.ask (checkScope handle.scope "bundle")
    let _ ← builder.ask (unservedBundle handle)
    match builder.shared.types.get handle.ty with
    | .bundle ty =>
      let _ ← builder.reviewRoles ty .fromService channels
    | _ => throw (.internal "bundle handle without bundle type")
  | .call service operation handle appId => do
    builder.ask (checkScope handle.scope "bundle")
    let _ ← builder.ask (serviceIndex setting service)
    let operationAt ← builder.ask (operationIndex service operation)
    builder.ask (checkHost setting service)
    let _ ← builder.ask (unservedBundle handle)
    let expected := Ty.bundle (operationBundle service operationAt)
    let found := builder.shared.types.get handle.ty
    if found ≠ expected then
      throw (.roleTypeMismatch builder.name
        ("operation '" ++ service.name ++ "." ++ operation ++ "'") expected.text found.text)
    else builder.ask (reserve appId)
  | .instantiate child appId connections => do
    let id ← builder.ask (enrol elaborate child appId)
    let entered := builder.after (enrol elaborate child appId)
    let ports := ((entered.shared.modules.get? id).map (·.ports)).getD []
    entered.ask (checkConnections child ports connections)
    let _ ← entered.reviewPorts child connections ports
  | other => do
    let _ ← builder.ask (other.run setting elaborate)

namespace Ends

theorem ran {ε σ : Type} (action : ExceptT ε (StateM σ) α) (state : σ) :
    Ends action state (fun value after => action.run.run state = (.ok value, after))
      fun error after => action.run.run state = (.error error, after) := by
  unfold Ends
  split <;> assumption

variable {operation : Construction α} {builder : Builder} {good : α → Builder → Prop}
  {bad : BuildError → Builder → Prop}

theorem asked (operation : Construction α) (builder : Builder) :
    Ends operation builder
      (fun value after => builder.ask operation = .ok value ∧ builder.after operation = after)
      fun error after => builder.ask operation = .error error ∧ builder.after operation = after :=
  (Ends.ran operation builder).mono (fun _ _ ran => Prod.ext_iff.1 ran) fun _ _ ran =>
    Prod.ext_iff.1 ran

theorem of_ask {value : α} (ends : Ends operation builder good bad)
    (accepted : builder.ask operation = .ok value) : good value (builder.after operation) :=
  ends.of_run_ok (Prod.ext accepted rfl)

end Ends

/-- A check that only looks at the builder, and not at its types. -/
def OnlyReads (check : Construction α) : Prop :=
  ∀ (builder : Builder) (types : TyPool),
    check.run.run (builder.withTypes types) = (builder.ask check, builder.withTypes types)

namespace OnlyReads

variable {check : Construction α} {next : α → Construction β}

theorem pure (value : α) : OnlyReads (pure value : Construction α) := fun _ _ => rfl

theorem throw (error : BuildError) : OnlyReads (throw error : Construction α) := fun _ _ => rfl

theorem run (onlyReads : OnlyReads check) (builder : Builder) :
    check.run.run builder = (builder.ask check, builder) :=
  onlyReads builder builder.shared.types

theorem ask_bind (onlyReads : OnlyReads check) (builder : Builder) :
    builder.ask (check >>= next) = builder.ask check >>= fun value => builder.ask (next value) := by
  rw [Builder.ask, Ends.run_bind, onlyReads.run]
  cases builder.ask check <;> rfl

theorem bind (first : OnlyReads check) (rest : ∀ value, OnlyReads (next value)) :
    OnlyReads (check >>= next) := by
  intro builder types
  rw [Ends.run_bind, first builder types, first.ask_bind]
  cases builder.ask check with
  | error error => rfl
  | ok value => exact rest value builder types

theorem get_bind {next : Builder → Construction α} (each : ∀ held, OnlyReads (next held))
    (same : ∀ builder types, next (builder.withTypes types) = next builder) :
    OnlyReads (get >>= next) := by
  intro builder types
  rw [Ends.run_get_bind, same, each builder builder types]
  rfl

theorem ite {condition : Prop} [Decidable condition] {first second : Construction α}
    (yes : OnlyReads first) (no : OnlyReads second) :
    OnlyReads (if condition then first else second) := by
  by_cases holds : condition
  · rwa [if_pos holds]
  · rwa [if_neg holds]

end OnlyReads

namespace Construction

theorem onlyReads_moduleName : OnlyReads moduleName := fun _ _ => rfl

theorem onlyReads_checkScope (scope : Nat) (what : String) : OnlyReads (checkScope scope what) :=
  .get_bind (fun _ => .ite (.throw _) (.pure _)) fun _ _ => rfl

theorem onlyReads_fieldFault (ty : Ty) (field problem : String) :
    OnlyReads (fieldFault ty field problem : Construction α) :=
  .bind onlyReads_moduleName fun _ => .throw _

theorem onlyReads_collectSlots (ty : Ty) (slots : List (Option Value))
    (fields : List (String × Ty)) : OnlyReads (collectSlots ty slots fields) := by
  induction slots generalizing fields with
  | nil => exact .pure _
  | cons slot rest induction =>
      cases fields with
      | nil => cases slot <;> exact .pure _
      | cons field fields =>
          cases slot with
          | none => exact onlyReads_fieldFault _ _ _
          | some value => exact .bind (induction fields) fun _ => .pure _

theorem onlyReads_serviceIndex (setting : Setting) (service : Service) :
    OnlyReads (serviceIndex setting service) := by
  unfold serviceIndex
  split
  · exact .throw _
  · exact .ite (.pure _) (.bind onlyReads_moduleName fun _ => .throw _)

theorem onlyReads_operationIndex (service : Service) (operation : String) :
    OnlyReads (operationIndex service operation) := by
  unfold operationIndex
  split
  · exact .pure _
  · exact .throw _

theorem onlyReads_checkHost (setting : Setting) (service : Service) :
    OnlyReads (checkHost setting service) :=
  .ite (.bind onlyReads_moduleName fun _ => .throw _) (.pure _)

theorem onlyReads_unservedBundle (handle : BundleHandle) : OnlyReads (unservedBundle handle) := by
  refine .get_bind (fun held => ?_) fun _ _ => rfl
  split
  · exact .throw _
  · exact .ite (.throw _) (.pure _)

theorem onlyReads_checkConnections (child : String) (ports : List Port)
    (connections : List (String × Value)) :
    OnlyReads (checkConnections child ports connections) := by
  induction connections with
  | nil => exact .pure _
  | cons connection rest induction =>
      exact .get_bind (fun _ => .ite (.bind (.throw _) fun _ => induction) induction)
        fun _ _ => rfl

end Construction

/-- On a builder whose table of types has grown since the review, an operation lets the table grow
and changes nothing else, and comes to what the review says. -/
def Follows (start : Builder) (types : TyPool) (operation : Construction α)
    (verdict : Except BuildError α) : Prop :=
  Ends operation (start.withTypes types)
    (fun value after =>
      (∃ later, types.Grows later ∧ after = start.withTypes later) ∧ verdict = .ok value)
    fun error _ => verdict = .error error

/-- An operation that succeeds if its review does, and fails with the error of its review. -/
def EndsAs (builder : Builder) (operation : Construction α)
    (verdict : Except BuildError β) : Prop :=
  Ends operation builder (fun _ _ => ∃ known, verdict = .ok known) fun error _ =>
    verdict = .error error

section

variable {start : Builder} {types : TyPool} {operation : Construction α}
  {next : α → Construction β} {verdict : Except BuildError α}

theorem Follows.bind {review : α → Except BuildError β}
    (first : Follows start types operation verdict)
    (rest : ∀ value later, types.Grows later → verdict = .ok value →
      Follows start later (next value) (review value)) :
    Follows start types (operation >>= next) (verdict >>= review) := by
  refine Ends.bind first (fun value after ends => ?_) fun error after refused => ?_
  · obtain ⟨⟨later, grows, rfl⟩, accepted⟩ := ends
    rw [accepted]
    refine (rest value later grows accepted).mono (fun _ _ ends => ?_) fun _ _ refused => refused
    obtain ⟨⟨last, more, same⟩, accepted⟩ := ends
    exact ⟨⟨last, grows.trans more, same⟩, accepted⟩
  · rw [refused]
    rfl

theorem Follows.endsAs {review : α → Except BuildError γ}
    (first : Follows start types operation verdict)
    (rest : ∀ value later, types.Grows later → verdict = .ok value →
      EndsAs (start.withTypes later) (next value) (review value)) :
    EndsAs (start.withTypes types) (operation >>= next) (verdict >>= review) := by
  refine Ends.bind first (fun value after ends => ?_) fun error after refused => ?_
  · obtain ⟨⟨later, grows, rfl⟩, accepted⟩ := ends
    rw [accepted]
    exact rest value later grows accepted
  · rw [refused]
    rfl

theorem follows_pure (value : α) :
    Follows start types (pure value : Construction α) (.ok value) :=
  Ends.pure_iff.2 ⟨⟨types, .refl _, rfl⟩, rfl⟩

theorem follows_throw (error : BuildError) :
    Follows start types (throw error : Construction α) (.error error) :=
  Ends.throw_iff.2 rfl

theorem follows_throw_bind (error : BuildError) :
    Follows start types ((throw error : Construction α) >>= next) (.error error) :=
  Ends.throw_bind rfl

theorem follows_get_bind {next : Builder → Construction α}
    (rest : Follows start types (next (start.withTypes types)) verdict) :
    Follows start types (get >>= next) verdict :=
  Ends.get_bind rest

theorem OnlyReads.follows (onlyReads : OnlyReads operation) :
    Follows start types operation (start.ask operation) := by
  unfold Follows Ends
  rw [onlyReads start types]
  cases start.ask operation with
  | error error => rfl
  | ok value => exact ⟨⟨types, .refl _, rfl⟩, rfl⟩

theorem endsAs_neverFails {value : γ} (neverFails : NeverFails operation) (builder : Builder) :
    EndsAs builder operation (.ok value : Except BuildError γ) :=
  (neverFails builder trivial).mono (fun _ _ _ => ⟨value, rfl⟩) fun _ _ never => never.2.elim

theorem EndsAs.map_ask {builder : Builder} {verdict : Except BuildError Unit}
    (endsAs : EndsAs builder operation verdict) :
    (builder.ask operation).map (fun _ => ()) = verdict := by
  unfold Builder.ask
  rcases endsAs.cases_run with ⟨value, after, ran, known, accepted⟩ | ⟨error, after, ran, refused⟩
  · rw [ran, accepted]
    rfl
  · rw [ran, refused]
    rfl

end

namespace TyPool

theorem get_eq_iff {pool : TyPool} {id : TyId} {ty : Ty} (bound : id < pool.size) :
    pool.get id = ty ↔ pool.get? id = some ty := by
  obtain ⟨held, known⟩ := exists_get?_of_lt_size bound
  rw [get_of_get? known, known, Option.some.injEq]

theorem Distinct.get_inj {pool : TyPool} (distinct : pool.Distinct) {first second : TyId}
    (one : first < pool.size) (other : second < pool.size) :
    pool.get first = pool.get second ↔ first = second := by
  obtain ⟨ty, known⟩ := exists_get?_of_lt_size other
  rw [get_of_get? known, get_eq_iff one, ← known]
  exact ⟨distinct first second one, fun same => by rw [same]⟩

theorem Grows.get_of_lt {before after : TyPool} (grows : before.Grows after) {id : TyId}
    (bound : id < before.size) : after.get id = before.get id := by
  rw [get, get, grows.get?_of_lt bound]

end TyPool

namespace Construction

variable {start : Builder} {types : TyPool} {α β : Type}

theorem internTy_endsAs {ty : Ty} {next : TyId → Construction α} {verdict : Except BuildError β}
    (rest : ∀ id later, types.Grows later → later.find? ty = some id →
      EndsAs (start.withTypes later) (next id) verdict) :
    EndsAs (start.withTypes types) (internTy ty >>= next) verdict :=
  Ends.bind_iff.2 (Ends.modifyGet_iff.2
    (rest _ _ (TyPool.grows_intern types ty) (TyPool.find?_intern types ty)))

theorem internTy_follows {ty : Ty} {next : TyId → Construction α} {verdict : Except BuildError α}
    (rest : ∀ id later, types.Grows later → later.find? ty = some id →
      Follows start later (next id) verdict) :
    Follows start types (internTy ty >>= next) verdict := by
  have grows := TyPool.grows_intern types ty
  refine Ends.bind_iff.2 (Ends.modifyGet_iff.2 ?_)
  refine (rest _ _ grows (TyPool.find?_intern types ty)).mono (fun _ _ ends => ?_)
    fun _ _ refused => refused
  obtain ⟨⟨last, more, same⟩, accepted⟩ := ends
  exact ⟨⟨last, grows.trans more, same⟩, accepted⟩

theorem follows_mismatch (context expected found : String) :
    Follows start types (mismatch context expected found : Construction α)
      (.error (.typeMismatch start.name context expected found)) :=
  moduleName_bind (follows_throw _)

theorem follows_fieldFault (ty : Ty) (field problem : String) :
    Follows start types (fieldFault ty field problem : Construction α)
      (.error (.fieldMismatch start.name ty.text field problem)) :=
  moduleName_bind (follows_throw _)

theorem follows_connectionFault (child port problem : String) :
    Follows start types (connectionFault child port problem : Construction α)
      (.error (.portConnection start.name child port problem)) :=
  moduleName_bind (follows_throw _)

variable (distinct : start.shared.types.Distinct) (grows : start.shared.types.Grows types)

include distinct grows

theorem number_eq_iff {ty : Ty} {expected given : TyId} (interned : types.find? ty = some expected)
    (bound : given < start.shared.types.size) :
    given = expected ↔ start.shared.types.get given = ty :=
  (payload_eq_iff distinct grows interned bound).trans (TyPool.get_eq_iff bound).symm

theorem follows_expectTy {value : Value} {ty : Ty} {expected : TyId} (context : String)
    (interned : types.find? ty = some expected) (bound : value.ty < start.shared.types.size) :
    Follows start types (expectTy value expected context)
      (start.reviewValue value ty context) := by
  have known := number_eq_iff distinct grows interned bound
  unfold expectTy Builder.reviewValue
  refine Ends.ite (fun apart => ?_) fun same => ?_
  · rw [if_neg fun equal => apart (known.2 equal)]
    have asked : types.get expected = ty := TyPool.get_of_find? interned
    refine tyText_bind (tyText_bind ?_)
    simp only [Builder.withTypes]
    rw [asked, grows.get_of_lt bound]
    exact follows_mismatch context _ _
  · rw [if_pos (known.1 (Classical.not_not.1 same))]
    exact follows_pure ()

theorem follows_fillSlots (ty : Ty) {fields : List (String × Value)}
    (known : ∀ field ∈ fields, field.2.ty < start.shared.types.size)
    (slots : List (Option Value)) :
    Follows start types (fillSlots ty fields slots) (start.reviewFields ty fields slots) := by
  induction fields generalizing slots types with
  | nil => exact follows_pure slots
  | cons field rest induction =>
      obtain ⟨name, value⟩ := field
      unfold fillSlots Builder.reviewFields
      rcases ty.field? name with _ | ⟨index, fieldTy⟩
      · exact follows_fieldFault _ _ _
      dsimp only
      by_cases twice : ((slots[index]?).join).isSome
      · rw [if_pos twice, if_pos twice]
        exact Ends.bind_iff.2 (moduleName_bind (Ends.throw_iff.2 rfl))
      rw [if_neg twice, if_neg twice]
      refine internTy_follows fun expected later more interned => ?_
      have grown := grows.trans more
      refine (follows_expectTy distinct grown _ interned (known _ List.mem_cons_self)).bind
        fun _ last further _ => ?_
      exact induction (grown.trans further)
        (fun field member => known field (List.mem_cons_of_mem _ member)) _

theorem follows_matchRole (ty : BundleTy) (flow : Flow) (taken : List Nat) (name : String)
    {channel : ChannelHandle}
    (known : channel.scope = start.scope → channel.payload < start.shared.types.size) :
    Follows start types (matchRole ty flow taken name channel)
      (start.reviewRole ty flow taken name channel) := by
  unfold matchRole Builder.reviewRole
  refine (onlyReads_checkScope _ _).follows.bind fun _ later more accepted => ?_
  have grown := grows.trans more
  have own := ((retables_checkScope _ _ start).of_ask accepted).2
  refine moduleName_bind ?_
  rcases BundleTy.role? name ty with _ | ⟨index, role⟩
  · exact follows_throw _
  dsimp only
  by_cases apart : role.flow ≠ flow
  · rw [if_pos apart, if_pos apart]
    exact follows_throw_bind _
  rw [if_neg apart, if_neg apart]
  by_cases again : taken.contains index
  · rw [if_pos again, if_pos again]
    exact follows_throw_bind _
  rw [if_neg again, if_neg again]
  refine internTy_follows fun expected last further interned => ?_
  have same := number_eq_iff distinct (grown.trans further) interned (known own)
  have asked : last.get expected = role.payload := TyPool.get_of_find? interned
  by_cases other : channel.payload ≠ expected
  · rw [if_pos other, if_pos fun equal => other (same.2 equal)]
    refine tyText_bind (tyText_bind ?_)
    simp only [Builder.withTypes]
    rw [asked, (grown.trans further).get_of_lt (known own)]
    exact follows_throw_bind _
  rw [if_neg other, if_neg (Classical.not_not.2 (same.1 (Classical.not_not.1 other)))]
  refine Ends.get_bind ?_
  by_cases closed : !start.module.isOpen channel.id
  · rw [if_pos closed]
    exact Ends.ite (fun _ => follows_throw_bind _) fun isOpen => absurd closed isOpen
  · rw [if_neg closed]
    exact Ends.ite (fun shut => absurd shut closed) fun _ => follows_pure _

theorem follows_matchEach (ty : BundleTy) (flow : Flow) {channels : List (String × ChannelHandle)}
    (known : ∀ entry ∈ channels, entry.2.scope = start.scope →
      entry.2.payload < start.shared.types.size) (taken : List Nat) :
    Follows start types (matchEach ty flow channels taken)
      (start.reviewEach ty flow channels taken) := by
  induction channels generalizing taken types with
  | nil => exact follows_pure taken
  | cons entry rest induction =>
      obtain ⟨name, channel⟩ := entry
      have first := follows_matchRole distinct grows ty flow taken name
        (known _ List.mem_cons_self)
      refine first.bind fun index later more _ => ?_
      exact induction (grows.trans more)
        (fun entry member => known entry (List.mem_cons_of_mem _ member)) _

theorem follows_matchRoles (ty : BundleTy) (flow : Flow)
    {channels : List (String × ChannelHandle)}
    (known : ∀ entry ∈ channels, entry.2.scope = start.scope →
      entry.2.payload < start.shared.types.size) :
    Follows start types (matchRoles ty flow channels) (start.reviewRoles ty flow channels) := by
  refine (follows_matchEach distinct grows ty flow known []).bind fun positions later _ _ => ?_
  cases (BundleTy.rolesIn ty flow).find? fun role => !channels.any (·.1 = role.name) with
  | some role => exact moduleName_bind (follows_throw _)
  | none => exact follows_pure positions

theorem follows_wirePorts (child : String) {connections : List (String × Value)}
    (known : ∀ entry ∈ connections, entry.2.ty < start.shared.types.size) {ports : List Port}
    (declared : ∀ port ∈ ports, port.ty < start.shared.types.size) :
    Follows start types (wirePorts child connections ports)
      (start.reviewPorts child connections ports) := by
  induction ports generalizing types with
  | nil => exact follows_pure []
  | cons port rest induction =>
      unfold wirePorts Builder.reviewPorts
      refine follows_get_bind ?_
      have names : (start.withTypes types).shared.names = start.shared.names := rfl
      rw [names]
      dsimp only
      rcases filtered : connections.filter (·.1 = start.shared.names.text port.name) with
        _ | ⟨⟨name, value⟩, _ | ⟨second, others⟩⟩ <;> rw [filtered]
      · exact follows_connectionFault _ _ _
      swap
      · exact follows_connectionFault _ _ _
      have connected : (name, value) ∈ connections := by
        have member : (name, value) ∈ connections.filter
            (·.1 = start.shared.names.text port.name) := by
          rw [filtered]
          exact List.mem_cons_self
        exact (List.mem_filter.1 member).1
      have one := known _ connected
      have other := declared _ List.mem_cons_self
      have same := distinct.get_inj one other
      dsimp only
      by_cases apart : value.ty ≠ port.ty
      · rw [if_pos apart, if_pos fun equal => apart (same.1 equal)]
        refine moduleName_bind (tyText_bind (tyText_bind ?_))
        simp only [Builder.withTypes]
        rw [grows.get_of_lt one, grows.get_of_lt other]
        exact follows_throw_bind _
      rw [if_neg apart, if_neg (Classical.not_not.2 (same.2 (Classical.not_not.1 apart)))]
      have rest := induction grows fun port member => declared port (List.mem_cons_of_mem _ member)
      exact rest.bind fun exprs later _ _ => follows_pure _

end Construction

def IgnoresTypes (operation : Construction α) : Prop :=
  ∀ (builder : Builder) (types : TyPool), (builder.withTypes types).ask operation =
    builder.ask operation

namespace Construction

theorem ignoresTypes_reserve (appId : AppId) : IgnoresTypes (reserve appId) := by
  intro builder types
  exact (Builder.judge_eq _ appId).trans (Builder.judge_eq builder appId).symm

theorem ignoresTypes_bind (channel : ChannelHandle) (consumer : Consumer) :
    IgnoresTypes (bind channel consumer) := by
  intro builder types
  have run (builder : Builder) : builder.ask (bind channel consumer) =
      if builder.module.isOpen channel.id then .ok () else .error
        (.channelRebound builder.name) := by
    unfold Builder.ask bind
    rw [Ends.run_get_bind]
    split <;> rfl
  exact (run _).trans (run builder).symm

end Construction

section

variable {start : Builder} {types : TyPool} {operation : Construction α} {next : α → Construction β}
  {verdict : Except BuildError α}

theorem Follows.last (follows : Follows start types operation verdict)
    (neverFails : ∀ value, NeverFails (next value)) :
    EndsAs (start.withTypes types) (operation >>= next) verdict := by
  refine Ends.bind follows (fun value after ends => ?_) fun _ _ refused => refused
  rw [ends.2]
  exact endsAs_neverFails (neverFails value) after

theorem IgnoresTypes.endsAs (ignoresTypes : IgnoresTypes operation)
    (neverFails : ∀ value, NeverFails (next value)) : EndsAs (start.withTypes types)
    (operation >>= next) (start.ask operation) := by
  rw [← ignoresTypes start types]
  refine Ends.bind (.asked operation _) (fun value after ends => ?_) fun _ _ ends => ends.1
  rw [ends.1]
  exact endsAs_neverFails (neverFails value) after

end

theorem endsAs_ask (builder : Builder) (operation : Construction α) :
    EndsAs builder operation (builder.ask operation >>= fun _ => pure ()) := by
  refine (Ends.asked operation builder).mono (fun _ _ ends => ?_) fun _ _ ends => ?_
  · exact ⟨(), by rw [ends.1]; rfl⟩
  · rw [ends.1]
    rfl

theorem EndsAs.results {builder : Builder} {operation : Construction α}
    {verdict : Except BuildError β} (endsAs : EndsAs builder operation verdict)
    (results : α → List Holding) :
    EndsAs builder (operation >>= fun value => pure (results value)) verdict :=
  Ends.bind endsAs (fun _ _ accepted => Ends.pure_iff.2 accepted) fun _ _ refused => refused

/-- The numbers of the types of values are in the table. -/
def Call.Numbered (held : List Holding) (types : TyPool) : Prop :=
  ∀ value, .value value ∈ held → value.ty < types.size

namespace Call

variable {setting : Setting} {elaborate : String → Elaborating ModuleId} {builder : Builder}

section

open Construction

variable (distinct : builder.shared.types.Distinct)

include distinct

theorem endsAs_struct (decls : List (String × Ty)) {fields : List (String × Value)}
    (known : ∀ field ∈ fields, field.2.ty < builder.shared.types.size) :
    EndsAs builder (Construction.struct (.struct decls) fields)
      (review setting elaborate builder (.struct (.struct decls) fields)) := by
  have filled := follows_fillSlots distinct (.refl _) (.struct decls) known
    (List.replicate decls.length none)
  refine filled.endsAs fun slots later _ _ => ?_
  refine (onlyReads_collectSlots _ _ _).follows.endsAs fun exprs last _ _ => ?_
  exact endsAs_neverFails (.bind neverFails_modifyGet fun _ => neverFails_modifyGet) _

theorem endsAs_gate {first second : Value} (what : String) (expr : Expr)
    (one : first.ty < builder.shared.types.size) (other : second.ty < builder.shared.types.size) :
    EndsAs builder
      (do
        let bit ← internTy .bit
        expectTy first bit what
        expectTy second bit what
        addExpr expr bit)
      (builder.reviewValue first .bit what >>= fun _ => builder.reviewValue second .bit what) := by
  refine internTy_endsAs fun bit later grows interned => ?_
  refine (follows_expectTy distinct grows what interned one).endsAs fun _ last more _ => ?_
  exact (follows_expectTy distinct (grows.trans more) what (more.find? interned) other).last
    fun _ => neverFails_modifyGet

theorem endsAs_not {operand : Value} (known : operand.ty < builder.shared.types.size) :
    EndsAs builder (Construction.not operand)
      (review setting elaborate builder (.not operand)) := by
  refine internTy_endsAs fun bit later grows interned => ?_
  exact (follows_expectTy distinct grows "not" interned known).last fun _ => neverFails_modifyGet

theorem endsAs_wrap (payload : Ty) {value valid : Value}
    (one : value.ty < builder.shared.types.size) (other : valid.ty < builder.shared.types.size) :
    EndsAs builder (Construction.wrap payload value valid)
      (review setting elaborate builder (.wrap payload value valid)) := by
  unfold Construction.wrap review
  dsimp only
  by_cases wrong : !payload.isPayload
  · rw [if_pos wrong, if_pos wrong]
    exact Ends.bind_iff.2 (moduleName_bind (Ends.throw_iff.2 rfl))
  rw [if_neg wrong, if_neg wrong]
  refine internTy_endsAs fun ty first grows interned => ?_
  refine (follows_expectTy distinct grows _ interned one).endsAs fun _ second more _ => ?_
  refine internTy_endsAs fun bit third further signal => ?_
  have grown := (grows.trans more).trans further
  refine (follows_expectTy distinct grown _ signal other).last fun _ => ?_
  exact .bind neverFails_modifyGet fun _ => .bind neverFails_modifyGet fun _ => .pure _

theorem endsAs_unwrap (channel : ChannelHandle) {ready : Value}
    (known : ready.ty < builder.shared.types.size) :
    EndsAs builder (Construction.unwrap channel ready)
      (review setting elaborate builder (.unwrap channel ready)) := by
  refine (onlyReads_checkScope _ _).follows.endsAs fun _ first grows _ => ?_
  refine internTy_endsAs fun bit second more interned => ?_
  have grown := grows.trans more
  refine (follows_expectTy distinct grown "ready" interned known).endsAs fun _ third _ _ => ?_
  refine (ignoresTypes_bind _ _).endsAs fun _ => ?_
  exact .bind neverFails_modifyGet fun _ => .bind neverFails_modifyGet fun _ => .pure _

theorem endsAs_call (service : Service) (operation : String) {handle : BundleHandle}
    (appId : AppId)
    (known : handle.scope = builder.scope → handle.ty < builder.shared.types.size) :
    EndsAs builder (Construction.call setting service operation handle appId)
      (review setting elaborate builder (.call service operation handle appId)) := by
  refine (onlyReads_checkScope _ _).follows.endsAs fun _ first one accepted => ?_
  have own := ((retables_checkScope _ _ builder).of_ask accepted).2
  refine (onlyReads_serviceIndex _ _).follows.endsAs fun _ second two _ => ?_
  refine (onlyReads_operationIndex _ _).follows.endsAs fun operationAt third three _ => ?_
  refine (onlyReads_checkHost _ _).follows.endsAs fun _ fourth four _ => ?_
  refine (onlyReads_unservedBundle _).follows.endsAs fun bundle fifth five _ => ?_
  refine internTy_endsAs fun expected last six interned => ?_
  have grows := ((((one.trans two).trans three).trans four).trans five).trans six
  have same := number_eq_iff distinct grows interned (known own)
  have asked := TyPool.get_of_find? interned
  dsimp only
  by_cases apart : expected ≠ handle.ty
  · rw [if_pos apart, if_pos fun equal => apart (same.2 equal).symm]
    refine moduleName_bind (tyText_bind (tyText_bind (Ends.throw_bind ?_)))
    simp only [Builder.withTypes]
    rw [asked, grows.get_of_lt (known own)]
    rfl
  · have equal := (Classical.not_not.1 apart).symm
    rw [if_neg apart, if_neg (Classical.not_not.2 (same.1 equal))]
    exact (ignoresTypes_reserve appId).endsAs fun _ => .bind neverFails_modifyGet fun _ =>
      neverFails_modifyGet

end

open Construction

theorem reviewRoles_of_suited (distinct : builder.shared.types.Distinct) (ty : BundleTy)
    (flow : Flow) {channels : List (String × ChannelHandle)} (usable : Usable builder channels)
    (suited : Suited builder ty flow channels) :
    ∃ positions, builder.reviewRoles ty flow channels = .ok positions := by
  have follows := follows_matchRoles distinct (.refl _) ty flow
    fun entry member => (usable.ready entry member).payload
  have checks := checks_matchRoles ty flow distinct (.refl _) usable.ready
  rcases (follows.and checks).cases_run with ⟨positions, _, -, ends, -⟩ | ⟨_, _, -, -, -, -, wrong⟩
  · exact ⟨positions, ends.2⟩
  · exact absurd suited wrong

theorem ends_matchRoles_review (distinct : builder.shared.types.Distinct) (ty : BundleTy)
    (flow : Flow) {channels : List (String × ChannelHandle)} (usable : Usable builder channels) :
    Ends (matchRoles ty flow channels) builder
      (fun positions after => builder.Retabled after ∧
        (∀ entry ∈ channels, entry.2.scope = builder.scope) ∧
        Matched builder.shared.types ty flow channels positions)
      fun error _ => builder.reviewRoles ty flow channels = .error error := by
  have follows := follows_matchRoles distinct (.refl _) ty flow
    fun entry member => (usable.ready entry member).payload
  have checks := checks_matchRoles ty flow distinct (.refl _) usable.ready
  exact (follows.and checks).mono (fun _ _ ends => ends.2) fun _ _ ends => ends.1

theorem endsAs_pack (distinct : builder.shared.types.Distinct) (ty : BundleTy)
    {channels : List (String × ChannelHandle)} (usable : Usable builder channels) :
    EndsAs builder (Construction.pack ty channels)
      (review setting elaborate builder (.pack ty channels)) := by
  refine (ends_pack_of_matches usable (ends_matchRoles_review distinct ty .toService usable)).mono
    (fun _ _ ends => ?_) fun _ _ refused => ?_
  · obtain ⟨own, positions, matched, -⟩ := ends
    obtain ⟨known, accepted⟩ := reviewRoles_of_suited distinct ty .toService usable
      ⟨own, positions, matched⟩
    exact ⟨(), by rw [review, accepted]; rfl⟩
  · rw [review, refused]
    rfl

theorem endsAs_unpack (distinct : builder.shared.types.Distinct) {ty : BundleTy}
    {handle : BundleHandle} {channels : List (String × ChannelHandle)}
    (awaits : handle.scope = builder.scope → Awaits builder ty handle)
    (usable : Usable builder channels) :
    EndsAs builder (Construction.unpack handle channels)
      (review setting elaborate builder (.unpack handle channels)) := by
  have scope : builder.ask (checkScope handle.scope "bundle") =
      if handle.scope ≠ builder.scope then .error (.foreignHandle builder.name "bundle")
      else .ok () := by
    unfold Builder.ask checkScope
    rw [Ends.run_get_bind]
    split <;> rfl
  have own (same : handle.scope = builder.scope) :
      review setting elaborate builder (.unpack handle channels) =
        builder.reviewRoles ty .fromService channels >>= fun _ => pure () := by
    obtain ⟨bundle, held, unbound, typed, -⟩ := awaits same
    have served : builder.ask (unservedBundle handle) = .ok bundle := by
      rcases ((Ends.asked _ builder).and (ends_unservedBundle held unbound)).cases_run with
        ⟨_, _, -, ⟨served, -⟩, rfl, -⟩ | ⟨_, _, -, -, never⟩
      · exact served
      · exact never.elim
    rw [review, scope, if_neg (Classical.not_not.2 same), served, TyPool.get_of_get? typed]
    rfl
  refine (ends_unpack_of_matches awaits usable (fun apart => ?_) fun same => ?_).mono
    (fun _ _ ends => ?_) fun _ _ refused => refused
  · rw [review, scope, if_pos apart]
    rfl
  · refine (ends_matchRoles_review distinct ty .fromService usable).mono (fun _ _ ends => ends)
      fun _ _ refused => ?_
    rw [own same, refused]
    rfl
  · obtain ⟨⟨same, owned⟩, positions, matched, -⟩ := ends
    obtain ⟨known, accepted⟩ := reviewRoles_of_suited distinct ty .fromService usable
      ⟨owned, positions, matched⟩
    exact ⟨(), by rw [own same, accepted]; rfl⟩

theorem ends_enrol (elaborates : Elaborates False setting elaborate)
    (keepsConsistent : KeepsConsistent setting elaborate)
    (sound : builder.Sound False setting.library.services)
    (distinct : builder.shared.types.Distinct) (child : String) (appId : AppId) :
    Ends (enrol elaborate child appId) builder
      (fun _ after => after.shared.Consistent setting.library.services ∧
        builder.shared.types.Grows after.shared.types) fun _ _ => True := by
  refine Ends.bind (ends_reserve appId builder) (fun _ _ ends => ?_) fun _ _ _ => trivial
  obtain ⟨-, rfl⟩ := ends
  have elaborated : Ends (elaborate child)
      ({ builder with appIds := appId :: builder.appIds } : Builder).shared _ _ :=
    (elaborates child builder.shared sound.shared).and
      (keepsConsistent child builder.shared ⟨sound.shared, distinct⟩)
  refine (ends_onShared elaborated).mono ?_ fun _ _ _ => trivial
  rintro id _ ⟨shared, rfl, ⟨⟨-, grows⟩, -⟩, consistent⟩
  exact ⟨consistent, grows.types⟩

theorem endsAs_instantiate (elaborates : Elaborates False setting elaborate)
    (keepsConsistent : KeepsConsistent setting elaborate)
    (sound : builder.Sound False setting.library.services)
    (distinct : builder.shared.types.Distinct) (child : String) (appId : AppId)
    {connections : List (String × Value)}
    (known : ∀ entry ∈ connections, entry.2.ty < builder.shared.types.size) :
    EndsAs builder (Construction.instantiate elaborate child appId connections)
      (review setting elaborate builder (.instantiate child appId connections)) := by
  have same : Construction.instantiate elaborate child appId connections =
      enrol elaborate child appId >>= adopt child appId connections := (bind_assoc _ _ _).symm
  rw [same]
  have enrols := ends_enrol elaborates keepsConsistent sound distinct child appId
  refine Ends.bind ((Ends.asked _ builder).and enrols) (fun id after ends => ?_) fun _ _ ends => ?_
  swap
  · rw [review, ends.1.1]
    rfl
  obtain ⟨⟨enrolled, entered⟩, consistent, grows⟩ := ends
  rw [review, enrolled, entered]
  refine Ends.get_bind ?_
  dsimp only
  have declared : ∀ port ∈ ((after.shared.modules.get? id).map (·.ports)).getD [],
      port.ty < after.shared.types.size := by
    cases held : after.shared.modules.get? id with
    | none => nofun
    | some module => exact (consistent.sound.modules id module held).placed.ports
  have connected : ∀ entry ∈ connections, entry.2.ty < after.shared.types.size :=
    fun entry member => Nat.lt_of_lt_of_le (known entry member) grows.size_le
  refine (onlyReads_checkConnections _ _ _).follows.endsAs fun _ later more _ => ?_
  refine (follows_wirePorts consistent.distinct more child connected declared).endsAs
    fun _ _ _ _ => ?_
  exact endsAs_neverFails (fun _ _ => Ends.modify_iff.2 trivial) _

/-- Every call comes to what its review says, whatever elaborations of other modules do, as long as
the handles that it is given can be used and the types of its values are in the table. -/
theorem endsAs_review (elaborates : Elaborates False setting elaborate)
    (keepsConsistent : KeepsConsistent setting elaborate)
    (sound : builder.Sound False setting.library.services)
    (distinct : builder.shared.types.Distinct) (call : Call) (spends : Spends call.given builder)
    (known : Numbered call.given builder.shared.types) :
    EndsAs builder (call.run setting elaborate) (call.review setting elaborate builder) := by
  cases call with
  | struct ty fields =>
      cases ty with
      | struct decls =>
          exact (endsAs_struct distinct decls fun field member =>
            known field.2 (List.mem_map.2 ⟨field, member, rfl⟩)).results _
      | _ => exact endsAs_ask builder _
  | and first second =>
      exact (endsAs_gate distinct "and" _ (known first (by simp [given]))
        (known second (by simp [given]))).results _
  | or first second =>
      exact (endsAs_gate distinct "or" _ (known first (by simp [given]))
        (known second (by simp [given]))).results _
  | not operand => exact (endsAs_not distinct (known operand List.mem_cons_self)).results _
  | wrap payload value valid =>
      exact (endsAs_wrap distinct payload (known value (by simp [given]))
        (known valid (by simp [given]))).results _
  | unwrap channel ready =>
      exact (endsAs_unwrap distinct channel (known ready (by simp [given]))).results _
  | pack ty channels => exact (endsAs_pack distinct ty (spends.usable sound)).results _
  | unpack handle channels =>
      obtain ⟨ty, awaits⟩ := spends.awaits sound
      exact (endsAs_unpack distinct awaits (spends.rest.usable sound)).results _
  | call service operation handle appId =>
      refine (endsAs_call distinct service operation appId fun own => ?_).results _
      obtain ⟨bundle, ty, -, -, -, typed⟩ := spends.bundle own
      exact TyPool.lt_size_of_get? typed
  | instantiate child appId connections =>
      exact (endsAs_instantiate elaborates keepsConsistent sound distinct child appId
        fun entry member =>
        known entry.2 (List.mem_map.2 ⟨entry, member, rfl⟩)).results _
  | _ => exact endsAs_ask builder _

end Call

end Elastic
