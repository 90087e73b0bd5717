import Elastic.Proofs.Build.HandleRuns

namespace Elastic

/-! Calls that fail. Every call makes its checks before it declares anything, so that a refused call
leaves the module under construction as it was. It takes no identifier in the module either, but for
the call for a child, which takes one before it has seen the child. -/

variable {setting : Setting} {elaborate : String → Elaborating ModuleId}

namespace Builder

/-- The module under construction is as before, and so are the identifiers taken in it. -/
structure Intact (before after : Builder) : Prop where
  name : after.name = before.name
  scope : after.scope = before.scope
  module : after.module = before.module
  appIds : after.appIds = before.appIds

theorem Intact.refl (builder : Builder) : builder.Intact builder := ⟨rfl, rfl, rfl, rfl⟩

def judge (builder : Builder) (appId : AppId) : Except BuildError Unit :=
  ((Construction.reserve appId).run.run builder).1

end Builder

theorem run_reserve (appId : AppId) (builder : Builder) :
    (Construction.reserve appId).run.run builder =
      if !appId.isWellFormed then (.error (.invalidAppId builder.name appId.text), builder)
      else if builder.appIds.contains appId then
        (.error (.duplicateAppId builder.name appId.text), builder)
      else (.ok (), { builder with appIds := appId :: builder.appIds }) := by
  refine Ends.run_eq (Ends.get_bind (Ends.ite (fun malformed => ?_) fun formed => ?_))
  · exact Ends.throw_bind (if_pos malformed).symm
  rw [if_neg formed]
  refine Ends.ite (fun taken => ?_) fun free => ?_
  · exact Ends.throw_bind (if_pos taken).symm
  · exact Ends.set_iff.2 (if_neg free).symm

theorem Builder.judge_eq (builder : Builder) (appId : AppId) :
    builder.judge appId =
      if !appId.isWellFormed then .error (.invalidAppId builder.name appId.text)
      else if builder.appIds.contains appId then .error (.duplicateAppId builder.name appId.text)
      else .ok () := by
  rw [judge, run_reserve]
  split
  · rfl
  split <;> rfl

theorem Builder.judge_eq_ok_iff {builder : Builder} {appId : AppId} :
    builder.judge appId = .ok () ↔ appId.isWellFormed = true ∧ appId ∉ builder.appIds := by
  rw [judge_eq]
  cases appId.isWellFormed <;> simp

theorem ends_reserve (appId : AppId) (builder : Builder) :
    Ends (Construction.reserve appId) builder
      (fun _ after => builder.judge appId = .ok () ∧
        after = { builder with appIds := appId :: builder.appIds })
      fun error after => builder.judge appId = .error error ∧ after = builder := by
  unfold Ends Builder.judge
  rw [run_reserve]
  by_cases formed : appId.isWellFormed
  · by_cases taken : appId ∈ builder.appIds <;> simp [formed, taken]
  · simp [formed]

theorem Builder.Intact.judge {before after : Builder} (intact : before.Intact after)
    (appId : AppId) : after.judge appId = before.judge appId := by
  rw [Builder.judge_eq, Builder.judge_eq, intact.name, intact.appIds]

/-- An operation that leaves a good builder when it fails, and fails with a `fault` only. -/
def FailsSafely (good : Builder → Prop) (fault : BuildError → Prop) (operation : Construction α) :
    Prop :=
  ∀ builder, good builder → Call.Refuses good fault operation builder

section

variable {good : Builder → Prop} {fault : BuildError → Prop} {operation : Construction α}
  {next : α → Construction β}

theorem Preserves.failsSafely (preserves : Preserves good fault operation) :
    FailsSafely good fault operation :=
  fun builder holds => (preserves builder holds).mono (fun _ _ _ => trivial) fun _ _ ends => ends

theorem failsSafely_of_neverFails (neverFails : NeverFails operation) :
    FailsSafely good fault operation :=
  fun builder _ => (neverFails builder trivial).mono (fun _ _ _ => trivial) fun _ _ never =>
    never.2.elim

namespace FailsSafely

theorem bind (first : Preserves good fault operation)
    (rest : ∀ value, FailsSafely good fault (next value)) :
    FailsSafely good fault (operation >>= next) :=
  fun builder holds => Ends.bind (first builder holds)
    (fun value after holds => rest value after holds) fun _ _ badly => badly

theorem get_bind {next : Builder → Construction β}
    (rest : ∀ held, FailsSafely good fault (next held)) : FailsSafely good fault (get >>= next) :=
  fun builder holds => Ends.get_bind (rest builder builder holds)

theorem guard {condition : Prop} [Decidable condition] {refusal : Construction β}
    {next : Construction α} (yes : Preserves good fault refusal)
    (no : FailsSafely good fault next) :
    FailsSafely good fault (if condition then refusal >>= fun _ => next else next) :=
  fun builder holds => Ends.ite (fun _ => bind yes (fun _ => no) builder holds) fun _ =>
    no builder holds

theorem nameGuard {condition : Prop} [Decidable condition] {error : String → BuildError}
    {next : Construction α} (allowed : ∀ name, fault (error name))
    (no : FailsSafely good fault next) :
    FailsSafely good fault (if condition then
      Construction.moduleName >>= fun name =>
        (MonadExcept.throw (error name) : Construction β) >>= fun _ => next
    else next) :=
  fun builder holds => Ends.ite
    (fun _ => Construction.moduleName_bind (Ends.throw_bind ⟨holds, allowed _⟩))
    fun _ => no builder holds

end FailsSafely

theorem neverFails_modifyGet {change : Builder → α × Builder} :
    NeverFails (modifyGet change : Construction α) :=
  fun _ _ => Ends.modifyGet_iff.2 trivial

theorem neverFails_internTys (tys : List Ty) : NeverFails (Construction.internTys tys) := by
  induction tys with
  | nil => exact .pure _
  | cons ty rest induction =>
      exact .bind neverFails_modifyGet fun _ => induction.bind fun _ => .pure _

theorem neverFails_roleSlots (ty : BundleTy) : NeverFails (Construction.roleSlots ty) :=
  fun builder _ => (Construction.ends_roleSlots ty builder).mono (fun _ _ _ => trivial)
    fun _ _ never => never.elim

theorem neverFails_addResults (builtin : Nat) (tys : List TyId) (position : Nat) :
    NeverFails (Construction.addResults builtin tys position) := by
  induction tys generalizing position with
  | nil => exact .pure _
  | cons ty rest induction =>
      exact .bind neverFails_modifyGet fun _ => (induction _).bind fun _ => .pure _

end

namespace CheckInvariant

variable {good : Builder → Prop} {fault : BuildError → Prop}
    (checkInvariant : CheckInvariant good fault)

include checkInvariant

theorem failsSafely_port (name : String) : FailsSafely good fault (Construction.port name) := by
  refine .get_bind fun builder => ?_
  split
  · exact (checkInvariant.refuse id).failsSafely
  · exact failsSafely_of_neverFails neverFails_modifyGet

theorem failsSafely_constant (ty : Ty) (value : UInt64) :
    FailsSafely good fault (Construction.constant ty value) := by
  unfold Construction.constant
  split
  · refine .nameGuard (fun _ => checkInvariant.fresh _ id) ?_
    exact .bind (checkInvariant.internTy _) fun _ => failsSafely_of_neverFails neverFails_modifyGet
  · exact (checkInvariant.mismatch _ _ _).failsSafely

theorem failsSafely_struct (ty : Ty) (fields : List (String × Value)) :
    FailsSafely good fault (Construction.struct ty fields) := by
  unfold Construction.struct
  split
  · refine .bind (checkInvariant.fillSlots _ _ _) fun _ =>
      .bind (checkInvariant.collectSlots _ _ _) fun _ => ?_
    exact .bind (checkInvariant.internTy _) fun _ => failsSafely_of_neverFails neverFails_modifyGet
  · exact (checkInvariant.mismatch _ _ _).failsSafely

theorem failsSafely_field (base : Value) (name : String) :
    FailsSafely good fault (Construction.field base name) := by
  refine .get_bind fun builder => ?_
  dsimp only
  split
  · split
    · exact (checkInvariant.fieldFault _ _ _).failsSafely
    · exact .bind (checkInvariant.internTy _) fun _ =>
        failsSafely_of_neverFails neverFails_modifyGet
  · exact (checkInvariant.mismatch _ _ _).failsSafely

theorem failsSafely_gate (first second : Value) (what : String) (expr : Expr) :
    FailsSafely good fault (do
      let bit ← Construction.internTy .bit
      Construction.expectTy first bit what
      Construction.expectTy second bit what
      Construction.addExpr expr bit) :=
  .bind (checkInvariant.internTy _) fun _ => .bind (checkInvariant.expectTy _ _ _) fun _ =>
    .bind (checkInvariant.expectTy _ _ _) fun _ => failsSafely_of_neverFails neverFails_modifyGet

theorem failsSafely_not (operand : Value) : FailsSafely good fault (Construction.not operand) :=
  .bind (checkInvariant.internTy _) fun _ => .bind (checkInvariant.expectTy _ _ _) fun _ =>
    failsSafely_of_neverFails neverFails_modifyGet

theorem failsSafely_wrap (payload : Ty) (value valid : Value) :
    FailsSafely good fault (Construction.wrap payload value valid) := by
  refine .guard (checkInvariant.mismatch _ _ _) (.bind (checkInvariant.internTy _) fun _ => ?_)
  refine .bind (checkInvariant.expectTy _ _ _) fun _ =>
    .bind (checkInvariant.internTy _) fun _ => ?_
  refine .bind (checkInvariant.expectTy _ _ _) fun _ => failsSafely_of_neverFails ?_
  exact .bind neverFails_modifyGet fun _ => .bind neverFails_modifyGet fun _ => .pure _

theorem failsSafely_request (setting : Setting) (service : Service) (operation : String)
    (appId : AppId) :
    FailsSafely good fault (Construction.request setting service operation appId) := by
  unfold Construction.request
  refine .bind (checkInvariant.serviceIndex _ _) fun _ =>
    .bind (checkInvariant.operationIndex _ _) fun _ => ?_
  refine .nameGuard (fun _ => checkInvariant.fresh _ id)
    (.bind (checkInvariant.checkHost _ _) fun _ => ?_)
  refine fun builder holds => Call.refuses_reserve checkInvariant holds appId ?_
  refine .bind neverFails_modifyGet fun _ => .bind (neverFails_roleSlots _) fun _ =>
    .get_bind fun _ => ?_
  exact .bind neverFails_modifyGet fun _ => neverFails_modifyGet

theorem failsSafely_builtin (setting : Setting) (service : Service) (appId : AppId) (tag : String)
    (results : List Ty) (inputs : List Value) :
    FailsSafely good fault (Construction.builtin setting service appId tag results inputs) := by
  refine .bind (checkInvariant.serviceIndex _ _) fun _ =>
    .bind (.get_bind fun _ => .pure _) fun _ => ?_
  refine .guard (checkInvariant.refuse id) (.guard (checkInvariant.refuse id) ?_)
  refine fun builder holds => Call.refuses_reserve checkInvariant holds appId
    (.get_bind fun _ => ?_)
  refine .bind (neverFails_internTys _) fun _ => .bind neverFails_modifyGet fun _ => ?_
  exact .bind neverFails_modifyGet fun _ => neverFails_addResults _ _ _

end CheckInvariant

theorem Builder.checkInvariant_intact (start : Builder) : CheckInvariant start.Intact
    fun _ => True where
  internTy _ _ intact :=
    Ends.modifyGet_iff.2 ⟨intact.name, intact.scope, intact.module, intact.appIds⟩
  fresh _ _ := trivial

theorem Builder.preserves_onShared (start : Builder) (action : Elaborating α) :
    Preserves start.Intact (fun _ => True) (Construction.onShared action) := by
  intro builder intact
  refine (Construction.ends_onShared (.any _ _)).mono ?_ ?_
  · rintro _ _ ⟨shared, rfl, -⟩
    exact ⟨intact.name, intact.scope, intact.module, intact.appIds⟩
  · rintro _ _ ⟨shared, rfl, -⟩
    exact ⟨⟨intact.name, intact.scope, intact.module, intact.appIds⟩, trivial⟩

namespace Call

/-- The identifiers that a call has taken by the time it fails. The call for a child takes its own
before it looks at the child. -/
def leftover (builder : Builder) : Call → List AppId
  | .instantiate _ appId _ =>
    match builder.judge appId with
    | .ok () => [appId]
    | .error _ => []
  | _ => []

def aftermath (builder : Builder) (call : Call) : Builder :=
  { builder with appIds := call.leftover builder ++ builder.appIds }

theorem ends_instantiate (elaborate : String → Elaborating ModuleId) (child : String)
    (appId : AppId) (connections : List (String × Value)) (builder : Builder) :
    Ends (Construction.instantiate elaborate child appId connections) builder (fun _ _ => True)
      fun _ after => (aftermath builder (.instantiate child appId connections)).Intact after := by
  have checkInvariant := Builder.checkInvariant_intact
    { builder with appIds := appId :: builder.appIds }
  refine Ends.bind (ends_reserve appId builder) (fun _ after ends => ?_) fun error after ends => ?_
  · obtain ⟨free, rfl⟩ := ends
    have taken : aftermath builder (.instantiate child appId connections) =
        { builder with appIds := appId :: builder.appIds } := by
      simp [aftermath, leftover, free]
    rw [taken]
    refine Ends.mono (?_ : Refuses (Builder.Intact _) (fun _ => True) _ _) (fun _ _ _ => trivial)
      fun _ _ ends => ends.1
    refine FailsSafely.bind (Builder.preserves_onShared _ _)
      (fun _ => .get_bind fun _ => ?_) _ (.refl _)
    refine .bind (checkInvariant.checkConnections _ _ _) fun _ => ?_
    exact .bind (checkInvariant.wirePorts _ _ _) fun _ =>
      failsSafely_of_neverFails neverFails_modifyGet
  · obtain ⟨refused, rfl⟩ := ends
    simp only [aftermath, leftover, refused]
    exact .refl after

theorem ends_matchRoles (ty : BundleTy) (flow : Flow) {channels : List (String × ChannelHandle)}
    (distinct : builder.shared.types.Distinct) (usable : Construction.Usable builder channels) :
    Ends (Construction.matchRoles ty flow channels) builder
      (fun positions after => builder.Retabled after ∧
        (∀ entry ∈ channels, entry.2.scope = builder.scope) ∧
        Matched builder.shared.types ty flow channels positions)
      fun _ after => builder.Intact after := by
  have checks := Construction.checks_matchRoles ty flow distinct (.refl _) usable.ready
  have preserves := builder.checkInvariant_intact.matchRoles
    (fun _ => trivial) ty flow channels builder (.refl builder)
  exact (checks.and preserves).mono (fun _ _ ends => ends.1) fun _ _ ends => ends.2.1

/-- A call that fails leaves the builder as it was, but for an identifier that it has taken before.
-/
theorem ends_aftermath (elaborate : String → Elaborating ModuleId)
    (sound : builder.Sound False setting.library.services)
    (distinct : builder.shared.types.Distinct) (call : Call) (spends : Spends call.given builder) :
    Ends (call.run setting elaborate) builder (fun _ _ => True)
      fun _ after => (aftermath builder call).Intact after := by
  have checkInvariant := builder.checkInvariant_intact
  have declined {α : Type} {operation : Construction α} {results : α → List Holding}
      (refuses : Refuses builder.Intact (fun _ => True) operation builder) :
      Ends (operation >>= fun value => pure (results value)) builder (fun _ _ => True)
        fun _ after => builder.Intact after :=
    ends_results (refuses.mono (fun _ _ _ => trivial) fun _ _ ends => ends.1)
  have own := Builder.Intact.refl builder
  cases call with
  | port name => exact declined (checkInvariant.failsSafely_port name builder own)
  | constant ty value => exact declined (checkInvariant.failsSafely_constant ty value builder own)
  | bool value =>
      exact declined
        (failsSafely_of_neverFails (.bind neverFails_modifyGet fun _ => neverFails_modifyGet)
          builder own)
  | struct ty fields => exact declined (checkInvariant.failsSafely_struct ty fields builder own)
  | field base name => exact declined (checkInvariant.failsSafely_field base name builder own)
  | and first second =>
      exact declined (checkInvariant.failsSafely_gate first second "and" _ builder own)
  | or first second =>
      exact declined (checkInvariant.failsSafely_gate first second "or" _ builder own)
  | not operand => exact declined (checkInvariant.failsSafely_not operand builder own)
  | wrap payload value valid =>
      exact declined (checkInvariant.failsSafely_wrap payload value valid builder own)
  | unwrap channel ready =>
      exact declined (refuses_unwrap checkInvariant own channel ready spends.channel)
  | pack ty channels =>
      have usable := spends.usable sound
      have packs := Construction.ends_pack_of_matches usable
        (ends_matchRoles ty .toService distinct usable)
      exact ends_results (packs.mono (fun _ _ _ => trivial) fun _ _ intact => intact)
  | unpack handle channels =>
      obtain ⟨ty, awaits⟩ := spends.awaits sound
      have usable := spends.rest.usable sound
      have unpacks := Construction.ends_unpack_of_matches awaits usable (fun _ => own)
        fun _ => ends_matchRoles ty .fromService distinct usable
      exact ends_results (unpacks.mono (fun _ _ _ => trivial) fun _ _ intact => intact)
  | call service operation handle appId =>
      exact declined (refuses_call setting checkInvariant own service operation handle appId
        spends.bundle)
  | request service operation appId =>
      exact declined
        (checkInvariant.failsSafely_request setting service operation appId builder own)
  | builtin service appId tag results inputs =>
      exact declined
        (checkInvariant.failsSafely_builtin setting service appId tag results inputs builder own)
  | instantiate child appId connections =>
      exact ends_results (ends_instantiate elaborate child appId connections builder)

theorem judge_of_mem_leftover {call : Call} (member : appId ∈ call.leftover builder) :
    builder.judge appId = .ok () := by
  cases call with
  | instantiate child own connections =>
      simp only [leftover] at member
      split at member
      · rename_i free
        rwa [List.mem_singleton.1 member]
      · cases member
  | _ => cases member

theorem judge_aftermath (call : Call) (other : appId ∉ call.leftover builder) :
    (aftermath builder call).judge appId = builder.judge appId := by
  simp [Builder.judge_eq, aftermath, other]

end Call

/-- However a construction came about, as long as it uses each handle once at most, a call that
fails leaves the module under construction as it was, and all handles that it was not given can be
used as before. The same identifiers are taken in the module, so that the identifier of a later call
is judged as if the call had not been made. Only the call for a child keeps its own identifier if
that was to be had, and no later call can have it. -/
theorem refused_calls_leave_the_module {builder : Builder} {unused : List Token}
    (run : Run setting builder unused) (call : Call) (fuel : Nat) (running : List String)
    (affords : builder.Affords unused (Holding.allTokens call.given)) :
    Ends (call.run setting (Elaboration.elaborate setting fuel running)) builder (fun _ _ => True)
      fun _ after =>
        after.module = builder.module ∧ after.appIds = call.leftover builder ++ builder.appIds ∧
        (∀ token, builder.Live token → token.scope = builder.scope →
          token ∉ Holding.allTokens call.given → after.Live token) ∧
        (∀ appId, appId ∉ call.leftover builder → after.judge appId = builder.judge appId) ∧
        ∀ appId ∈ call.leftover builder, builder.judge appId = .ok () ∧
          after.judge appId = .error (.duplicateAppId builder.name appId.text) := by
  have tracked := run.tracked
  rw [← List.append_nil (Holding.allTokens call.given)] at affords
  have spends := tracked.spends affords
  have spares := call.spares (Elaboration.elaborates_unowned fuel running)
    (Elaboration.keepsConsistent_elaborate fuel running) tracked.sound tracked.distinct spends
  have leaves := call.ends_aftermath (Elaboration.elaborate setting fuel running) tracked.sound
    tracked.distinct spends
  refine (leaves.and spares).mono (fun _ _ _ => trivial) fun error after ends => ?_
  obtain ⟨intact, spares, -⟩ := ends
  refine ⟨intact.module, intact.appIds, spares.live, fun appId other => ?_, fun appId own => ?_⟩
  · rw [intact.judge, call.judge_aftermath other]
  · have free := call.judge_of_mem_leftover own
    have formed := (Builder.judge_eq_ok_iff.1 free).1
    refine ⟨free, ?_⟩
    rw [intact.judge, Builder.judge_eq, if_neg (by simp [formed]), if_pos]
    · rfl
    · simp [Call.aftermath, own]

/-- A child that is unknown leaves its identifier taken. -/
theorem unknown_child_keeps_its_identifier :
    ∃ builder error after, Run .bare builder [] ∧ builder.Affords [] [] ∧
      ((Call.instantiate "Leaf" ⟨"x", none⟩ []).run .bare
        (Elaboration.elaborate .bare 0 [])).run.run builder = (.error error, after) ∧
      after.module = builder.module ∧ builder.judge ⟨"x", none⟩ = .ok () ∧
      after.judge ⟨"x", none⟩ = .error (.duplicateAppId "Top" "x") ∧
      after.judge ⟨"y", none⟩ = .ok () := by
  have begun : Run .bare (({} : Elaboration).begun { name := "Top" } []).builder [] := .first rfl
  have affords : (({} : Elaboration).begun { name := "Top" } []).builder.Affords [] [] :=
    Builder.affords_of_count (by simp) _
  have ends := refused_calls_leave_the_module begun (.instantiate "Leaf" ⟨"x", none⟩ []) 0 []
    affords
  rcases ends.cases_run with ⟨results, after, ran, -⟩ | ⟨error, after, ran, ends⟩
  · have failed : (((Call.instantiate "Leaf" ⟨"x", none⟩ []).run .bare
        (Elaboration.elaborate .bare 0 [])).run.run
        (({} : Elaboration).begun { name := "Top" } []).builder).1.toOption = none := by
      decide +kernel
    rw [ran] at failed
    cases failed
  · obtain ⟨module, -, -, others, own⟩ := ends
    obtain ⟨free, taken⟩ := own ⟨"x", none⟩ (by decide +kernel)
    refine ⟨_, error, after, begun, affords, ran, module, free, taken, ?_⟩
    rw [others _ (by decide +kernel)]
    exact Builder.judge_eq_ok_iff.2 (by decide +kernel)

end Elastic
