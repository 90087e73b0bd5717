import Elastic.Proofs.Build.Packing

namespace Elastic

def Elaboration.EndsSound (own : Prop) (services : List Service) (action : Elaborating α)
    (shared : Elaboration) (fact : α → Elaboration → Prop) : Prop :=
  Ends action shared
    (fun value after => (after.Sound own services ∧ shared.Grows after) ∧ fact value after)
    fun _ after => after.Sound own services ∧ shared.Grows after

namespace Construction

variable {own : Prop} {setting : Setting} {builder : Builder}

theorem operation_of_index {service : Service} {name : String} {index : Nat}
    (found : service.operationIndex? name = some index) :
    ∃ operation, service.operations[index]? = some operation ∧
      service.operationIndex? operation.name = some index ∧
      operationBundle service index = operation.bundle := by
  obtain ⟨bound, named, -⟩ := List.findIdx?_eq_some_iff_getElem.1 found
  have held := List.getElem?_eq_getElem bound
  refine ⟨_, held, ?_, ?_⟩
  · rw [of_decide_eq_true named]
    exact found
  · unfold operationBundle
    rw [held]
    rfl

theorem addService_bind {β : Type} {held : ServiceInstance}
    {next : ServiceInstanceId → Construction β} {good : β → Builder → Prop}
    {bad : BuildError → Builder → Prop}
    (rest : Ends (next builder.module.services.size)
      { builder with module :=
        { builder.module with services := builder.module.services.push held } } good bad) :
    Ends (addService held >>= next) builder good bad :=
  Ends.bind_iff.2 (Ends.modifyGet_iff.2 rest)

theorem endsSound_call (sound : builder.Sound own setting.library.services) (service : Service)
    (operation : String) (handle : BundleHandle) (appId : AppId)
    (owned : handle.scope = builder.scope → builder.module.Knows (.bundle handle)) :
    EndsSound own setting.library.services (call setting service operation handle appId) builder
      fun _ _ => True := by
  unfold call
  refine (retables_checkScope _ _ builder).endsSound sound fun _ first retabled sound scope => ?_
  refine (retables_serviceIndex setting service first).endsSound sound
    fun serviceAt second still sound registered => ?_
  refine (retables_operationIndex service operation second).endsSound sound
    fun operationAt third calm sound found => ?_
  refine (retables_checkHost setting service third).endsSound sound fun _ fourth mute sound _ => ?_
  refine (retables_unservedBundle handle fourth).endsSound sound fun bundle fifth _ sound free => ?_
  obtain ⟨rfl, held, unbound⟩ := free
  refine (retables_internTy _ fifth).endsSound sound fun expected sixth silent sound interned => ?_
  refine Ends.ite (fun _ => ?_) fun same => ?_
  · exact moduleName_bind (tyText_bind (tyText_bind
      (Ends.throw_bind (sound.leads (.refl _)))))
  refine (retables_reserve appId sixth).endsSound sound fun _ last hushed sound _ => ?_
  have before : builder.Retabled fifth := ((retabled.trans still).trans calm).trans mute
  have after : fifth.Retabled last := silent.trans hushed
  obtain ⟨operation', inside, first', bundleTy⟩ := operation_of_index found
  obtain ⟨known, present, ty⟩ := owned scope
  rw [← before.module, held] at present
  cases present
  rw [← after.module] at held
  have typed : last.shared.types.get? bundle.ty = some (.bundle operation'.bundle) := by
    rw [ty, ← Classical.not_not.1 same, ← bundleTy]
    exact TyPool.get?_of_find? (hushed.types.find? interned)
  have wired := sound.module.serve ⟨appId, serviceAt, operationAt, handle.id, .server⟩ held unbound
    ⟨service, operation', bundle, Library.getElem?_of_service? registered, inside, first', held,
      typed, nofun⟩ rfl rfl
  refine addService_bind (Ends.modify_iff.2 ⟨?_, trivial⟩)
  exact sound.exchange wired (Nat.le_refl _) (.refl _) (bundlesKept_set held rfl)

theorem endsSound_request (sound : builder.Sound own setting.library.services) (service : Service)
    (operation : String) (appId : AppId) :
    EndsSound own setting.library.services (request setting service operation appId) builder
      fun handle after => builder.Issued after [.bundle handle] := by
  unfold request
  refine (retables_serviceIndex setting service builder).endsSound sound
    fun serviceAt first retabled sound registered => ?_
  refine (retables_operationIndex service operation first).endsSound sound
    fun operationAt second still sound found => ?_
  refine Ends.ite (fun _ => ?_) fun host => ?_
  · exact moduleName_bind (Ends.throw_bind (sound.leads (.refl _)))
  refine (retables_checkHost setting service second).endsSound sound fun _ third calm sound _ => ?_
  refine (retables_reserve appId third).endsSound sound fun _ fourth mute sound _ => ?_
  refine (retables_internTy _ fourth).endsSound sound fun bundleTy fifth silent sound interned => ?_
  refine (retables_roleSlots _ fifth).endsSound sound fun slots last hushed sound slotsOf => ?_
  obtain ⟨slotsOf, empty⟩ := slotsOf
  have before : builder.Retabled last :=
    ((((retabled.trans still).trans calm).trans mute).trans silent).trans hushed
  obtain ⟨operation', inside, first', operationTy⟩ := operation_of_index found
  rw [operationTy] at interned slotsOf
  have typed : last.shared.types.get? bundleTy = some (.bundle operation'.bundle) :=
    TyPool.get?_of_find? (hushed.types.find? interned)
  have placed : (last.module.bundles.push
      ⟨bundleTy, slots, .service last.module.services.size, .unbound⟩).get?
        last.module.bundles.size =
      some ⟨bundleTy, slots, .service last.module.services.size, .unbound⟩ :=
    (Arena.get?_push _ _ _).trans (if_pos rfl)
  refine Ends.get_bind (addService_bind (Ends.modifyGet_iff.2 ⟨?_, ?_⟩))
  · exact sound.exchange (sound.module.request
      ⟨appId, serviceAt, operationAt, last.module.bundles.size, .client⟩ rfl rfl
      ⟨operation'.bundle, typed, slotsOf⟩ empty
      ⟨service, operation', _, Library.getElem?_of_service? registered, inside, first', placed,
        typed, fun _ => Classical.not_not.1 host⟩ rfl rfl)
      (Nat.le_refl _) (.refl _) (bundlesKept_push _ _)
  · exact (Builder.issued_bundle _ _).earlier
      (before.grows.trans ⟨rfl, .refl _, Nat.le_refl _, .refl _, .refl _⟩)

theorem endsSound_addResults (builtin : Nat) (held : Builtin) (tys : List TyId) (position : Nat)
    (builder : Builder) (sound : builder.Sound own setting.library.services)
    (known : builder.module.builtins[builtin]? = some held)
    (fits : position + tys.length ≤ held.results.length) :
    EndsSound own setting.library.services (addResults builtin tys position) builder
      fun values after => ∀ value ∈ values, value.expr < after.module.exprs.size := by
  induction tys generalizing position builder with
  | nil => exact endsSound_pure sound nofun
  | cons ty rest induction =>
      rw [List.length_cons] at fits
      refine EndsSound.bind (endsSound_addExpr sound ty ⟨held, known, by omega⟩ fun _ => nofun)
        fun value first leads added => ?_
      obtain ⟨inside, frame⟩ := added
      have stays : first.module.builtins[builtin]? = some held := by
        rw [frame]
        exact known
      refine EndsSound.bind (induction (position + 1) first leads.sound stays (by omega))
        fun values last more others => ?_
      refine endsSound_pure more.sound ?_
      intro other member
      rcases List.mem_cons.1 member with rfl | later
      · exact Nat.lt_of_lt_of_le inside more.grows.exprs
      · exact others other later

theorem endsSound_builtin (sound : builder.Sound own setting.library.services) (service : Service)
    (appId : AppId) (tag : String) (results : List Ty) (inputs : List Value)
    (reads : own → ∀ input ∈ inputs, input.expr < builder.module.exprs.size) :
    EndsSound own setting.library.services
      (builtin setting service appId tag results inputs) builder fun values after =>
        ∀ value ∈ values, value.expr < after.module.exprs.size := by
  unfold builtin
  refine (retables_serviceIndex setting service builder).endsSound sound
    fun serviceAt first retabled sound registered => ?_
  refine moduleName_bind ?_
  refine Ends.ite (fun _ => Ends.throw_bind (sound.leads (.refl _))) fun provided => ?_
  refine Ends.ite (fun _ => Ends.throw_bind (sound.leads (.refl _))) fun _ => ?_
  refine (retables_reserve appId first).endsSound sound fun _ second still sound _ => ?_
  refine Ends.get_bind ?_
  refine (retables_internTys results second).endsSound sound fun tys third calm sound interned => ?_
  refine (retables_internName tag third).endsSound sound fun ident last mute sound _ => ?_
  have before : builder.Retabled last := ((retabled.trans still).trans calm).trans mute
  let held : Builtin := ⟨appId, serviceAt, ident, tys, inputs.map (·.expr)⟩
  have declared : held.Declared setting.library.services last.shared.types :=
    ⟨⟨service, Library.getElem?_of_service? registered, Classical.not_not.1 provided⟩,
      fun ty member => Nat.lt_of_lt_of_le (interned ty member) mute.types.size_le⟩
  have wired := sound.module.pushBuiltin declared fun values input member => by
    obtain ⟨value, given, rfl⟩ := List.mem_map.1 member
    rw [before.module]
    exact reads values value given
  have leads := sound.exchange wired (Nat.le_refl _) (.refl _) (.refl _)
  have position : second.module.builtins.length = last.module.builtins.length := by
    rw [(calm.trans mute).module]
  refine Ends.bind_iff.2 (Ends.modify_iff.2 ?_)
  refine Ends.mono (endsSound_addResults second.module.builtins.length held tys 0 _ leads.sound ?_
    (Nat.le_of_eq (Nat.zero_add _))) ?_ ?_
  · rw [position]
    exact List.getElem?_concat_length
  · exact fun values after ends => ⟨leads.trans ends.1, ends.2⟩
  · exact fun _ _ ends => leads.trans ends

/-- Elaborations of modules that keep the shared state sound and give finished modules. -/
def Elaborates (own : Prop) (setting : Setting)
    (elaborate : String → Elaborating ModuleId) : Prop :=
  ∀ name (shared : Elaboration), shared.Sound own setting.library.services →
    Elaboration.EndsSound own setting.library.services (elaborate name) shared fun id after =>
      id < after.modules.size

theorem ends_onShared {α : Type} {action : Elaborating α} {good : α → Elaboration → Prop}
    {bad : BuildError → Elaboration → Prop} (ends : Ends action builder.shared good bad) :
    Ends (onShared action) builder
      (fun value after => ∃ shared, after = { builder with shared := shared } ∧ good value shared)
      fun error after => ∃ shared, after = { builder with shared := shared } ∧
        bad error shared := by
  refine (ends.mono ?_ ?_).focus (fun shared => { builder with shared := shared }) rfl
  · exact fun _ shared holds => ⟨shared, rfl, holds⟩
  · exact fun _ shared holds => ⟨shared, rfl, holds⟩

theorem endsSound_onShared {elaborate : String → Elaborating ModuleId}
    (elaborates : Elaborates own setting elaborate)
    (sound : builder.Sound own setting.library.services) (name : String) :
    EndsSound own setting.library.services (onShared (elaborate name)) builder fun id after =>
      id < after.shared.modules.size ∧ after.module = builder.module := by
  have leads {shared : Elaboration} (later : shared.Sound own setting.library.services)
      (grows : builder.shared.Grows shared) :
      builder.Leads own setting.library.services { builder with shared := shared } :=
    ⟨⟨sound.module.grow grows.types grows.modules.size_le, later⟩,
      ⟨rfl, grows, Nat.le_refl _, .refl _, .refl _⟩⟩
  refine (ends_onShared (elaborates name builder.shared sound.shared)).mono ?_ ?_
  · intro id _ facts
    obtain ⟨shared, rfl, ⟨later, grows⟩, bound⟩ := facts
    exact ⟨leads later grows, bound, rfl⟩
  · intro error _ facts
    obtain ⟨shared, rfl, later, grows⟩ := facts
    exact leads later grows

theorem endsSound_instantiate {elaborate : String → Elaborating ModuleId}
    (elaborates : Elaborates own setting elaborate)
    (sound : builder.Sound own setting.library.services) (child : String) (appId : AppId)
    (connections : List (String × Value))
    (reads : own → ∀ entry ∈ connections, entry.2.expr < builder.module.exprs.size) :
    EndsSound own setting.library.services (instantiate elaborate child appId connections) builder
      fun _ _ => True := by
  unfold instantiate
  refine (retables_reserve appId builder).endsSound sound fun _ first retabled sound _ => ?_
  refine EndsSound.bind (endsSound_onShared elaborates sound child)
    fun id second leads finished => ?_
  obtain ⟨bound, frame⟩ := finished
  refine Ends.get_bind ?_
  refine (retables_checkConnections _ _ _ second).endsSound leads.sound
    fun _ third still sound _ => ?_
  refine (retables_wirePorts _ _ _ third).endsSound sound fun wired last calm sound connected => ?_
  have later : second.Retabled last := still.trans calm
  refine Ends.modify_iff.2 ⟨?_, trivial⟩
  refine sound.exchange (sound.module.pushChild ?_ ?_) (Nat.le_refl _) (.refl _) (.refl _)
  · rw [later.modules]
    exact bound
  · intro values input member
    obtain ⟨entry, given, rfl⟩ := connected input member
    rw [later.module, frame, retabled.module]
    exact reads values entry given

end Construction

end Elastic
