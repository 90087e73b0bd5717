import Elastic.Proofs.Build.Catalogue
import Elastic.Proofs.Graph.Distinctness

namespace Elastic

/-! What the numbers of names stand for in a generated design. No name has two numbers, and the
slots of a bundle are called what the roles of its type are called. -/

def Spells (names : Names) (ty : BundleTy) (idents : List Ident) : Prop :=
  ∀ (index : Nat) ident, idents[index]? = some ident →
    ∃ role, ty[index]? = some role ∧ names.text? ident = some role.name

theorem Spells.grow {before after : Names} {ty : BundleTy} {idents : List Ident}
    (spells : Spells before ty idents) (grows : before.Grows after) : Spells after ty idents := by
  intro index ident held
  obtain ⟨role, known, text⟩ := spells index ident held
  exact ⟨role, known, grows _ _ text⟩

/-- The slots of a bundle are called what the roles of its type are called. -/
def Bundle.Spelled (names : Names) (types : TyPool) (bundle : Bundle) : Prop :=
  ∃ ty, types.get? bundle.ty = some (.bundle ty) ∧ Spells names ty (bundle.roles.map (·.name))

def Module.Legible (names : Names) (types : TyPool) (module : Module) : Prop :=
  ∀ id bundle, module.bundles.get? id = some bundle → bundle.Spelled names types

theorem Module.Legible.grow {names names' : Names} {types types' : TyPool} {module : Module}
    (legible : module.Legible names types) (grows : names.Grows names')
    (grows' : types.Grows types') : module.Legible names' types' := by
  intro id bundle held
  obtain ⟨ty, known, spells⟩ := legible id bundle held
  exact ⟨ty, grows'.get? known, spells.grow grows⟩

/-- Finished modules are legible, and the tables have grown from earlier ones. -/
structure Elaboration.Legible (names : Names) (types : TyPool)
    (shared : Elaboration) : Prop where
  modules : ∀ id module, shared.modules.get? id = some module →
    module.Legible shared.names shared.types
  names : names.Grows shared.names
  types : types.Grows shared.types

theorem Elaboration.Legible.retable {names names' : Names} {types types' : TyPool}
    {shared : Elaboration} (legible : shared.Legible names types)
    (grows : shared.names.Grows names') (grows' : shared.types.Grows types') :
    Legible names types { shared with names := names', types := types' } :=
  ⟨fun id module held => (legible.modules id module held).grow grows grows',
    legible.names.trans grows, legible.types.trans grows'⟩

namespace Builder

variable {names : Names} {types : TyPool} {builder : Builder}

structure Legible (names : Names) (types : TyPool) (builder : Builder) : Prop where
  module : builder.module.Legible builder.shared.names builder.shared.types
  shared : builder.shared.Legible names types

theorem Legible.retabled {after : Builder} (legible : builder.Legible names types)
    (retabled : builder.Retabled after) : after.Legible names types where
  module := by
    rw [retabled.module]
    exact legible.module.grow retabled.names retabled.types
  shared := by
    refine ⟨fun id module held => ?_, legible.shared.names.trans retabled.names,
      legible.shared.types.trans retabled.types⟩
    rw [retabled.modules] at held
    exact (legible.shared.modules id module held).grow retabled.names retabled.types

theorem Legible.resume {shared : Elaboration} (legible : builder.Legible names types)
    (later : shared.Legible builder.shared.names builder.shared.types) :
    Legible names types { builder with shared := shared } :=
  ⟨legible.module.grow later.names later.types, later.modules,
    legible.shared.names.trans later.names, legible.shared.types.trans later.types⟩

theorem Legible.pushBundle (legible : builder.Legible names types) {bundle : Bundle}
    (spelled : bundle.Spelled builder.shared.names builder.shared.types) :
    (builder.withBundles (builder.module.bundles.push bundle)).Legible names types := by
  refine ⟨fun id held known => ?_, legible.shared⟩
  rw [Builder.withBundles, Arena.get?_push] at known
  split at known
  · cases known
    exact spelled
  · exact legible.module id held known

theorem Legible.setBundle (legible : builder.Legible names types) (id : BundleId)
    {bundle : Bundle} (spelled : bundle.Spelled builder.shared.names builder.shared.types) :
    (builder.withBundles (builder.module.bundles.set id bundle)).Legible names types := by
  refine ⟨fun other held known => ?_, legible.shared⟩
  rw [Builder.withBundles, Arena.get?_set] at known
  split at known
  · cases known
    exact spelled
  · exact legible.module other held known

end Builder

namespace Construction

variable {setting : Setting} {elaborate : String → Elaborating ModuleId}
  {names : Names} {types : TyPool} {builder : Builder} {side : ServiceSide} {β : Type}

theorem spells_roleSlots (ty : BundleTy) (builder : Builder) :
    Retables (roleSlots ty) builder fun slots after =>
      Spells after.shared.names ty (slots.map (·.name)) := by
  induction ty generalizing builder with
  | nil => exact retables_pure nofun
  | cons role rest induction =>
      refine (retables_internName _ builder).bind fun name after _ named => ?_
      refine (retables_internTy _ after).bind fun payload after still _ => ?_
      refine (induction after).bind fun slots later retabled spells => retables_pure ?_
      intro index ident held
      cases index with
      | zero =>
          cases held
          exact ⟨role, rfl, retabled.names _ _ (still.names _ _ named)⟩
      | succ index => exact spells index ident held

theorem name_modify (slots : List RoleSlot) (position : Nat) (channel : ChannelId) :
    (slots.modify position (attach side channel)).map (·.name) = slots.map (·.name) := by
  have attached (slot : RoleSlot) : (attach side channel slot).name = slot.name := by
    cases side <;> rfl
  refine List.ext_getElem? fun index => ?_
  rw [List.getElem?_map, List.getElem?_map, List.getElem?_modify]
  cases slots[index]? with
  | none => rfl
  | some slot => by_cases here : position = index <;> simp [here, attached]

theorem names_bindRoles (bundle : BundleId) (pairs : List (ChannelHandle × Nat))
    (slots : List RoleSlot) (builder : Builder) :
    Ends (bindRoles bundle side pairs slots) builder
      (fun filled after => after.shared = builder.shared ∧
        filled.map (·.name) = slots.map (·.name)) fun _ _ => True := by
  induction pairs generalizing slots builder with
  | nil => exact Ends.pure_iff.2 ⟨rfl, rfl⟩
  | cons pair rest induction =>
      have bound : Ends (bind pair.1 (.bundle bundle pair.2)) builder
          (fun _ after => after.shared = builder.shared) fun _ _ => True :=
        Ends.get_bind (Ends.ite (fun _ => Ends.modify_iff.2 rfl) fun _ => Ends.throw_iff.2 trivial)
      refine Ends.bind bound (fun _ after same => ?_) fun _ _ _ => trivial
      refine (induction _ after).mono (fun filled _ ends => ?_) fun _ _ _ => trivial
      exact ⟨ends.1.trans same, ends.2.trans (name_modify slots pair.2 pair.1.id)⟩

theorem names_openRoles (bundle : BundleId) (flow : Flow) (ty : BundleTy) (position : Nat)
    (slots : List RoleSlot) (builder : Builder) :
    Ends (openRoles bundle flow side ty position slots) builder
      (fun opened after => after.shared = builder.shared ∧
        opened.2.map (·.name) = slots.map (·.name)) fun _ _ => True := by
  induction ty generalizing position slots builder with
  | nil => exact Ends.pure_iff.2 ⟨rfl, rfl⟩
  | cons role rest induction =>
      unfold openRoles
      refine Ends.ite (fun _ => ?_) fun _ => induction _ slots builder
      refine Ends.bind_iff.2 (Ends.modifyGet_iff.2 ?_)
      refine Ends.bind (induction _ _ _) (fun opened _ ends => ?_) fun _ _ _ => trivial
      exact Ends.pure_iff.2 ⟨ends.1, ends.2.trans (name_modify slots position _)⟩

def ElaboratesLegible (elaborate : String → Elaborating ModuleId) : Prop :=
  ∀ name names types, Maintains (Elaboration.Legible names types) (elaborate name)

theorem partInvariant_legible (elaboratesLegible : ElaboratesLegible elaborate) :
    PartInvariant elaborate (fun _ => True) (Builder.Legible names types) fun _ => True where
  internTy ty builder legible := Ends.mono (retables_internTy ty builder)
    (fun _ _ ends => legible.retabled ends.1) fun _ _ retabled =>
      ⟨legible.retabled retabled, trivial⟩
  internName text builder legible := Ends.mono (retables_internName text builder)
    (fun _ _ ends => legible.retabled ends.1) fun _ _ retabled =>
      ⟨legible.retabled retabled, trivial⟩
  appIds _ _ legible := ⟨legible.module, legible.shared⟩
  addExpr _ _ _ legible :=
    Ends.modifyGet_iff.2 ⟨legible.module, legible.shared⟩
  addChannel _ _ _ legible :=
    Ends.modifyGet_iff.2 ⟨legible.module, legible.shared⟩
  addService _ _ legible :=
    Ends.modifyGet_iff.2 ⟨legible.module, legible.shared⟩
  declare _ _ _ legible := ⟨legible.module, legible.shared⟩
  bind channel consumer _ builder legible := by
    refine Ends.get_bind (Ends.ite (fun _ => Ends.modify_iff.2 ⟨?_, legible.shared⟩) fun _ =>
      Ends.throw_iff.2 ⟨legible, trivial⟩)
    dsimp only [Module.consume]
    split
    · exact legible.module
    · exact legible.module
  elaborates name builder legible := by
    have elaborated := elaboratesLegible name builder.shared.names builder.shared.types
      builder.shared ⟨legible.shared.modules, .refl _, .refl _⟩
    refine (ends_onShared elaborated).mono ?_ ?_
    · rintro id _ ⟨shared, rfl, later⟩
      exact legible.resume later
    · rintro error _ ⟨shared, rfl, later⟩
      exact ⟨legible.resume later, trivial⟩
  fresh _ _ := trivial

theorem legible_connect (elaboratesLegible : ElaboratesLegible elaborate) {bundle : BundleId}
    {back : Flow} {ty : BundleTy} {pairs : List (ChannelHandle × Nat)} {slots : List RoleSlot}
    {next : List (String × ChannelHandle) × List RoleSlot → Construction β}
    (legible : builder.Legible names types)
    (rest : ∀ (result : List (String × ChannelHandle) × List RoleSlot) after,
      after.Legible names types → after.shared = builder.shared →
      result.2.map (·.name) = slots.map (·.name) →
      Ends (next result) after (fun _ later => later.Legible names types)
        fun _ later => later.Legible names types) :
    Ends (bindRoles bundle side pairs slots >>= fun slots =>
        openRoles bundle back side ty 0 slots >>= next) builder
      (fun _ later => later.Legible names types)
      fun _ later => later.Legible names types := by
  have partInvariant : PartInvariant elaborate (fun _ => True) (Builder.Legible names types)
      fun _ => True := partInvariant_legible elaboratesLegible
  have binds := partInvariant.bindRoles bundle side pairs slots fun _ _ => trivial
  refine Ends.bind ((binds builder legible).and (names_bindRoles bundle pairs slots builder))
    (fun filled middle ends => ?_) fun _ _ ends => ends.1.1
  obtain ⟨legible, same, named⟩ := ends
  have opens := partInvariant.openRoles bundle back side ty 0 filled
  refine Ends.bind ((opens middle legible).and (names_openRoles bundle back ty 0 filled middle))
    (fun result after ends => ?_) fun _ _ ends => ends.1.1
  obtain ⟨legible, same', named'⟩ := ends
  exact rest result after legible (same'.trans same) (named'.trans named)

theorem legible_pack (elaboratesLegible : ElaboratesLegible elaborate) (ty : BundleTy)
    (channels : List (String × ChannelHandle)) :
    Maintains (Builder.Legible names types) (pack ty channels) := by
  intro builder legible
  refine (retables_matchRoles ty .toService channels builder).after legible.retabled
    fun positions first _ legible _ => ?_
  refine (retables_internTy _ first).after legible.retabled
    fun bundleTy second _ legible interned => ?_
  refine Ends.get_bind ?_
  refine (spells_roleSlots ty second).after legible.retabled
    fun slots third retabled legible spells => ?_
  refine legible_connect elaboratesLegible legible fun result last legible same named => ?_
  refine addBundle_bind (moduleName_bind (Ends.pure_iff.2 (legible.pushBundle ⟨ty, ?_, ?_⟩)))
  · rw [same]
    exact retabled.types.get? (TyPool.get?_of_find? interned)
  · rw [same, named]
    exact spells

theorem legible_unpack (elaboratesLegible : ElaboratesLegible elaborate) (handle : BundleHandle)
    (channels : List (String × ChannelHandle)) :
    Maintains (Builder.Legible names types) (unpack handle channels) := by
  intro builder legible
  refine (retables_checkScope _ _ builder).after legible.retabled fun _ first _ legible _ => ?_
  refine (retables_unservedBundle handle first).after legible.retabled
    fun _ second _ legible _ => ?_
  refine Ends.get_bind ?_
  split
  · refine (retables_matchRoles _ .fromService channels second).after legible.retabled
      fun positions third _ legible _ => ?_
    refine (retables_unservedBundle handle third).after legible.retabled
      fun bundle fourth _ legible found => ?_
    obtain ⟨rfl, held, -⟩ := found
    obtain ⟨ty, known, spells⟩ := legible.module _ bundle held
    refine setBundle_bind ?_
    refine legible_connect elaboratesLegible (legible.setBundle handle.id ⟨ty, known, nofun⟩)
      fun result last legible same named => ?_
    refine setBundle_bind (moduleName_bind (Ends.pure_iff.2
      (legible.setBundle handle.id ⟨ty, ?_, ?_⟩)))
    · rw [same]
      exact known
    · rw [same, named]
      exact spells
  · exact Ends.throw_iff.2 legible

theorem legible_call (service : Service) (operation : String) (handle : BundleHandle)
    (appId : AppId) :
    Maintains (Builder.Legible names types) (call setting service operation handle appId) := by
  intro builder legible
  refine (retables_checkScope _ _ builder).after legible.retabled fun _ first _ legible _ => ?_
  refine (retables_serviceIndex setting service first).after legible.retabled
    fun serviceAt second _ legible _ => ?_
  refine (retables_operationIndex service operation second).after legible.retabled
    fun operationAt third _ legible _ => ?_
  refine (retables_checkHost setting service third).after legible.retabled
    fun _ fourth _ legible _ => ?_
  refine (retables_unservedBundle handle fourth).after legible.retabled
    fun bundle fifth _ legible found => ?_
  obtain ⟨rfl, held, -⟩ := found
  refine (retables_internTy _ fifth).after legible.retabled
    fun expected sixth retabled legible _ => ?_
  refine Ends.ite (fun _ => ?_) fun _ => ?_
  · exact moduleName_bind (tyText_bind (tyText_bind (Ends.throw_bind legible)))
  refine (retables_reserve appId sixth).after legible.retabled fun _ last still legible _ => ?_
  rw [← (retabled.trans still).module] at held
  refine addService_bind (Ends.modify_iff.2 ?_)
  have served : Builder.Legible names types { last with module := { last.module with
      services := last.module.services.push
        ⟨appId, serviceAt, operationAt, handle.id, .server⟩ } } :=
    ⟨legible.module, legible.shared⟩
  exact served.setBundle handle.id (legible.module _ bundle held)

theorem legible_request (service : Service) (operation : String) (appId : AppId) :
    Maintains (Builder.Legible names types) (request setting service operation appId) := by
  intro builder legible
  refine (retables_serviceIndex setting service builder).after legible.retabled
    fun serviceAt first _ legible _ => ?_
  refine (retables_operationIndex service operation first).after legible.retabled
    fun operationAt second _ legible _ => ?_
  refine Ends.ite (fun _ => moduleName_bind (Ends.throw_bind legible)) fun _ => ?_
  refine (retables_checkHost setting service second).after legible.retabled
    fun _ third _ legible _ => ?_
  refine (retables_reserve appId third).after legible.retabled fun _ fourth _ legible _ => ?_
  refine (retables_internTy _ fourth).after legible.retabled
    fun bundleTy fifth _ legible interned => ?_
  refine (spells_roleSlots _ fifth).after legible.retabled
    fun slots last retabled legible spells => ?_
  have served : Builder.Legible names types { last with module := { last.module with
      services := last.module.services.push
        ⟨appId, serviceAt, operationAt, last.module.bundles.nextId, .client⟩ } } :=
    ⟨legible.module, legible.shared⟩
  refine Ends.get_bind (addService_bind (Ends.modifyGet_iff.2 ?_))
  exact served.pushBundle ⟨_, retabled.types.get? (TyPool.get?_of_find? interned), spells⟩

theorem operationInvariant_legible (elaboratesLegible : ElaboratesLegible elaborate) :
    OperationInvariant setting elaborate (Builder.Legible names types) :=
  (partInvariant_legible elaboratesLegible).operationInvariant (legible_pack elaboratesLegible)
    (legible_unpack elaboratesLegible) legible_call legible_request fun _ _ _ legible =>
      ⟨legible.module, legible.shared.modules, legible.shared.names, legible.shared.types⟩

end Construction

namespace Elaboration

variable {setting : Setting} {elaborate : String → Elaborating ModuleId}
  {names : Names} {types : TyPool}

theorem tableInvariant_legible : TableInvariant (Legible names types) :=
  .of_grows (fun _ _ _ legible grows grows' => legible.retable grows grows')
    fun _ _ _ legible => ⟨legible.modules, legible.names, legible.types⟩

theorem legible_constructModule (elaboratesLegible : Construction.ElaboratesLegible elaborate)
    (decl : ModuleDecl) :
    Maintains (Legible names types) (constructModule setting elaborate decl) := by
  intro shared legible
  refine ends_constructModule
    (maintains_declarePorts tableInvariant_legible decl.name decl.ports shared legible) ?_
  intro ports first legible
  have begun := tableInvariant_legible.internName first decl.name legible
  have operationInvariant : OperationInvariant setting elaborate (Builder.Legible names types) :=
    Construction.operationInvariant_legible elaboratesLegible
  refine Ends.mono (operationInvariant.recipe decl.recipe _
    ⟨fun id bundle held => ?_, begun.modules, begun.names, begun.types⟩) ?_ ?_
  · rw [Assembly.begin, Arena.get?_empty] at held
    cases held
  · intro _ after legible
    refine ⟨fun id module held => ?_, legible.shared.names, legible.shared.types⟩
    rw [Elaboration.finish, Arena.get?_push] at held
    split at held
    · cases held
      exact legible.module
    · exact legible.shared.modules id module held
  · exact fun _ after legible => legible.shared

theorem elaboratesLegible_of_each {elaborate : String → Elaborating ModuleId}
    (each : ∀ name shared, True → Ends (elaborate name) shared
      (fun _ after =>
        ∀ names types, shared.Legible names types → after.Legible names types)
      fun _ after =>
        ∀ names types, shared.Legible names types → after.Legible names types) :
    Construction.ElaboratesLegible elaborate :=
  fun name names types shared legible => (each name shared trivial).mono
    (fun _ _ ends => ends names types legible) fun _ _ ends => ends names types legible

theorem elaboratesLegible_elaborate (fuel : Nat) (running : List String) :
    Construction.ElaboratesLegible (Elaboration.elaborate setting fuel running) := by
  refine elaboratesLegible_of_each (ends_elaborate (fun _ => True)
    (fun shared _ after =>
      ∀ names types, shared.Legible names types → after.Legible names types)
    (fun shared _ after =>
      ∀ names types, shared.Legible names types → after.Legible names types)
    (fun _ _ _ _ _ _ legible => legible) (fun _ _ _ _ _ _ legible => legible) ?_ fuel running)
  intro fuel running each decl member shared _
  exact Ends.all fun names => Ends.all fun types => Ends.all fun legible =>
    legible_constructModule (elaboratesLegible_of_each each) decl shared legible

theorem legible_empty : ({} : Elaboration).Legible {} {} := by
  refine ⟨fun id module held => ?_, .refl _, .refl _⟩
  rw [Arena.get?_empty] at held
  cases held

end Elaboration

variable {setting : Setting} {top : String} {graph : Graph}

/-- The modules of a generated graph are legible. -/
theorem legible_of_generate
    (generated : (generate setting top).outcome = .ok graph) {id : ModuleId} {module : Module}
    (held : graph.modules.get? id = some module) :
    module.Legible (generate setting top).names graph.types := by
  have elaboratesLegible : Construction.ElaboratesLegible
      (Elaboration.elaborate setting (setting.library.modules.length + 1) []) :=
    Elaboration.elaboratesLegible_elaborate _ []
  have ends := elaboratesLegible top {} {} {} Elaboration.legible_empty
  obtain ⟨_, shared, legible, names, rfl⟩ := elaborated_of_generate ends generated
  rw [names]
  exact legible.modules id module held

end Elastic
