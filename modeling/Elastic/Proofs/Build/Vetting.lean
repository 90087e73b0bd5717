import Elastic.Proofs.Build.Provision

namespace Elastic

/-! What the checks of a construction leave for the checks of a finished graph. Identifiers are
well formed and distinct, every bundle has a client, and the services and builtins of a module are
ones that the library declares and the backend can provide. -/

namespace Module

/-- The identifiers of a module are well formed, and none is given twice. -/
structure Identified (module : Module) : Prop where
  distinct : module.appIds.Nodup
  formed : ∀ appId ∈ module.appIds, appId.isWellFormed = true

theorem Identified.add {before after : Module} {appId : AppId} (identified : before.Identified)
    (perm : after.appIds.Perm (appId :: before.appIds)) (formed : appId.isWellFormed = true)
    (fresh : appId ∉ before.appIds) : after.Identified := by
  refine ⟨perm.nodup_iff.2 (List.nodup_cons.2 ⟨fresh, identified.distinct⟩), ?_⟩
  intro other member
  rcases List.mem_cons.1 (perm.mem_iff.1 member) with rfl | inside
  · exact formed
  · exact identified.formed other inside

theorem appIds_pushService (module : Module) (held : ServiceInstance) :
    (Module.appIds { module with services := module.services.push held }).Perm
      (held.appId :: module.appIds) := by
  have listed : (module.services.push held).toList = module.services.toList ++ [held] := by
    simp [Arena.push, Arena.toList]
  simp only [appIds, listed, List.map_append, List.map_cons, List.map_nil, List.append_assoc,
    List.singleton_append]
  rw [← List.append_assoc]
  refine List.perm_middle.trans ?_
  rw [List.append_assoc]

theorem appIds_pushBuiltin (module : Module) (held : Builtin) :
    (Module.appIds { module with builtins := module.builtins ++ [held] }).Perm
      (held.appId :: module.appIds) := by
  simp only [appIds, List.map_append, List.map_cons, List.map_nil, ← List.append_assoc]
  exact List.perm_append_singleton _ _

theorem appIds_pushChild (module : Module) (held : Child) :
    (Module.appIds { module with children := module.children ++ [held] }).Perm
      (held.appId :: module.appIds) := by
  simp only [appIds, List.map_append, List.map_cons, List.map_nil, List.append_assoc,
    List.singleton_append]
  exact List.perm_middle

/-- A module that passes every check but the one for servers. -/
structure Vetted (setting : Setting) (names : Names) (module : Module) : Prop where
  name : ∃ text, names.text? module.name = some text
  ports : ∀ port ∈ module.ports, ∃ text, names.text? port.name = some text
  identified : module.Identified
  clients : ∀ id bundle, module.bundles.get? id = some bundle → bundle.client.isBound = true
  services : ∀ id held, module.services.get? id = some held → ∃ service,
    setting.library.service? service.name = some (held.service, service) ∧
      (service.provider = .host → setting.capabilities.hostChannels = true)
  builtins : ∀ held ∈ module.builtins, ∃ tag, names.text? held.tag = some tag ∧
    setting.capabilities.supports tag = true

variable {setting : Setting} {before after : Names} {module : Module}

theorem Vetted.grow (vetted : module.Vetted setting before) (grows : before.Grows after) :
    module.Vetted setting after where
  name := by
    obtain ⟨text, known⟩ := vetted.name
    exact ⟨text, grows _ _ known⟩
  ports port member := by
    obtain ⟨text, known⟩ := vetted.ports port member
    exact ⟨text, grows _ _ known⟩
  identified := vetted.identified
  clients := vetted.clients
  services := vetted.services
  builtins held member := by
    obtain ⟨tag, known, supported⟩ := vetted.builtins held member
    exact ⟨tag, grows _ _ known, supported⟩

theorem Vetted.numbered (vetted : module.Vetted setting before) (id : ModuleId) :
    Vetted setting before { module with id := id } :=
  ⟨vetted.name, vetted.ports, ⟨vetted.identified.distinct, vetted.identified.formed⟩,
    vetted.clients, vetted.services, vetted.builtins⟩

theorem vetted_empty (id : ModuleId) {name : Ident} {ports : List Port}
    (metadata : Option Metadata) (named : ∃ text, before.text? name = some text)
    (known : ∀ port ∈ ports, ∃ text, before.text? port.name = some text) :
    Vetted setting before { id := id, name := name, ports := ports, metadata := metadata } := by
  have absent {α : Type} (id : Nat) (item : α) : ({} : Arena α).get? id ≠ some item := by
    rw [Arena.get?_empty]
    nofun
  refine ⟨named, known, ⟨.nil, nofun⟩, ?_, ?_, nofun⟩
  · exact fun id bundle held => absurd held (absent id bundle)
  · exact fun id instance' held => absurd held (absent id instance')

end Module

namespace Elaboration

structure Vetted (setting : Setting) (start : Names) (shared : Elaboration) : Prop where
  modules : ∀ id module, shared.modules.get? id = some module →
    module.Vetted setting shared.names
  names : start.Grows shared.names

end Elaboration

namespace Builder

variable {setting : Setting} {start : Names}

structure Vetted (setting : Setting) (start : Names) (builder : Builder) : Prop where
  module : builder.module.Vetted setting builder.shared.names
  reserved : builder.module.appIds ⊆ builder.appIds
  shared : builder.shared.Vetted setting start

theorem Vetted.retabled {before after : Builder} (vetted : before.Vetted setting start)
    (retabled : before.Retabled after) : after.Vetted setting start where
  module := by
    rw [retabled.module]
    exact vetted.module.grow retabled.names
  reserved := by
    rw [retabled.module]
    exact fun _ member => retabled.appIds (vetted.reserved member)
  shared := by
    refine ⟨fun id module held => ?_, vetted.shared.names.trans retabled.names⟩
    rw [retabled.modules] at held
    exact (vetted.shared.modules id module held).grow retabled.names

theorem Vetted.rewire {builder : Builder} (vetted : builder.Vetted setting start)
    (exprs : Arena Expr) (channels : Arena Channel) {bundles : Arena Bundle}
    (clients : ∀ id bundle, bundles.get? id = some bundle → bundle.client.isBound = true) :
    Vetted setting start { builder with module :=
      { builder.module with exprs := exprs, channels := channels, bundles := bundles } } where
  module := { vetted.module with
    identified := ⟨vetted.module.identified.distinct, vetted.module.identified.formed⟩
    clients := clients }
  reserved := vetted.reserved
  shared := vetted.shared

structure Reserves (builder : Builder) (appId : AppId) : Prop where
  formed : appId.isWellFormed = true
  fresh : appId ∉ builder.module.appIds
  reserved : appId ∈ builder.appIds

theorem Reserves.retabled {before after : Builder} {appId : AppId}
    (reserves : before.Reserves appId) (retabled : before.Retabled after) :
    after.Reserves appId := by
  refine ⟨reserves.formed, ?_, retabled.appIds reserves.reserved⟩
  rw [retabled.module]
  exact reserves.fresh

variable {builder : Builder} {appId : AppId}

theorem Vetted.addService (vetted : builder.Vetted setting start) (held : ServiceInstance)
    (reserves : builder.Reserves held.appId) {service : Service}
    (registered : setting.library.service? service.name = some (held.service, service))
    (able : service.provider = .host → setting.capabilities.hostChannels = true) :
    Vetted setting start { builder with module :=
      { builder.module with services := builder.module.services.push held } } := by
  have perm := builder.module.appIds_pushService held
  refine ⟨{ vetted.module with
    identified := vetted.module.identified.add perm reserves.formed reserves.fresh
    services := fun id other known => ?_ }, fun other member => ?_, vetted.shared⟩
  · rw [Arena.get?_push] at known
    split at known
    · cases known
      exact ⟨service, registered, able⟩
    · exact vetted.module.services id other known
  · rcases List.mem_cons.1 (perm.mem_iff.1 member) with rfl | inside
    · exact reserves.reserved
    · exact vetted.reserved inside

theorem Vetted.addBuiltin (vetted : builder.Vetted setting start) {held : Builtin} {tag : String}
    (reserves : builder.Reserves held.appId)
    (named : builder.shared.names.text? held.tag = some tag)
    (supported : setting.capabilities.supports tag = true) :
    Vetted setting start { builder with module :=
      { builder.module with builtins := builder.module.builtins ++ [held] } } := by
  have perm := builder.module.appIds_pushBuiltin held
  refine ⟨{ vetted.module with
    identified := vetted.module.identified.add perm reserves.formed reserves.fresh
    builtins := fun other member => ?_ }, fun other member => ?_, vetted.shared⟩
  · rcases List.mem_append.1 member with old | new
    · exact vetted.module.builtins other old
    · obtain rfl := List.mem_singleton.1 new
      exact ⟨tag, named, supported⟩
  · rcases List.mem_cons.1 (perm.mem_iff.1 member) with rfl | inside
    · exact reserves.reserved
    · exact vetted.reserved inside

theorem Vetted.addChild (vetted : builder.Vetted setting start) {held : Child}
    (reserves : builder.Reserves held.appId) :
    Vetted setting start { builder with module :=
      { builder.module with children := builder.module.children ++ [held] } } := by
  have perm := builder.module.appIds_pushChild held
  refine ⟨{ vetted.module with
    identified := vetted.module.identified.add perm reserves.formed reserves.fresh },
    fun other member => ?_, vetted.shared⟩
  rcases List.mem_cons.1 (perm.mem_iff.1 member) with rfl | inside
  · exact reserves.reserved
  · exact vetted.reserved inside

end Builder

abbrev KeepsVetted (setting : Setting) (start : Names) (operation : Construction α) : Prop :=
  Maintains (Builder.Vetted setting start) operation

namespace Construction

variable {setting : Setting} {start : Names} {builder : Builder} {α β : Type}

theorem keepsVetted_retables {operation : Construction α} {fact : Builder → α → Builder → Prop}
    (retables : ∀ builder, Retables operation builder (fact builder)) :
    KeepsVetted setting start operation :=
  fun builder vetted => Ends.mono (retables builder) (fun _ _ ends => vetted.retabled ends.1)
    fun _ _ retabled => vetted.retabled retabled

theorem keepsVetted_after {operation : Construction α} {next : α → Construction β}
    {middle : α → Builder → Prop} (first : Retables operation builder middle)
    (vetted : builder.Vetted setting start)
    (rest : ∀ value after, builder.Retabled after → after.Vetted setting start →
      middle value after → Ends (next value) after (fun _ later => later.Vetted setting start)
        fun _ later => later.Vetted setting start) :
    Ends (operation >>= next) builder (fun _ later => later.Vetted setting start)
      fun _ later => later.Vetted setting start :=
  first.after vetted.retabled rest

theorem keepsVetted_internTy (ty : Ty) : KeepsVetted setting start (internTy ty) :=
  keepsVetted_retables (retables_internTy ty)

theorem keepsVetted_addExpr (expr : Expr) (ty : TyId) : KeepsVetted setting start
    (addExpr expr ty) :=
  .modifyGet fun _ vetted => vetted.rewire _ _ vetted.module.clients

theorem keepsVetted_addChannel (channel : Channel) : KeepsVetted setting start
    (addChannel channel) :=
  .modifyGet fun _ vetted => vetted.rewire _ _ vetted.module.clients

theorem keepsVetted_setBundle (id : BundleId) (bundle : Bundle)
    (client : bundle.client.isBound = true) : KeepsVetted setting start (setBundle id bundle) := by
  refine .modify fun builder vetted => vetted.rewire builder.module.exprs builder.module.channels ?_
  intro other held known
  rw [Arena.get?_set] at known
  split at known
  · cases known
    exact client
  · exact vetted.module.clients other held known

theorem keepsVetted_addBundle {bundle : Bundle} (client : bundle.client.isBound = true) :
    KeepsVetted setting start (addBundle bundle) := by
  refine .modifyGet fun builder vetted =>
    vetted.rewire builder.module.exprs builder.module.channels ?_
  intro id held known
  rw [Arena.get?_push] at known
  split at known
  · cases known
    exact client
  · exact vetted.module.clients id held known

theorem keepsVetted_moduleName : KeepsVetted setting start moduleName :=
  .get_bind fun _ => .pure _

theorem keepsVetted_mismatch (context expected found : String) :
    KeepsVetted setting start (mismatch context expected found : Construction α) :=
  keepsVetted_moduleName.bind fun _ => .throw _

theorem keepsVetted_fieldFault (ty : Ty) (field problem : String) :
    KeepsVetted setting start (fieldFault ty field problem : Construction α) :=
  keepsVetted_moduleName.bind fun _ => .throw _

theorem keepsVetted_expectTy (value : Value) (ty : TyId) (context : String) :
    KeepsVetted setting start (expectTy value ty context) :=
  keepsVetted_retables (retables_expectTy value ty context)

theorem keepsVetted_port (name : String) : KeepsVetted setting start (port name) := by
  unfold port
  refine .get_bind fun builder => ?_
  split
  · exact .throw _
  · exact keepsVetted_addExpr _ _

theorem keepsVetted_constant (ty : Ty) (value : UInt64) : KeepsVetted setting start
    (constant ty value) := by
  unfold constant
  split
  · refine .ite ?_ ?_
    · exact keepsVetted_moduleName.bind fun _ => .throw_bind _
    · exact (keepsVetted_internTy _).bind fun _ => keepsVetted_addExpr _ _
  · exact keepsVetted_mismatch _ _ _

theorem keepsVetted_bool (value : Bool) : KeepsVetted setting start (bool value) :=
  (keepsVetted_internTy _).bind fun _ => keepsVetted_addExpr _ _

theorem keepsVetted_struct (ty : Ty) (fields : List (String × Value)) :
    KeepsVetted setting start (struct ty fields) := by
  unfold struct
  split
  · refine (keepsVetted_retables (retables_fillSlots _ _ _)).bind fun slots => ?_
    refine (keepsVetted_retables (retables_collectSlots _ _ _)).bind fun exprs => ?_
    exact (keepsVetted_internTy _).bind fun _ => keepsVetted_addExpr _ _
  · exact keepsVetted_mismatch _ _ _

theorem keepsVetted_field (base : Value) (name : String) : KeepsVetted setting start
    (field base name) := by
  unfold field
  refine .get_bind fun builder => ?_
  dsimp only
  split
  · split
    · exact keepsVetted_fieldFault _ _ _
    · exact (keepsVetted_internTy _).bind fun _ => keepsVetted_addExpr _ _
  · exact keepsVetted_mismatch _ _ _

theorem keepsVetted_gate (first second : Value) (what : String) (expr : Expr) :
    KeepsVetted setting start (do
      let bit ← internTy .bit
      expectTy first bit what
      expectTy second bit what
      addExpr expr bit) :=
  (keepsVetted_internTy _).bind fun _ => (keepsVetted_expectTy _ _ _).bind fun _ =>
    (keepsVetted_expectTy _ _ _).bind fun _ => keepsVetted_addExpr _ _

theorem keepsVetted_not (operand : Value) : KeepsVetted setting start (Construction.not operand) :=
  (keepsVetted_internTy _).bind fun _ => (keepsVetted_expectTy _ _ _).bind fun _ =>
    keepsVetted_addExpr _ _

theorem keepsVetted_wrap (payload : Ty) (value valid : Value) :
    KeepsVetted setting start (wrap payload value valid) := by
  have wrapped : KeepsVetted setting start (do
      let ty ← internTy payload
      expectTy value ty "wrapped value"
      let bit ← internTy .bit
      expectTy valid bit "valid"
      let channel ← addChannel ⟨ty, .wrapped value.expr valid.expr, .unbound⟩
      let ready ← addExpr (.channelReady channel.id) bit
      return (channel, ready)) :=
    (keepsVetted_internTy _).bind fun _ => (keepsVetted_expectTy _ _ _).bind fun _ =>
      (keepsVetted_internTy _).bind fun _ => (keepsVetted_expectTy _ _ _).bind fun _ =>
        (keepsVetted_addChannel _).bind fun _ => (keepsVetted_addExpr _ _).bind fun _ => .pure _
  exact .ite ((keepsVetted_mismatch _ _ _).bind fun _ => wrapped) wrapped

theorem keepsVetted_bind (channel : ChannelHandle) (consumer : Consumer) :
    KeepsVetted setting start (bind channel consumer) := by
  refine .get_bind fun builder => .ite (.modify fun builder vetted => ?_) (.throw _)
  dsimp only [Module.consume]
  split
  · exact vetted.rewire _ _ vetted.module.clients
  · exact vetted

theorem keepsVetted_unwrap (channel : ChannelHandle) (ready : Value) :
    KeepsVetted setting start (unwrap channel ready) :=
  (keepsVetted_retables (retables_checkScope _ _)).bind fun _ =>
    (keepsVetted_internTy _).bind fun _ =>
    (keepsVetted_expectTy _ _ _).bind fun _ => (keepsVetted_bind _ _).bind fun _ =>
      (keepsVetted_addExpr _ _).bind fun _ => (keepsVetted_addExpr _ _).bind fun _ => .pure _

theorem keepsVetted_bindRoles (bundle : BundleId) (side : ServiceSide)
    (channels : List (ChannelHandle × Nat)) (slots : List RoleSlot) :
    KeepsVetted setting start (bindRoles bundle side channels slots) := by
  induction channels generalizing slots with
  | nil => exact .pure _
  | cons entry rest induction => exact (keepsVetted_bind _ _).bind fun _ => induction _

theorem keepsVetted_openRoles (bundle : BundleId) (flow : Flow) (side : ServiceSide) (ty : BundleTy)
    (position : Nat) (slots : List RoleSlot) :
    KeepsVetted setting start (openRoles bundle flow side ty position slots) := by
  induction ty generalizing position slots with
  | nil => exact .pure _
  | cons role rest induction =>
      refine .ite ?_ (induction _ _)
      exact (keepsVetted_addChannel _).bind fun _ => (induction _ _).bind fun _ => .pure _

theorem keepsVetted_pack (ty : BundleTy) (channels : List (String × ChannelHandle)) :
    KeepsVetted setting start (pack ty channels) := by
  unfold pack
  refine (keepsVetted_retables (retables_matchRoles _ _ _)).bind fun positions => ?_
  refine (keepsVetted_internTy _).bind fun bundleTy => .get_bind fun builder => ?_
  refine (keepsVetted_retables (retables_roleSlots _)).bind fun slots => ?_
  refine (keepsVetted_bindRoles _ _ _ _).bind fun slots => ?_
  refine (keepsVetted_openRoles _ _ _ _ _ _).bind fun opened => ?_
  exact (keepsVetted_addBundle rfl).bind fun _ => keepsVetted_moduleName.bind fun _ => .pure _

theorem keepsVetted_unservedBundle {handle : BundleHandle} {next : Bundle → Construction β}
    (rest : ∀ bundle, bundle.client.isBound = true → KeepsVetted setting start (next bundle)) :
    KeepsVetted setting start (unservedBundle handle >>= next) :=
  fun builder vetted => keepsVetted_after (retables_unservedBundle handle builder) vetted
    fun bundle after _ vetted found =>
      rest bundle (by
        obtain ⟨rfl, held, -⟩ := found
        exact vetted.module.clients _ _ held) after vetted

theorem keepsVetted_unpack (handle : BundleHandle) (channels : List (String × ChannelHandle)) :
    KeepsVetted setting start (unpack handle channels) := by
  unfold unpack
  refine (keepsVetted_retables (retables_checkScope _ _)).bind fun _ => ?_
  refine keepsVetted_unservedBundle fun _ _ => .get_bind fun builder => ?_
  dsimp only
  split
  · refine (keepsVetted_retables (retables_matchRoles _ _ _)).bind fun positions => ?_
    refine keepsVetted_unservedBundle fun bundle client => ?_
    refine Maintains.bind (keepsVetted_setBundle _ _ client) fun _ => ?_
    refine (keepsVetted_bindRoles _ _ _ _).bind fun slots => ?_
    refine (keepsVetted_openRoles _ _ _ _ _ _).bind fun opened => ?_
    exact Maintains.bind (keepsVetted_setBundle _ _ client) fun _ =>
      keepsVetted_moduleName.bind fun _ => .pure _
  · exact .throw _

theorem retables_reserves (appId : AppId) (vetted : builder.Vetted setting start) :
    Retables (reserve appId) builder fun _ after => after.Reserves appId := by
  refine (retables_reserve appId builder).mono fun _ after retabled facts => ?_
  obtain ⟨formed, fresh, reserved⟩ := facts
  refine ⟨formed, fun member => fresh (vetted.reserved ?_), reserved⟩
  rw [← retabled.module]
  exact member

theorem keepsVetted_call (service : Service) (operation : String) (handle : BundleHandle)
    (appId : AppId) : KeepsVetted setting start (call setting service operation handle appId) := by
  intro builder vetted
  refine keepsVetted_after (retables_checkScope _ _ builder) vetted fun _ first _ vetted _ => ?_
  refine keepsVetted_after (retables_serviceIndex setting service first) vetted
    fun serviceAt second _ vetted registered => ?_
  refine keepsVetted_after (retables_operationIndex service operation second) vetted
    fun operationAt third _ vetted _ => ?_
  refine keepsVetted_after (retables_checkHost setting service third) vetted
    fun _ fourth _ vetted able => ?_
  refine keepsVetted_unservedBundle (fun bundle client fifth vetted => ?_) fourth vetted
  refine keepsVetted_after (retables_internTy _ fifth) vetted fun expected sixth _ vetted _ => ?_
  refine Ends.ite (fun _ => ?_) fun _ => ?_
  · exact moduleName_bind (tyText_bind (tyText_bind (Ends.throw_bind vetted)))
  refine keepsVetted_after (retables_reserves appId vetted) vetted
    fun _ last _ vetted reserves => ?_
  have served := vetted.addService ⟨appId, serviceAt, operationAt, handle.id, .server⟩ reserves
    registered able
  exact addService_bind (keepsVetted_setBundle handle.id
    { bundle with server := .service last.module.services.size } client _ served)

theorem keepsVetted_request (service : Service) (operation : String) (appId : AppId) :
    KeepsVetted setting start (request setting service operation appId) := by
  intro builder vetted
  refine keepsVetted_after (retables_serviceIndex setting service builder) vetted
    fun serviceAt first _ vetted registered => ?_
  refine keepsVetted_after (retables_operationIndex service operation first) vetted
    fun operationAt second _ vetted _ => ?_
  refine Ends.ite (fun _ => moduleName_bind (Ends.throw_bind vetted)) fun _ => ?_
  refine keepsVetted_after (retables_checkHost setting service second) vetted
    fun _ third _ vetted able => ?_
  refine keepsVetted_after (retables_reserves appId vetted) vetted
    fun _ fourth _ vetted reserves => ?_
  refine keepsVetted_after (retables_internTy _ fourth) vetted
    fun bundleTy fifth retabled vetted _ => ?_
  refine keepsVetted_after (retables_roleSlots _ fifth) vetted fun slots last still vetted _ => ?_
  have served := vetted.addService
    ⟨appId, serviceAt, operationAt, last.module.bundles.nextId, .client⟩
    ((reserves.retabled retabled).retabled still) registered able
  exact Ends.get_bind (addService_bind (keepsVetted_addBundle rfl _ served))

theorem keepsVetted_addResults (builtin : Nat) (tys : List TyId) (position : Nat) :
    KeepsVetted setting start (addResults builtin tys position) := by
  induction tys generalizing position with
  | nil => exact .pure _
  | cons ty rest induction =>
      exact (keepsVetted_addExpr _ _).bind fun _ => (induction _).bind fun _ => .pure _

theorem keepsVetted_builtin (service : Service) (appId : AppId) (tag : String) (results : List Ty)
    (inputs : List Value) :
    KeepsVetted setting start (builtin setting service appId tag results inputs) := by
  intro builder vetted
  refine keepsVetted_after (retables_serviceIndex setting service builder) vetted
    fun serviceAt first _ vetted _ => moduleName_bind ?_
  refine Ends.ite (fun _ => Ends.throw_bind vetted) fun _ => ?_
  refine Ends.ite (fun _ => Ends.throw_bind vetted) fun supported => ?_
  refine keepsVetted_after (retables_reserves appId vetted) vetted
    fun _ second _ vetted reserves => ?_
  refine Ends.get_bind ?_
  refine keepsVetted_after (retables_internTys results second) vetted
    fun tys third retabled vetted _ => ?_
  refine keepsVetted_after (retables_internName tag third) vetted
    fun ident last still vetted named => ?_
  refine Ends.bind_iff.2 (Ends.modify_iff.2 (keepsVetted_addResults _ _ _ _ ?_))
  exact vetted.addBuiltin ((reserves.retabled retabled).retabled still) named
    (by simpa using supported)

def ElaboratesVetted (setting : Setting) (elaborate : String → Elaborating ModuleId) : Prop :=
  ∀ name start, Maintains (Elaboration.Vetted setting start) (elaborate name)

theorem keepsVetted_instantiate {elaborate : String → Elaborating ModuleId}
    (elaboratesVetted : ElaboratesVetted setting elaborate) (child : String) (appId : AppId)
    (connections : List (String × Value)) :
    KeepsVetted setting start (instantiate elaborate child appId connections) := by
  intro builder vetted
  refine keepsVetted_after (retables_reserves appId vetted) vetted
    fun _ first _ vetted reserves => ?_
  have elaborated : Ends (onShared (elaborate child)) first
      (fun _ after => after.Vetted setting start ∧ after.Reserves appId)
      fun _ after => after.Vetted setting start := by
    have screened := elaboratesVetted child first.shared.names first.shared
      ⟨vetted.shared.modules, .refl _⟩
    have moved {shared : Elaboration} (later : shared.Vetted setting first.shared.names) :
        Builder.Vetted setting start { first with shared := shared } :=
      ⟨vetted.module.grow later.names, vetted.reserved, later.modules,
        vetted.shared.names.trans later.names⟩
    refine (ends_onShared screened).mono ?_ ?_
    · rintro id _ ⟨shared, rfl, later⟩
      exact ⟨moved later, reserves.formed, reserves.fresh, reserves.reserved⟩
    · rintro error _ ⟨shared, rfl, later⟩
      exact moved later
  refine Ends.bind elaborated (fun id second facts => ?_) fun _ _ vetted => vetted
  obtain ⟨vetted, reserves⟩ := facts
  refine Ends.get_bind ?_
  refine keepsVetted_after (retables_checkConnections _ _ _ second) vetted
    fun _ third retabled vetted _ => ?_
  refine keepsVetted_after (retables_wirePorts _ _ _ third) vetted
    fun wired last still vetted _ => ?_
  exact Ends.modify_iff.2 (vetted.addChild ((reserves.retabled retabled).retabled still))

end Construction

end Elastic
