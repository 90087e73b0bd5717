import Elastic.Proofs.Build.Soundness

namespace Elastic

/-! The checks that come before a declaration. They change nothing but the tables of names and
types and the identifiers that are reserved. -/

structure Suits (builder : Builder) (types : TyPool) (ty : BundleTy) (flow : Flow)
    (channel : ChannelHandle) (position : Nat) : Prop where
  scope : channel.scope = builder.scope
  isOpen : builder.module.isOpen channel.id = true
  role : ∃ role : Role, ty[position]? = some role ∧ role.flow = flow ∧
    types.find? role.payload = some channel.payload

theorem Suits.grow {builder : Builder} {before after : TyPool} {ty : BundleTy} {flow : Flow}
    {channel : ChannelHandle} {position : Nat}
    (suits : Suits builder before ty flow channel position) (grows : before.Grows after) :
    Suits builder after ty flow channel position := by
  obtain ⟨scope, isOpen, role, held, flow, payload⟩ := suits
  exact ⟨scope, isOpen, role, held, flow, grows.find? payload⟩

theorem Suits.transfer {before after : Builder} {types : TyPool} {ty : BundleTy} {flow : Flow}
    {channel : ChannelHandle} {position : Nat}
    (suits : Suits before types ty flow channel position) (scope : after.scope = before.scope)
    (channels : after.module.channels = before.module.channels) :
    Suits after types ty flow channel position := by
  obtain ⟨own, isOpen, role⟩ := suits
  refine ⟨own.trans scope.symm, ?_, role⟩
  unfold Module.isOpen at isOpen ⊢
  rw [channels]
  exact isOpen

theorem BundleTy.getElem?_of_role? {name : String} {ty : BundleTy} {position : Nat} {role : Role}
    (found : BundleTy.role? name ty = some (position, role)) : ty[position]? = some role := by
  induction ty generalizing position with
  | nil => cases found
  | cons first rest induction =>
      unfold BundleTy.role? at found
      split at found
      · cases found
        rfl
      · obtain ⟨⟨before, same⟩, inner, equal⟩ := Option.map_eq_some_iff.1 found
        cases equal
        exact induction inner

theorem Library.getElem?_of_service? {library : Library} {name : String} {index : Nat}
    {service : Service} (found : library.service? name = some (index, service)) :
    library.services[index]? = some service := by
  obtain ⟨position, -, inside⟩ := Option.bind_eq_some_iff.1 found
  obtain ⟨held, known, equal⟩ := Option.map_eq_some_iff.1 inside
  cases equal
  exact known

namespace Construction

variable {α : Type} {builder : Builder} {fact : α → Builder → Prop}

theorem moduleName_bind {β : Type} {next : String → Construction β} {good : β → Builder → Prop}
    {bad : BuildError → Builder → Prop} (rest : Ends (next builder.name) builder good bad) :
    Ends (moduleName >>= next) builder good bad :=
  Ends.bind_iff.2 (Ends.get_bind (Ends.pure_iff.2 rest))

theorem tyText_bind {β : Type} {id : TyId} {next : String → Construction β}
    {good : β → Builder → Prop} {bad : BuildError → Builder → Prop}
    (rest : Ends (next (builder.shared.types.get id).text) builder good bad) :
    Ends (tyText id >>= next) builder good bad :=
  Ends.bind_iff.2 (Ends.get_bind (Ends.pure_iff.2 rest))

theorem retables_mismatch (context expected found : String) :
    Retables (mismatch context expected found) builder fact :=
  moduleName_bind retables_throw

theorem retables_fieldFault (ty : Ty) (field problem : String) :
    Retables (fieldFault ty field problem) builder fact :=
  moduleName_bind retables_throw

theorem retables_connectionFault (child port problem : String) :
    Retables (connectionFault child port problem) builder fact :=
  moduleName_bind retables_throw

theorem retables_internTy (ty : Ty) (builder : Builder) :
    Retables (internTy ty) builder fun id after => after.shared.types.find? ty = some id :=
  Ends.modifyGet_iff.2 ⟨⟨rfl, rfl, TyPool.grows_intern _ _, rfl, rfl, rfl, rfl, .refl _,
    fun _ member => member⟩, TyPool.find?_intern _ _⟩

theorem retables_internName (text : String) (builder : Builder) :
    Retables (internName text) builder fun ident after =>
      after.shared.names.text? ident = some text :=
  Ends.modifyGet_iff.2 ⟨⟨rfl, rfl, .refl _, rfl, rfl, rfl, rfl, Names.grows_intern _ _,
    fun _ member => member⟩, Names.text?_intern _ _⟩

theorem retables_expectTy (value : Value) (ty : TyId) (context : String) (builder : Builder) :
    Retables (expectTy value ty context) builder fun _ _ => value.ty = ty := by
  unfold expectTy
  refine Ends.ite (fun _ => ?_) fun same => retables_pure (Classical.not_not.1 same)
  exact tyText_bind (tyText_bind (retables_mismatch _ _ _))

theorem retables_checkScope (scope : Nat) (what : String) (builder : Builder) :
    Retables (checkScope scope what) builder fun _ _ => scope = builder.scope := by
  unfold checkScope
  refine Ends.get_bind (Ends.ite (fun _ => retables_throw) fun same => retables_pure ?_)
  exact Classical.not_not.1 same

theorem retables_reserve (appId : AppId) (builder : Builder) :
    Retables (reserve appId) builder fun _ after =>
      appId.isWellFormed = true ∧ appId ∉ builder.appIds ∧ appId ∈ after.appIds := by
  unfold reserve
  refine Ends.get_bind (Ends.ite (fun _ => ?_) fun formed => Ends.ite (fun _ => ?_) fun fresh => ?_)
  · exact Ends.throw_bind (.refl builder)
  · exact Ends.throw_bind (.refl builder)
  · refine Ends.set_iff.2 ⟨⟨rfl, rfl, .refl _, rfl, rfl, rfl, rfl, .refl _, ?_⟩, ?_, ?_, ?_⟩
    · exact fun _ member => List.mem_cons_of_mem _ member
    · simpa using formed
    · simpa using fresh
    · exact List.mem_cons_self

theorem retables_serviceIndex (setting : Setting) (service : Service) (builder : Builder) :
    Retables (serviceIndex setting service) builder fun index _ =>
      setting.library.service? service.name = some (index, service) := by
  unfold serviceIndex
  split
  · exact retables_throw
  · rename_i index registered found
    refine Ends.ite (fun same => retables_pure ?_) fun _ => moduleName_bind retables_throw
    rw [found, same]

theorem retables_operationIndex (service : Service) (operation : String) (builder : Builder) :
    Retables (operationIndex service operation) builder fun index _ =>
      service.operationIndex? operation = some index := by
  unfold operationIndex
  split
  · rename_i index found
    exact retables_pure found
  · exact retables_throw

theorem retables_checkHost (setting : Setting) (service : Service) (builder : Builder) :
    Retables (checkHost setting service) builder fun _ _ =>
      service.provider = .host → setting.capabilities.hostChannels = true := by
  unfold checkHost
  refine Ends.ite (fun _ => moduleName_bind retables_throw) fun able => retables_pure fun host => ?_
  simpa [host] using able

theorem retables_fillSlots (ty : Ty) (fields : List (String × Value)) (slots : List (Option Value))
    (builder : Builder) :
    Retables (fillSlots ty fields slots) builder fun filled _ =>
      ∀ value, some value ∈ filled → some value ∈ slots ∨ ∃ name, (name, value) ∈ fields := by
  induction fields generalizing slots builder with
  | nil => exact retables_pure fun value member => .inl member
  | cons field rest induction =>
      obtain ⟨name, given⟩ := field
      unfold fillSlots
      split
      · exact retables_fieldFault _ _ _
      · rename_i index fieldTy found
        dsimp only
        have filling : Retables (do
            expectTy given (← internTy fieldTy) ("field '" ++ name ++ "'")
            fillSlots ty rest (slots.set index (some given))) builder fun filled _ =>
              ∀ value, some value ∈ filled →
                some value ∈ slots ∨ ∃ key, (key, value) ∈ (name, given) :: rest := by
          refine (retables_internTy _ builder).bind fun id after _ _ => ?_
          refine (retables_expectTy _ _ _ after).bind fun _ after _ _ => ?_
          refine (induction _ after).mono fun filled _ _ from_ => ?_
          intro value member
          rcases from_ value member with old | ⟨key, inside⟩
          · rcases List.mem_or_eq_of_mem_set old with before | new
            · exact .inl before
            · cases new
              exact .inr ⟨name, List.mem_cons_self⟩
          · exact .inr ⟨key, List.mem_cons_of_mem _ inside⟩
        refine Ends.ite (fun _ => ?_) fun _ => filling
        exact Retables.bind (@retables_fieldFault _ builder (fun _ _ => False) _ _ _)
          fun _ _ _ never => never.elim

theorem retables_collectSlots (ty : Ty) (slots : List (Option Value)) (fields : List (String × Ty))
    (builder : Builder) :
    Retables (collectSlots ty slots fields) builder fun exprs _ =>
      ∀ expr ∈ exprs, ∃ value : Value, some value ∈ slots ∧ value.expr = expr := by
  induction slots generalizing fields builder with
  | nil => exact retables_pure nofun
  | cons slot rest induction =>
      cases fields with
      | nil => cases slot <;> exact retables_pure nofun
      | cons field fields =>
          cases slot with
          | none => exact retables_fieldFault _ _ _
          | some value =>
              refine (induction fields builder).bind fun exprs after _ collected => retables_pure ?_
              intro expr member
              rcases List.mem_cons.1 member with rfl | inside
              · exact ⟨value, List.mem_cons_self, rfl⟩
              · obtain ⟨held, given, equal⟩ := collected expr inside
                exact ⟨held, List.mem_cons_of_mem _ given, equal⟩

theorem retables_roleSlots (ty : BundleTy) (builder : Builder) :
    Retables (roleSlots ty) builder fun slots after =>
      SlotsOf after.shared.types ty slots ∧ ∀ slot ∈ slots, ∀ side, slot.at? side = none := by
  induction ty generalizing builder with
  | nil => exact retables_pure ⟨⟨rfl, nofun⟩, nofun⟩
  | cons role rest induction =>
      refine (retables_internName _ builder).bind fun name after _ _ => ?_
      refine (retables_internTy _ after).bind fun payload after _ interned => ?_
      refine (induction after).bind fun slots later retabled slotsOf => retables_pure ?_
      obtain ⟨slotsOf, empty⟩ := slotsOf
      refine ⟨⟨by simp [slotsOf.length], ?_⟩, ?_⟩
      · intro index slot held
        cases index with
        | zero =>
            cases held
            exact ⟨role, rfl, rfl, retabled.types.find? interned⟩
        | succ index => exact slotsOf.role index slot held
      · intro slot member side
        rcases List.mem_cons.1 member with rfl | inside
        · cases side <;> rfl
        · exact empty slot inside side

theorem retables_matchRole (ty : BundleTy) (flow : Flow) (taken : List Nat) (name : String)
    (channel : ChannelHandle) (builder : Builder) :
    Retables (matchRole ty flow taken name channel) builder fun index after =>
      index ∉ taken ∧ Suits builder after.shared.types ty flow channel index := by
  unfold matchRole
  refine (retables_checkScope _ _ builder).bind fun _ after retabled scope => ?_
  refine moduleName_bind ?_
  split
  · exact retables_throw
  rename_i index role found
  refine Ends.ite (fun _ => Ends.throw_bind (.refl after)) fun flows => ?_
  refine Ends.ite (fun _ => Ends.throw_bind (.refl after)) fun fresh => ?_
  refine (retables_internTy _ after).bind fun expected later interned known => ?_
  refine Ends.ite (fun _ => ?_) fun same => ?_
  · exact tyText_bind (tyText_bind (Ends.throw_bind (.refl later)))
  refine Ends.get_bind (Ends.ite (fun _ => Ends.throw_bind (.refl later)) fun isOpen => ?_)
  refine retables_pure ⟨by simpa using fresh, scope, ?_, role, ?_, Classical.not_not.1 flows, ?_⟩
  · rw [← retabled.module, ← interned.module]
    simpa using isOpen
  · exact BundleTy.getElem?_of_role? found
  · rw [known, Classical.not_not.1 same]

theorem retables_matchEach (ty : BundleTy) (flow : Flow) (channels : List (String × ChannelHandle))
    (taken : List Nat) (builder : Builder) (distinct : taken.Nodup) :
    Retables (matchEach ty flow channels taken) builder fun positions after =>
      ∃ more, positions = taken ++ more ∧ more.length = channels.length ∧ positions.Nodup ∧
        ∀ pair ∈ (channels.map (·.2)).zip more,
          Suits builder after.shared.types ty flow pair.1 pair.2 := by
  induction channels generalizing taken builder with
  | nil => exact retables_pure ⟨[], by simp, rfl, distinct, nofun⟩
  | cons entry rest induction =>
      obtain ⟨name, channel⟩ := entry
      refine (retables_matchRole ty flow taken name channel builder).bind
        fun index after retabled matched => ?_
      obtain ⟨fresh, suits⟩ := matched
      have extended : (taken ++ [index]).Nodup := by
        rw [List.nodup_append]
        refine ⟨distinct, by simp, ?_⟩
        intro position member other single equal
        rw [List.mem_singleton.1 single] at equal
        exact fresh (equal ▸ member)
      refine (induction (taken ++ [index]) after extended).mono fun positions later grown rest => ?_
      obtain ⟨more, equal, length, nodup, each⟩ := rest
      refine ⟨index :: more, by simp [equal], by simp [length], nodup, ?_⟩
      intro pair member
      rcases List.mem_cons.1 member with rfl | inside
      · exact suits.grow grown.types
      · obtain ⟨scope, isOpen, role⟩ := each pair inside
        exact ⟨scope.trans retabled.scope, by rw [← retabled.module]; exact isOpen, role⟩

theorem retables_matchRoles (ty : BundleTy) (flow : Flow) (channels : List (String × ChannelHandle))
    (builder : Builder) :
    Retables (matchRoles ty flow channels) builder fun positions after =>
      positions.length = channels.length ∧ positions.Nodup ∧
        ∀ pair ∈ (channels.map (·.2)).zip positions,
          Suits builder after.shared.types ty flow pair.1 pair.2 := by
  unfold matchRoles
  refine (retables_matchEach ty flow channels [] builder .nil).bind
    fun positions after _ matched => ?_
  obtain ⟨more, equal, length, nodup, each⟩ := matched
  rw [List.nil_append] at equal
  subst equal
  split
  · exact moduleName_bind retables_throw
  · exact retables_pure ⟨length, nodup, each⟩

theorem retables_unservedBundle (handle : BundleHandle) (builder : Builder) :
    Retables (unservedBundle handle) builder fun bundle after => after = builder ∧
      builder.module.bundles.get? handle.id = some bundle ∧ bundle.server = .unbound := by
  unfold unservedBundle
  refine Ends.get_bind ?_
  split
  · exact retables_throw
  · rename_i bundle held
    refine Ends.ite (fun _ => retables_throw) fun unbound => retables_pure ⟨rfl, held, ?_⟩
    cases server : bundle.server with
    | unbound => rfl
    | «local» => simp [server, BundleEnd.isBound] at unbound
    | service held => simp [server, BundleEnd.isBound] at unbound

theorem retables_internTys (tys : List Ty) (builder : Builder) :
    Retables (internTys tys) builder fun ids after => ∀ id ∈ ids, id < after.shared.types.size := by
  induction tys generalizing builder with
  | nil => exact retables_pure nofun
  | cons ty rest induction =>
      refine (retables_internTy ty builder).bind fun id after _ interned => ?_
      refine (induction after).bind fun ids later retabled known => retables_pure ?_
      intro other member
      rcases List.mem_cons.1 member with rfl | inside
      · exact TyPool.lt_size_of_get? (retabled.types.get? (TyPool.get?_of_find? interned))
      · exact known other inside

theorem retables_checkConnections (child : String) (ports : List Port)
    (connections : List (String × Value)) (builder : Builder) :
    Retables (checkConnections child ports connections) builder fun _ _ => True := by
  induction connections generalizing builder with
  | nil => exact retables_pure trivial
  | cons connection rest induction =>
      obtain ⟨name, value⟩ := connection
      unfold checkConnections
      refine Ends.get_bind (Ends.ite (fun _ => Ends.throw_bind (.refl builder)) fun _ => ?_)
      exact induction builder

theorem retables_wirePorts (child : String) (connections : List (String × Value))
    (ports : List Port) (builder : Builder) :
    Retables (wirePorts child connections ports) builder fun exprs _ =>
      ∀ expr ∈ exprs, ∃ entry ∈ connections, entry.2.expr = expr := by
  induction ports generalizing builder with
  | nil => exact retables_pure nofun
  | cons port rest induction =>
      unfold wirePorts
      refine Ends.get_bind ?_
      dsimp only
      split
      · exact retables_connectionFault _ _ _
      · rename_i name value filtered
        have connected : (name, value) ∈ connections := by
          have member : (name, value) ∈ connections.filter
              (·.1 = builder.shared.names.text port.name) := by
            rw [filtered]
            exact List.mem_cons_self
          exact (List.mem_filter.1 member).1
        refine Ends.ite (fun _ => ?_) fun _ => ?_
        · exact moduleName_bind
            (tyText_bind (tyText_bind (Ends.throw_bind (.refl builder))))
        · refine (induction builder).bind fun exprs after _ wired => retables_pure ?_
          intro expr member
          rcases List.mem_cons.1 member with rfl | inside
          · exact ⟨_, connected, rfl⟩
          · exact wired expr inside
      · exact retables_connectionFault _ _ _

end Construction

end Elastic
