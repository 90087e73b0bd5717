import Elastic.Proofs.Build.Provision
import Elastic.Proofs.Build.Typing

namespace Elastic

/-! Operations on a typed builder leave it typed, and the values that they give are typed. -/

def Elaboration.Typed (shared : Elaboration) : Prop :=
  ∀ id module, shared.modules.get? id = some module → module.Typed shared.types shared.modules

namespace Builder

structure Typed (builder : Builder) : Prop where
  module : builder.module.Typed builder.shared.types builder.shared.modules
  finished : builder.shared.Typed

/-- A later state is typed, and so is every value of the earlier one. -/
structure Retains (before after : Builder) : Prop where
  typed : after.Typed
  types : before.shared.types.Grows after.shared.types
  module : before.module.Extends after.module

variable {builder before after : Builder}

theorem Retains.trans {first second third : Builder} (one : first.Retains second)
    (other : second.Retains third) : first.Retains third :=
  ⟨other.typed, one.types.trans other.types, one.module.trans other.module⟩

theorem Retains.value (retains : before.Retains after) {value : Value}
    (typed : value.Typed before.shared.types before.module) :
    value.Typed after.shared.types after.module :=
  typed.grow retains.types retains.module

theorem Retabled.extends (retabled : before.Retabled after) :
    before.module.Extends after.module := by
  rw [retabled.module]
  exact .refl _

theorem Typed.retains (typed : before.Typed) (retabled : before.Retabled after) :
    before.Retains after := by
  have same : before.shared.modules.Grows after.shared.modules := by
    rw [retabled.modules]
    exact fun _ _ held => held
  refine ⟨⟨?_, fun id module held => ?_⟩, retabled.types, retabled.extends⟩
  · rw [retabled.module]
    exact typed.module.grow retabled.types same
  · rw [retabled.modules] at held
    exact (typed.finished id module held).grow retabled.types same

theorem Typed.exchange (typed : builder.Typed) {module : Module}
    (fits : module.Typed builder.shared.types builder.shared.modules)
    (keeps : builder.module.Extends module) : builder.Retains { builder with module := module } :=
  ⟨⟨fits, typed.finished⟩, .refl _, keeps⟩

end Builder

namespace Construction

variable {own : Prop} {services : List Service} {setting : Setting} {builder : Builder} {α β : Type}

/-- An operation that leaves a typed builder, however it ends. -/
abbrev EndsTyped (operation : Construction α) (builder : Builder)
    (fact : α → Builder → Prop) : Prop :=
  Ends operation builder (fun value after => builder.Retains after ∧ fact value after)
    fun _ after => builder.Retains after

theorem EndsTyped.since {operation : Construction α} {after : Builder} {fact : α → Builder → Prop}
    (endsTyped : EndsTyped operation after fact) (retains : builder.Retains after) :
    Ends operation after (fun value last => builder.Retains last ∧ fact value last)
      fun _ last => builder.Retains last :=
  Ends.mono endsTyped (fun _ _ ends => ⟨retains.trans ends.1, ends.2⟩) fun _ _ more =>
    retains.trans more

theorem EndsTyped.bind {operation : Construction α} {next : α → Construction β}
    {middle : α → Builder → Prop} {fact : β → Builder → Prop}
    (first : EndsTyped operation builder middle)
      (rest : ∀ value after, builder.Retains after → middle value after →
        EndsTyped (next value) after fact) : EndsTyped (operation >>= next) builder fact :=
  Ends.bind first (fun value after ends => (rest value after ends.1 ends.2).since ends.1)
    fun _ _ retains => retains

theorem retabled_endsTyped {operation : Construction α} {next : α → Construction β}
    {middle : α → Builder → Prop} {fact : β → Builder → Prop}
    (first : Retables operation builder middle) (typed : builder.Typed)
    (rest : ∀ value after, builder.Retabled after → after.Typed → middle value after →
      EndsTyped (next value) after fact) : EndsTyped (operation >>= next) builder fact := by
  refine Ends.bind first (fun value after ends => ?_) fun _ _ retabled => typed.retains retabled
  have retains := typed.retains ends.1
  exact (rest value after ends.1 retains.typed ends.2).since retains

theorem due_retables {operation : Construction α} {fact : α → Builder → Prop}
    (retables : Retables operation builder fact) (typed : builder.Typed) :
    EndsTyped operation builder fact :=
  Ends.mono retables (fun _ _ ends => ⟨typed.retains ends.1, ends.2⟩) fun _ _ retabled =>
    typed.retains retabled

theorem endsTyped_pure {value : α} {fact : α → Builder → Prop} (typed : builder.Typed)
    (held : fact value builder) : EndsTyped (pure value) builder fact :=
  due_retables (retables_pure held) typed

theorem endsTyped_throw {error : BuildError} {fact : α → Builder → Prop} (typed : builder.Typed) :
    EndsTyped (throw error : Construction α) builder fact :=
  due_retables retables_throw typed

abbrev Gives (value : Value) (after : Builder) : Prop :=
  value.Typed after.shared.types after.module

theorem endsTyped_addExpr (typed : builder.Typed) {expr : Expr} {id : TyId} {ty : Ty}
    (known : builder.shared.types.get? id = some ty)
    (fits : ∀ later : Module, builder.module.Extends later →
      later.exprs.get? builder.module.exprs.size = some expr →
      later.HasTy builder.shared.types builder.module.exprs.size ty) :
    EndsTyped (addExpr expr id) builder Gives := by
  have keeps := builder.module.extends_pushExpr expr
  have added := fits { builder.module with exprs := builder.module.exprs.push expr } keeps
    ((Arena.get?_push _ _ _).trans (if_pos rfl))
  exact Ends.modifyGet_iff.2
    ⟨typed.exchange (typed.module.pushExpr added) keeps, ty, known, added⟩

theorem endsTyped_port (typed : builder.Typed) (sound : builder.Sound own services)
    (name : String) : EndsTyped (port name) builder Gives := by
  unfold port
  refine Ends.get_bind ?_
  split
  · exact endsTyped_throw typed
  · rename_i index found
    obtain ⟨ident, -, position⟩ := Option.bind_eq_some_iff.1 found
    obtain ⟨bound, -, -⟩ := List.findIdx?_eq_some_iff_getElem.1 position
    have stands := List.getElem?_eq_getElem bound
    obtain ⟨ty, known⟩ := TyPool.exists_get?_of_lt_size
      (sound.module.placed.ports _ (List.mem_of_getElem? stands))
    dsimp only
    rw [stands]
    refine endsTyped_addExpr typed known fun later keeps held => .port held ?_ known
    rw [keeps.ports]
    exact stands

theorem endsTyped_bits (typed : builder.Typed) (width : UInt32) {value : UInt64}
    (fits : fitsWidth width value = true) :
    EndsTyped (do addExpr (.const value) (← internTy (.bits width))) builder Gives :=
  retabled_endsTyped (retables_internTy _ builder) typed fun _ _ _ typed known =>
    endsTyped_addExpr typed (TyPool.get?_of_find? known) fun _ _ held => .const held fits

theorem endsTyped_constant (typed : builder.Typed) (ty : Ty) (value : UInt64) :
    EndsTyped (constant ty value) builder Gives := by
  unfold constant
  split
  · refine Ends.ite (fun _ => moduleName_bind (Ends.throw_bind ?_)) fun fits => ?_
    · exact typed.retains (.refl _)
    · exact endsTyped_bits typed _ (by simpa using fits)
  · exact due_retables (retables_mismatch _ _ _) typed

theorem endsTyped_bool (typed : builder.Typed) (value : Bool) : EndsTyped
    (bool value) builder Gives := by
  apply endsTyped_bits typed
  cases value <;> decide

structure SlotsFit (types : TyPool) (decls : List (String × Ty)) (slots : List (Option Value)) :
    Prop where
  length : slots.length = decls.length
  filled : ∀ (index : Nat) value decl, slots[index]? = some (some value) →
    decls[index]? = some decl → types.get? value.ty = some decl.2

theorem slotsFit_none (types : TyPool) (decls : List (String × Ty)) :
    SlotsFit types decls (List.replicate decls.length none) := by
  refine ⟨List.length_replicate, fun index value decl held => ?_⟩
  cases (List.mem_replicate.1 (List.mem_of_getElem? held)).2

theorem SlotsFit.grow {before after : TyPool} {decls : List (String × Ty)}
    {slots : List (Option Value)} (fits : SlotsFit before decls slots)
    (grows : before.Grows after) : SlotsFit after decls slots :=
  ⟨fits.length, fun index value decl held known =>
    grows.get? (fits.filled index value decl held known)⟩

theorem SlotsFit.set {types : TyPool} {decls : List (String × Ty)} {slots : List (Option Value)}
    (fits : SlotsFit types decls slots) {index : Nat} {key : String} {ty : Ty} {value : Value}
    (known : decls[index]? = some (key, ty)) (typed : types.get? value.ty = some ty) :
    SlotsFit types decls (slots.set index (some value)) := by
  refine ⟨by rw [List.length_set, fits.length], fun place held decl filled declared => ?_⟩
  rw [List.getElem?_set] at filled
  split at filled
  · rename_i same
    subst same
    rw [known] at declared
    cases declared
    split at filled
    · cases filled
      exact typed
    · cases filled
  · exact fits.filled place held decl filled declared

theorem retables_fillFields (decls : List (String × Ty)) (fields : List (String × Value))
    (slots : List (Option Value)) (builder : Builder)
    (fits : SlotsFit builder.shared.types decls slots) :
    Retables (fillSlots (.struct decls) fields slots) builder fun filled after =>
      SlotsFit after.shared.types decls filled := by
  induction fields generalizing slots builder with
  | nil => exact retables_pure fits
  | cons field rest induction =>
      obtain ⟨name, given⟩ := field
      unfold fillSlots
      split
      · exact retables_fieldFault _ _ _
      · rename_i index fieldTy found
        obtain ⟨key, declared⟩ := Ty.getElem?_of_field? found
        refine Ends.ite (fun _ => Retables.stop (retables_fieldFault _ _ _)) fun _ => ?_
        refine (retables_internTy _ builder).bind fun id after retabled known => ?_
        refine (retables_expectTy _ _ _ after).bind fun _ later still same => ?_
        refine induction _ later ((fits.grow (retabled.types.trans still.types)).set declared ?_)
        rw [same]
        exact still.types.get? (TyPool.get?_of_find? known)

theorem retables_collectFields (ty : Ty) (slots : List (Option Value)) (decls : List (String × Ty))
    (builder : Builder) (length : slots.length = decls.length) :
    Retables (collectSlots ty slots decls) builder fun exprs _ => exprs.length = decls.length ∧
      ∀ (index : Nat) expr, exprs[index]? = some expr →
        ∃ value : Value, slots[index]? = some (some value) ∧ value.expr = expr := by
  induction slots generalizing decls builder with
  | nil =>
      rw [List.eq_nil_of_length_eq_zero length.symm]
      exact retables_pure ⟨rfl, nofun⟩
  | cons slot rest induction =>
      obtain ⟨decl, decls, rfl⟩ := List.exists_cons_of_length_eq_add_one length.symm
      cases slot with
      | none => exact retables_fieldFault _ _ _
      | some value =>
          refine (induction decls builder (Nat.succ.inj length)).bind fun exprs after _ collected =>
            retables_pure ⟨by simp [collected.1], fun index expr held => ?_⟩
          cases index with
          | zero =>
              cases held
              exact ⟨value, rfl, rfl⟩
          | succ index => exact collected.2 index expr held

theorem endsTyped_struct (typed : builder.Typed) (ty : Ty) (fields : List (String × Value))
    (given : ∀ entry ∈ fields, entry.2.Typed builder.shared.types builder.module) :
    EndsTyped (struct ty fields) builder Gives := by
  unfold struct
  split
  · rename_i decls
    have filling : Retables (fillSlots (.struct decls) fields (List.replicate decls.length none))
        builder fun slots after => (∀ value, some value ∈ slots →
          some value ∈ List.replicate decls.length none ∨ ∃ name, (name, value) ∈ fields) ∧
          SlotsFit after.shared.types decls slots :=
      ((retables_fillSlots (.struct decls) fields _ builder).and
        (retables_fillFields decls fields _ builder (slotsFit_none _ _))).mono
        (fun _ _ ends => ⟨ends.1.1, ends.1.2, ends.2.2⟩) fun _ _ ends => ends.1
    refine retabled_endsTyped filling typed fun slots first retabled typed filled => ?_
    obtain ⟨origin, fits⟩ := filled
    refine retabled_endsTyped (retables_collectFields _ slots decls first fits.length) typed
      fun exprs second still typed collected => ?_
    obtain ⟨length, each⟩ := collected
    refine retabled_endsTyped (retables_internTy _ second) typed fun id third calm typed known => ?_
    refine endsTyped_addExpr typed (TyPool.get?_of_find? known) fun later keeps held =>
      .struct held length fun index operand decl inside declared => ?_
    obtain ⟨value, slot, rfl⟩ := each index operand inside
    rcases origin value (List.mem_of_getElem? slot) with empty | ⟨name, entry⟩
    · cases (List.mem_replicate.1 empty).2
    · have before : builder.Retabled third := (retabled.trans still).trans calm
      refine ((given (name, value) entry).grow before.types before.extends).hasTy ?_
        |>.grow (.refl _) keeps
      exact (still.trans calm).types.get? (fits.filled index value decl slot declared)
  · exact due_retables (retables_mismatch _ _ _) typed

theorem endsTyped_field (typed : builder.Typed) (base : Value) (name : String)
    (given : base.Typed builder.shared.types builder.module) : EndsTyped
    (field base name) builder Gives := by
  unfold field
  refine Ends.get_bind ?_
  dsimp only
  split
  · rename_i decls struct
    split
    · exact due_retables (retables_fieldFault _ _ _) typed
    · rename_i index fieldTy found
      rw [struct] at found
      obtain ⟨key, declared⟩ := Ty.getElem?_of_field? found
      obtain ⟨ty, known, carried⟩ := given
      rw [TyPool.get, known] at struct
      cases struct
      refine retabled_endsTyped (retables_internTy _ builder) typed
        fun id after retabled typed interned => ?_
      refine endsTyped_addExpr typed (TyPool.get?_of_find? interned) fun later keeps held => ?_
      exact .field held
        ((carried.grow retabled.types retabled.extends).grow (.refl _) keeps) declared
  · exact due_retables (retables_mismatch _ _ _) typed

theorem bit_of_expect {before after : Builder} {value : Value} {bit : TyId}
    (given : value.Typed before.shared.types before.module) (retabled : before.Retabled after)
    (known : after.shared.types.get? bit = some .bit) (same : value.ty = bit) :
    after.module.HasTy after.shared.types value.expr .bit :=
  (given.grow retabled.types retabled.extends).hasTy (same ▸ known)

theorem endsTyped_gate (typed : builder.Typed) {first second : Value}
    (gate : ExprId → ExprId → Expr) (what : String)
    (rule : ∀ {types : TyPool} {module : Module} {id one other : ExprId},
      module.exprs.get? id = some (gate one other) → module.HasTy types one .bit →
      module.HasTy types other .bit → module.HasTy types id .bit)
    (one : first.Typed builder.shared.types builder.module)
    (other : second.Typed builder.shared.types builder.module) :
    EndsTyped (do
      let bit ← internTy .bit
      expectTy first bit what
      expectTy second bit what
      addExpr (gate first.expr second.expr) bit) builder Gives := by
  refine retabled_endsTyped (retables_internTy _ builder) typed
    fun bit after retabled typed interned => ?_
  refine retabled_endsTyped (retables_expectTy _ _ _ after) typed fun _ later still typed same => ?_
  refine retabled_endsTyped (retables_expectTy _ _ _ later) typed fun _ last calm typed same' => ?_
  have before : builder.Retabled last := (retabled.trans still).trans calm
  have known := (still.trans calm).types.get? (TyPool.get?_of_find? interned)
  refine endsTyped_addExpr typed known fun module keeps held => rule held ?_ ?_
  · exact (bit_of_expect one before known same).grow (.refl _) keeps
  · exact (bit_of_expect other before known same').grow (.refl _) keeps

theorem endsTyped_not (typed : builder.Typed) {operand : Value}
    (given : operand.Typed builder.shared.types builder.module) :
    EndsTyped (Construction.not operand) builder Gives := by
  unfold Construction.not
  refine retabled_endsTyped (retables_internTy _ builder) typed
    fun bit after retabled typed interned => ?_
  refine retabled_endsTyped (retables_expectTy _ _ _ after) typed fun _ later still typed same => ?_
  have known := still.types.get? (TyPool.get?_of_find? interned)
  refine endsTyped_addExpr typed known fun module keeps held => .not held ?_
  exact (bit_of_expect given (retabled.trans still) known same).grow (.refl _) keeps

theorem endsTyped_addChannel (typed : builder.Typed) {channel : Channel}
    (fits : channel.Typed builder.shared.types builder.module) :
    EndsTyped (addChannel channel) builder fun _ _ => True := by
  have kept := channelsKept_push builder.module.channels channel
  refine Ends.modifyGet_iff.2 ⟨typed.exchange (typed.module.rewire builder.module.bundles
    builder.module.services kept fun id held known => ?_) (Module.extends_rewire _ _ kept), trivial⟩
  rw [Arena.get?_push] at known
  split at known
  · cases known
    exact .inr fits
  · exact .inl known

theorem endsTyped_wrap (typed : builder.Typed) (payload : Ty) {value valid : Value}
    (carried : value.Typed builder.shared.types builder.module)
    (offered : valid.Typed builder.shared.types builder.module) :
    EndsTyped (wrap payload value valid) builder fun result after => Gives result.2 after := by
  unfold wrap
  refine Ends.ite (fun _ => ?_) fun _ => ?_
  · exact due_retables (Retables.stop (retables_mismatch _ _ _)) typed
  refine retabled_endsTyped (retables_internTy _ builder) typed
    fun ty first retabled typed interned => ?_
  refine retabled_endsTyped (retables_expectTy _ _ _ first) typed
    fun _ second still typed same => ?_
  refine retabled_endsTyped (retables_internTy _ second) typed
    fun bit third calm typed interned' => ?_
  refine retabled_endsTyped (retables_expectTy _ _ _ third) typed
    fun _ fourth mute typed same' => ?_
  have before : builder.Retabled fourth := ((retabled.trans still).trans calm).trans mute
  have known := ((still.trans calm).trans mute).types.get? (TyPool.get?_of_find? interned)
  have known' := mute.types.get? (TyPool.get?_of_find? interned')
  have fits : Channel.Typed fourth.shared.types fourth.module
      ⟨ty, .wrapped value.expr valid.expr, .unbound⟩ := by
    refine ⟨fun data ready wrapped => ?_, nofun⟩
    cases wrapped
    refine ⟨⟨payload, known, ?_⟩, bit_of_expect offered before known' same'⟩
    exact (carried.grow before.types before.extends).hasTy (same ▸ known)
  refine (endsTyped_addChannel typed fits).bind fun handle fifth retains _ => ?_
  refine (endsTyped_addExpr retains.typed (retains.types.get? known') fun _ _ held =>
    .ready held).bind fun ready last more given => endsTyped_pure more.typed given

theorem endsTyped_bind (typed : builder.Typed) (channel : ChannelHandle) (consumer : Consumer)
    (fits : ∀ ready, consumer = .unwrapped ready →
      builder.module.HasTy builder.shared.types ready .bit) :
    EndsTyped (bind channel consumer) builder fun _ _ => True := by
  unfold bind
  refine Ends.get_bind (Ends.ite (fun _ => Ends.modify_iff.2 ⟨?_, trivial⟩) fun _ =>
    endsTyped_throw typed)
  dsimp only [Module.consume]
  split
  · rename_i carrier present
    have kept : ChannelsKept builder.module.channels
        (builder.module.channels.set channel.id { carrier with consumer := consumer }) :=
      channelsKept_set present rfl
    refine typed.exchange (typed.module.rewire builder.module.bundles builder.module.services kept
      fun id held known => ?_) (Module.extends_rewire _ _ kept)
    rw [Arena.get?_set] at known
    split at known
    · cases known
      exact .inr ⟨(typed.module.channels _ carrier present).driven, fits⟩
    · exact .inl known
  · exact typed.retains (.refl _)

theorem endsTyped_unwrap (typed : builder.Typed) (sound : builder.Sound own services)
    (channel : ChannelHandle) {ready : Value}
    (known : channel.scope = builder.scope → builder.module.Knows (.channel channel))
    (given : ready.Typed builder.shared.types builder.module) :
    EndsTyped (unwrap channel ready) builder fun result after =>
      Gives result.1 after ∧ Gives result.2 after := by
  unfold unwrap
  refine retabled_endsTyped (retables_checkScope _ _ builder) typed
    fun _ first retabled typed scope => ?_
  obtain ⟨carrier, present, payload⟩ := known scope
  obtain ⟨ty, carried⟩ :=
    TyPool.exists_get?_of_lt_size (sound.module.placed.channels _ carrier present)
  refine retabled_endsTyped (retables_internTy _ first) typed
    fun bit second still typed interned => ?_
  refine retabled_endsTyped (retables_expectTy _ _ _ second) typed fun _ third calm typed same => ?_
  have before : builder.Retabled third := (retabled.trans still).trans calm
  have known := calm.types.get? (TyPool.get?_of_find? interned)
  have fits := bit_of_expect given before known same
  refine (endsTyped_bind typed channel (.unwrapped ready.expr) fun _ equal => ?_).bind
    fun _ fourth retains _ => ?_
  · cases equal
    exact fits
  have types := before.types.trans retains.types
  obtain ⟨carrier', present', payload'⟩ :=
    (before.extends.trans retains.module).channels _ carrier present
  have data : fourth.shared.types.get? channel.payload = some ty :=
    types.get? (payload ▸ carried)
  refine (endsTyped_addExpr retains.typed data fun later keeps held => ?_).bind
    fun value fifth more carries => ?_
  · obtain ⟨last, stays, still⟩ := keeps.channels _ carrier' present'
    exact .data held stays (by rw [still, payload', payload]; exact data)
  refine (endsTyped_addExpr more.typed (more.types.get? (retains.types.get? known)) fun _ _ held =>
    .valid held).bind fun valid last final offers => endsTyped_pure final.typed ⟨?_, offers⟩
  exact final.value carries

theorem endsTyped_rebundle (typed : builder.Typed) (bundles : Arena Bundle)
    (held : Arena ServiceInstance) : builder.Retains { builder with module :=
      { builder.module with bundles := bundles, services := held } } :=
  typed.exchange (typed.module.rewire bundles held (.refl _) fun _ _ known => .inl known)
    (Module.extends_rewire _ _ (.refl _))

theorem endsTyped_bindRoles (bundle : BundleId) (side : ServiceSide)
    (channels : List (ChannelHandle × Nat)) (slots : List RoleSlot) (builder : Builder)
    (typed : builder.Typed) : EndsTyped (bindRoles bundle side channels slots) builder
      fun _ _ => True := by
  induction channels generalizing slots builder with
  | nil => exact endsTyped_pure typed trivial
  | cons entry rest induction =>
      refine (endsTyped_bind typed entry.1 (.bundle bundle entry.2) nofun).bind
        fun _ after retains _ => ?_
      exact induction _ after retains.typed

theorem endsTyped_openRoles (bundle : BundleId) (flow : Flow) (side : ServiceSide) (ty : BundleTy)
    (position : Nat) (slots : List RoleSlot) (builder : Builder) (typed : builder.Typed) :
    EndsTyped (openRoles bundle flow side ty position slots) builder fun _ _ => True := by
  induction ty generalizing position slots builder with
  | nil => exact endsTyped_pure typed trivial
  | cons role rest induction =>
      refine Ends.ite (fun _ => ?_) fun _ => induction _ _ builder typed
      have fits (payload : TyId) : Channel.Typed builder.shared.types builder.module
          ⟨payload, .bundle bundle position, .unbound⟩ := ⟨nofun, nofun⟩
      refine (endsTyped_addChannel typed (fits _)).bind fun channel after retains _ => ?_
      exact (induction _ _ after retains.typed).bind fun opened last more _ =>
        endsTyped_pure more.typed trivial

theorem endsTyped_addBundle (typed : builder.Typed) (bundle : Bundle) :
    EndsTyped (addBundle bundle) builder fun _ _ => True :=
  Ends.modifyGet_iff.2
    ⟨endsTyped_rebundle typed (builder.module.bundles.push bundle) builder.module.services, trivial⟩

theorem endsTyped_pack (typed : builder.Typed) (ty : BundleTy)
    (channels : List (String × ChannelHandle)) :
    EndsTyped (pack ty channels) builder fun _ _ => True := by
  unfold pack
  refine retabled_endsTyped (retables_matchRoles _ _ _ builder) typed
    fun positions first _ typed _ => ?_
  refine retabled_endsTyped (retables_internTy _ first) typed fun bundleTy second _ typed _ => ?_
  refine Ends.get_bind ?_
  refine retabled_endsTyped (retables_roleSlots _ second) typed fun slots third _ typed _ => ?_
  refine (endsTyped_bindRoles _ _ _ _ third typed).bind fun slots fourth retains _ => ?_
  refine (endsTyped_openRoles _ _ _ _ _ _ fourth retains.typed).bind fun opened fifth more _ => ?_
  refine (endsTyped_addBundle more.typed _).bind fun handle last final _ => ?_
  exact moduleName_bind (endsTyped_pure final.typed trivial)

theorem endsTyped_setBundle (typed : builder.Typed) (id : BundleId) (bundle : Bundle) :
    EndsTyped (setBundle id bundle) builder fun _ _ => True :=
  Ends.modify_iff.2
    ⟨endsTyped_rebundle typed (builder.module.bundles.set id bundle)
      builder.module.services, trivial⟩

theorem endsTyped_unpack (typed : builder.Typed) (handle : BundleHandle)
    (channels : List (String × ChannelHandle)) :
    EndsTyped (unpack handle channels) builder fun _ _ => True := by
  unfold unpack
  refine retabled_endsTyped (retables_checkScope _ _ builder) typed fun _ first _ typed _ => ?_
  refine retabled_endsTyped (retables_unservedBundle _ first) typed fun _ second _ typed _ => ?_
  refine Ends.get_bind ?_
  split
  · refine retabled_endsTyped (retables_matchRoles _ _ _ second) typed
      fun positions third _ typed _ => ?_
    refine retabled_endsTyped (retables_unservedBundle _ third) typed
      fun bundle fourth _ typed _ => ?_
    refine (endsTyped_setBundle typed _ _).bind fun _ fifth retains _ => ?_
    refine (endsTyped_bindRoles _ _ _ _ fifth retains.typed).bind fun slots sixth retains _ => ?_
    refine (endsTyped_openRoles _ _ _ _ _ _ sixth retains.typed).bind
      fun opened last retains _ => ?_
    refine (endsTyped_setBundle retains.typed _ _).bind fun _ final retains _ => ?_
    exact moduleName_bind (endsTyped_pure retains.typed trivial)
  · exact endsTyped_throw typed

theorem endsTyped_addService (typed : builder.Typed) (held : ServiceInstance) :
    EndsTyped (addService held) builder fun _ _ => True :=
  Ends.modifyGet_iff.2
    ⟨endsTyped_rebundle typed builder.module.bundles (builder.module.services.push held), trivial⟩

theorem endsTyped_call (typed : builder.Typed) (service : Service) (operation : String)
    (handle : BundleHandle) (appId : AppId) :
    EndsTyped (call setting service operation handle appId) builder fun _ _ => True := by
  unfold call
  refine retabled_endsTyped (retables_checkScope _ _ builder) typed fun _ first _ typed _ => ?_
  refine retabled_endsTyped (retables_serviceIndex setting service first) typed
    fun serviceAt second _ typed _ => ?_
  refine retabled_endsTyped (retables_operationIndex service operation second) typed
    fun operationAt third _ typed _ => ?_
  refine retabled_endsTyped (retables_checkHost setting service third) typed
    fun _ fourth _ typed _ => ?_
  refine retabled_endsTyped (retables_unservedBundle handle fourth) typed
    fun bundle fifth _ typed _ => ?_
  refine retabled_endsTyped (retables_internTy _ fifth) typed fun expected sixth _ typed _ => ?_
  refine Ends.ite (fun _ => ?_) fun _ => ?_
  · exact moduleName_bind (tyText_bind (tyText_bind (Ends.throw_bind (typed.retains (.refl _)))))
  refine retabled_endsTyped (retables_reserve appId sixth) typed fun _ last _ typed _ => ?_
  exact (endsTyped_addService typed _).bind fun held final retains _ =>
    endsTyped_setBundle retains.typed _ _

theorem endsTyped_request (typed : builder.Typed) (service : Service) (operation : String)
    (appId : AppId) : EndsTyped (request setting service operation appId) builder
      fun _ _ => True := by
  unfold request
  refine retabled_endsTyped (retables_serviceIndex setting service builder) typed
    fun serviceAt first _ typed _ => ?_
  refine retabled_endsTyped (retables_operationIndex service operation first) typed
    fun operationAt second _ typed _ => ?_
  refine Ends.ite (fun _ => moduleName_bind (Ends.throw_bind (typed.retains (.refl _)))) fun _ => ?_
  refine retabled_endsTyped (retables_checkHost setting service second) typed
    fun _ third _ typed _ => ?_
  refine retabled_endsTyped (retables_reserve appId third) typed fun _ fourth _ typed _ => ?_
  refine retabled_endsTyped (retables_internTy _ fourth) typed fun bundleTy fifth _ typed _ => ?_
  refine retabled_endsTyped (retables_roleSlots _ fifth) typed fun slots last _ typed _ => ?_
  exact Ends.get_bind ((endsTyped_addService typed _).bind fun held final retains _ =>
    endsTyped_addBundle retains.typed _)

theorem endsTyped_addResults (builtin : Nat) (held : Builtin) (tys : List TyId) (position : Nat)
    (builder : Builder) (typed : builder.Typed)
    (present : builder.module.builtins[builtin]? = some held)
    (stand : ∀ index, held.results[position + index]? = tys[index]?)
    (known : ∀ ty ∈ tys, ty < builder.shared.types.size) :
    EndsTyped (addResults builtin tys position) builder fun values after =>
      ∀ value ∈ values, Gives value after := by
  induction tys generalizing position builder with
  | nil => exact endsTyped_pure typed nofun
  | cons result rest induction =>
      obtain ⟨ty, found⟩ := TyPool.exists_get?_of_lt_size (known result List.mem_cons_self)
      refine (endsTyped_addExpr typed found fun later keeps inside =>
        .result inside (keeps.builtins _ _ present) (stand 0) found).bind
        fun value first retains given => ?_
      refine (induction (position + 1) first retains.typed
        (retains.module.builtins _ _ present) (fun index => ?_) fun ty member => ?_).bind
        fun values last more others => endsTyped_pure more.typed ?_
      · rw [Nat.add_assoc, Nat.add_comm 1]
        exact stand (index + 1)
      · exact Nat.lt_of_lt_of_le (known ty (List.mem_cons_of_mem _ member)) retains.types.size_le
      · intro other member
        rcases List.mem_cons.1 member with rfl | later
        · exact more.value given
        · exact others other later

theorem endsTyped_builtin (typed : builder.Typed) (service : Service) (appId : AppId) (tag : String)
    (results : List Ty) (inputs : List Value) :
    EndsTyped (builtin setting service appId tag results inputs) builder fun values after =>
      ∀ value ∈ values, Gives value after := by
  unfold builtin
  refine retabled_endsTyped (retables_serviceIndex setting service builder) typed
    fun serviceAt first _ typed _ => moduleName_bind ?_
  refine Ends.ite (fun _ => Ends.throw_bind (typed.retains (.refl _))) fun _ => ?_
  refine Ends.ite (fun _ => Ends.throw_bind (typed.retains (.refl _))) fun _ => ?_
  refine retabled_endsTyped (retables_reserve appId first) typed fun _ second _ typed _ => ?_
  refine Ends.get_bind ?_
  refine retabled_endsTyped (retables_internTys results second) typed
    fun tys third retabled typed interned => ?_
  refine retabled_endsTyped (retables_internName tag third) typed fun ident last still typed _ => ?_
  let held : Builtin := ⟨appId, serviceAt, ident, tys, inputs.map (·.expr)⟩
  have declared := typed.exchange (typed.module.pushBuiltin held)
    (last.module.extends_pushBuiltin held)
  have position : second.module.builtins.length = last.module.builtins.length := by
    rw [(retabled.trans still).module]
  refine Ends.bind_iff.2 (Ends.modify_iff.2 (EndsTyped.since ?_ declared))
  refine endsTyped_addResults second.module.builtins.length held tys 0 _ declared.typed ?_ ?_ ?_
  · rw [position]
    exact List.getElem?_concat_length
  · intro index
    rw [Nat.zero_add]
  · exact fun ty member => Nat.lt_of_lt_of_le (interned ty member) still.types.size_le

theorem retables_feeds (child : String) (connections : List (String × Value)) (ports : List Port)
    (builder : Builder) (known : ∀ port ∈ ports, port.ty < builder.shared.types.size)
    (given : ∀ entry ∈ connections, entry.2.Typed builder.shared.types builder.module) :
    Retables (wirePorts child connections ports) builder fun exprs after => after = builder ∧
      List.Forall₂ (builder.module.Feeds builder.shared.types) exprs ports := by
  induction ports with
  | nil => exact retables_pure ⟨rfl, .nil⟩
  | cons port rest induction =>
      unfold wirePorts
      refine Ends.get_bind ?_
      dsimp only
      split
      · exact retables_connectionFault _ _ _
      · rename_i name value filtered
        have connected : (name, value) ∈ connections := by
          have member : (name, value) ∈ connections.filter
              (·.1 = builder.shared.names.text port.name) := by
            rw [filtered]
            exact List.mem_cons_self
          exact (List.mem_filter.1 member).1
        refine Ends.ite (fun _ => ?_) fun same => ?_
        · exact moduleName_bind
            (tyText_bind (tyText_bind (Ends.throw_bind (.refl builder))))
        · refine Retables.bind (induction fun port member =>
            known port (List.mem_cons_of_mem _ member)) fun exprs after _ wired => ?_
          obtain ⟨rfl, feeds⟩ := wired
          obtain ⟨ty, found⟩ := TyPool.exists_get?_of_lt_size (known port List.mem_cons_self)
          refine retables_pure ⟨rfl, .cons ⟨ty, found, ?_⟩ feeds⟩
          exact (given _ connected).hasTy (Classical.not_not.1 same ▸ found)
      · exact retables_connectionFault _ _ _

def Infers (setting : Setting) (elaborate : String → Elaborating ModuleId) : Prop :=
  ∀ name (shared : Elaboration), shared.Sound True setting.library.services → shared.Typed →
    Ends (elaborate name) shared (fun _ after => after.Typed) fun _ after => after.Typed

theorem endsTyped_onShared {elaborate : String → Elaborating ModuleId}
    (elaborates : Elaborates True setting elaborate) (infers : Infers setting elaborate)
    (sound : builder.Sound True setting.library.services) (typed : builder.Typed) (name : String) :
    EndsTyped (onShared (elaborate name)) builder fun id after =>
      after.shared.Sound True setting.library.services ∧ id < after.shared.modules.size ∧
        after.module = builder.module := by
  have later {shared : Elaboration} (grows : builder.shared.Grows shared) (typed' : shared.Typed) :
      builder.Retains { builder with shared := shared } :=
    ⟨⟨typed.module.grow grows.types grows.modules, typed'⟩, grows.types, .refl _⟩
  have ends := (elaborates name builder.shared sound.shared).and
    (infers name builder.shared sound.shared typed.finished)
  refine (ends_onShared ends).mono ?_ ?_
  · intro id _ facts
    obtain ⟨shared, rfl, ⟨⟨sound, grows⟩, bound⟩, typed⟩ := facts
    exact ⟨later grows typed, sound, bound, rfl⟩
  · intro error _ facts
    obtain ⟨shared, rfl, ⟨-, grows⟩, typed⟩ := facts
    exact later grows typed

theorem endsTyped_instantiate {elaborate : String → Elaborating ModuleId}
    (elaborates : Elaborates True setting elaborate) (infers : Infers setting elaborate)
    (sound : builder.Sound True setting.library.services) (typed : builder.Typed) (child : String)
    (appId : AppId) (connections : List (String × Value))
    (given : ∀ entry ∈ connections, entry.2.Typed builder.shared.types builder.module) :
    EndsTyped (instantiate elaborate child appId connections) builder fun _ _ => True := by
  unfold instantiate
  refine retabled_endsTyped (retables_reserve appId builder) typed
    fun _ first retabled typed _ => ?_
  refine (endsTyped_onShared elaborates infers (sound.retabled retabled) typed child).bind
    fun id second retains finished => ?_
  obtain ⟨sound, bound, -⟩ := finished
  obtain ⟨inner, known⟩ := Arena.exists_get?_of_lt_size bound
  refine Ends.get_bind ?_
  refine retabled_endsTyped (retables_checkConnections _ _ _ second) retains.typed
    fun _ third still typed _ => ?_
  have connected := retables_feeds child connections
    (((second.shared.modules.get? id).map (·.ports)).getD []) third ?_ ?_
  · refine retabled_endsTyped connected typed fun wired last _ typed feeds => ?_
    obtain ⟨rfl, feeds⟩ := feeds
    rw [known] at feeds
    refine Ends.modify_iff.2 ⟨typed.exchange (typed.module.pushChild ⟨inner, ?_, feeds⟩) ?_,
      trivial⟩
    · rw [still.modules]
      exact known
    · exact ⟨rfl, fun _ _ held => held, .refl _, fun _ _ held => held⟩
  · rw [known]
    exact fun port member => Nat.lt_of_lt_of_le
      ((sound.modules id inner known).placed.ports port member) still.types.size_le
  · exact fun entry member => ((given entry member).grow retabled.types retabled.extends).grow
      (retains.types.trans still.types) (retains.module.trans still.extends)

end Construction

end Elastic
