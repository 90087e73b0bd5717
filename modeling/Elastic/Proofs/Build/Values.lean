import Elastic.Proofs.Build.Checks

namespace Elastic.Construction

variable {own : Prop} {services : List Service} {builder : Builder}

theorem endsSound_addExpr (sound : builder.Sound own services) {expr : Expr} (ty : TyId)
    (within : expr.Within builder.module)
    (operands : own → ∀ operand ∈ expr.operands, operand < builder.module.exprs.size) :
    EndsSound own services (addExpr expr ty) builder fun value after =>
      value.expr < after.module.exprs.size ∧
        after.module = { builder.module with exprs := builder.module.exprs.push expr } := by
  have larger : builder.module.exprs.size < (builder.module.exprs.push expr).size := by
    rw [Arena.size_push]
    omega
  exact Ends.modifyGet_iff.2 ⟨sound.exchange (sound.module.pushExpr within operands)
    (Nat.le_of_lt larger) (.refl _) (.refl _), larger, rfl⟩

theorem endsSound_expr (sound : builder.Sound own services) {expr : Expr} (ty : TyId)
    (within : expr.Within builder.module)
    (operands : own → ∀ operand ∈ expr.operands, operand < builder.module.exprs.size) :
    EndsSound own services (addExpr expr ty) builder fun value after =>
      value.expr < after.module.exprs.size :=
  (endsSound_addExpr sound ty within operands).mono fun _ _ _ fact => fact.1

theorem endsSound_port (sound : builder.Sound own services) (name : String) :
    EndsSound own services (port name) builder fun value after =>
      value.expr < after.module.exprs.size := by
  unfold port
  refine Ends.get_bind ?_
  split
  · exact endsSound_throw sound
  · rename_i index found
    obtain ⟨ident, -, position⟩ := Option.bind_eq_some_iff.1 found
    obtain ⟨bound, -, -⟩ := List.findIdx?_eq_some_iff_getElem.1 position
    exact endsSound_expr sound _ bound fun _ => nofun

theorem endsSound_constant (sound : builder.Sound own services) (ty : Ty) (value : UInt64) :
    EndsSound own services (constant ty value) builder fun value after =>
      value.expr < after.module.exprs.size := by
  have declared : EndsSound own services (do addExpr (.const value) (← internTy ty)) builder
      fun value after => value.expr < after.module.exprs.size :=
    (retables_internTy _ builder).endsSound sound fun id after _ sound _ =>
      endsSound_expr sound id trivial fun _ => nofun
  have refused : EndsSound own services (mismatch "constant" "bits" ty.text) builder
      fun (value : Value) after => value.expr < after.module.exprs.size :=
    Retables.safe (retables_mismatch _ _ _) sound
  unfold constant
  cases ty with
  | bits width =>
      refine Ends.ite (fun _ => ?_) fun _ => declared
      exact Ends.get_bind (Ends.throw_bind (sound.leads (.refl _)))
  | clock => exact refused
  | struct fields => exact refused
  | channel payload => exact refused
  | bundle roles => exact refused

theorem endsSound_bool (sound : builder.Sound own services) (value : Bool) :
    EndsSound own services (bool value) builder fun value after =>
      value.expr < after.module.exprs.size :=
  (retables_internTy _ builder).endsSound sound fun id _ _ sound _ =>
    endsSound_expr sound id trivial fun _ => nofun

theorem endsSound_struct (sound : builder.Sound own services) (ty : Ty)
    (fields : List (String × Value))
    (reads : own → ∀ entry ∈ fields, entry.2.expr < builder.module.exprs.size) :
    EndsSound own services (struct ty fields) builder fun value after =>
      value.expr < after.module.exprs.size := by
  have refused : EndsSound own services (mismatch "struct literal" "struct" ty.text) builder
      fun (value : Value) after => value.expr < after.module.exprs.size :=
    Retables.safe (retables_mismatch _ _ _) sound
  unfold struct
  cases ty with
  | struct decls =>
      refine (retables_fillSlots _ fields _ builder).endsSound sound
        fun slots first retabled sound given => ?_
      refine (retables_collectSlots _ slots decls first).endsSound sound
        fun exprs second still sound collected => ?_
      refine (retables_internTy _ second).endsSound sound fun id third calm sound _ => ?_
      refine endsSound_expr sound id trivial fun values operand member => ?_
      obtain ⟨value, inside, rfl⟩ := collected operand member
      rw [calm.module, still.module, retabled.module]
      rcases given value inside with empty | ⟨name, entry⟩
      · cases (List.mem_replicate.1 empty).2
      · exact reads values (name, value) entry
  | bits width => exact refused
  | clock => exact refused
  | channel payload => exact refused
  | bundle roles => exact refused

theorem endsSound_field (sound : builder.Sound own services) (base : Value) (name : String)
    (reads : own → base.expr < builder.module.exprs.size) :
    EndsSound own services (field base name) builder fun value after =>
      value.expr < after.module.exprs.size := by
  unfold field
  refine Ends.get_bind ?_
  dsimp only
  split
  · split
    · exact Retables.safe (retables_fieldFault _ _ _) sound
    · refine (retables_internTy _ builder).endsSound sound fun id after retabled sound _ => ?_
      refine endsSound_expr sound id trivial fun values operand member => ?_
      rw [List.mem_singleton.1 member, retabled.module]
      exact reads values
  · exact Retables.safe (retables_mismatch _ _ _) sound

theorem endsSound_gate (sound : builder.Sound own services) (first second : Value)
    (gate : ExprId → ExprId → Expr) (what : String)
    (operands : ∀ first second, (gate first second).operands = [first, second])
    (within : ∀ first second module, (gate first second).Within module)
    (reads : own → first.expr < builder.module.exprs.size ∧
      second.expr < builder.module.exprs.size) :
    EndsSound own services (do
      let bit ← internTy .bit
      expectTy first bit what
      expectTy second bit what
      addExpr (gate first.expr second.expr) bit) builder fun value after =>
        value.expr < after.module.exprs.size := by
  refine (retables_internTy _ builder).endsSound sound fun bit after retabled sound _ => ?_
  refine (retables_expectTy _ _ _ after).endsSound sound fun _ later still sound _ => ?_
  refine (retables_expectTy _ _ _ later).endsSound sound fun _ last calm sound _ => ?_
  refine endsSound_expr sound bit (within _ _ _) fun values operand member => ?_
  obtain ⟨one, other⟩ := reads values
  rw [operands] at member
  rw [calm.module, still.module, retabled.module]
  rcases List.mem_cons.1 member with rfl | last
  · exact one
  · rw [List.mem_singleton.1 last]
    exact other

theorem endsSound_and (sound : builder.Sound own services) (first second : Value)
    (reads : own → first.expr < builder.module.exprs.size ∧
      second.expr < builder.module.exprs.size) :
    EndsSound own services (and first second) builder fun value after =>
      value.expr < after.module.exprs.size :=
  endsSound_gate sound first second .and "and" (fun _ _ => rfl) (fun _ _ _ => trivial) reads

theorem endsSound_or (sound : builder.Sound own services) (first second : Value)
    (reads : own → first.expr < builder.module.exprs.size ∧
      second.expr < builder.module.exprs.size) :
    EndsSound own services (or first second) builder fun value after =>
      value.expr < after.module.exprs.size :=
  endsSound_gate sound first second .or "or" (fun _ _ => rfl) (fun _ _ _ => trivial) reads

theorem endsSound_not (sound : builder.Sound own services) (operand : Value)
    (reads : own → operand.expr < builder.module.exprs.size) :
    EndsSound own services (not operand) builder fun value after =>
      value.expr < after.module.exprs.size := by
  unfold Construction.not
  refine (retables_internTy _ builder).endsSound sound fun bit after retabled sound _ => ?_
  refine (retables_expectTy _ _ _ after).endsSound sound fun _ later still sound _ => ?_
  refine endsSound_expr sound bit trivial fun values operand' member => ?_
  rw [List.mem_singleton.1 member, still.module, retabled.module]
  exact reads values

theorem endsSound_addChannel (sound : builder.Sound own services) {channel : Channel}
    (payload : channel.payload < builder.shared.types.size)
    (operands : own → ∀ operand ∈ channel.operands, operand < builder.module.exprs.size)
    (consumer : ∀ bundle role, channel.consumer ≠ .bundle bundle role)
    (producer : ∀ bundle role, channel.producer ≠ .bundle bundle role) :
    EndsSound own services (addChannel channel) builder fun handle after =>
      builder.Issued after [.channel handle] ∧ handle.id < after.module.channels.size := by
  have larger : builder.module.channels.size < (builder.module.channels.push channel).size := by
    rw [Arena.size_push]
    omega
  exact Ends.modifyGet_iff.2 ⟨sound.exchange (sound.module.rechannel (channelsKept_push _ _)
    (channelsFit_push channel sound.module.channelsFit payload operands)
    (sound.module.linked.push consumer producer)) (Nat.le_refl _) (channelsKept_push _ _)
    (.refl _), builder.issued_channel channel, larger⟩

theorem endsSound_wrap (sound : builder.Sound own services) (payload : Ty) (value valid : Value)
    (reads : own → value.expr < builder.module.exprs.size ∧
      valid.expr < builder.module.exprs.size) :
    EndsSound own services (wrap payload value valid) builder fun result after =>
      builder.Issued after [.channel result.1] ∧ result.2.expr < after.module.exprs.size := by
  unfold wrap
  refine Ends.ite (fun _ => ?_) fun _ => ?_
  · exact (Retables.stop (retables_mismatch _ _ _)).safe sound
  refine (retables_internTy _ builder).endsSound sound fun ty first retabled sound known => ?_
  refine (retables_expectTy _ _ _ first).endsSound sound fun _ second still sound _ => ?_
  refine (retables_internTy _ second).endsSound sound fun bit third calm sound _ => ?_
  refine (retables_expectTy _ _ _ third).endsSound sound fun _ fourth mute sound _ => ?_
  have before : builder.Retabled fourth := ((retabled.trans still).trans calm).trans mute
  have payload : ty < fourth.shared.types.size := TyPool.lt_size_of_get?
    (TyPool.get?_of_find? (((still.trans calm).trans mute).types.find? known))
  refine EndsSound.bind (endsSound_addChannel sound payload ?_ nofun nofun)
    fun handle fifth leads issued => ?_
  · intro values operand member
    obtain ⟨one, other⟩ := reads values
    rw [before.module]
    rcases List.mem_cons.1 member with rfl | last
    · exact one
    · rw [List.mem_singleton.1 last]
      exact other
  · obtain ⟨issued, bound⟩ := issued
    refine EndsSound.bind (endsSound_expr leads.sound bit ?_ fun _ => nofun)
      fun ready sixth more inside => ?_
    · exact bound
    · exact endsSound_pure more.sound ⟨(issued.later more.grows).earlier before.grows, inside⟩

theorem endsSound_bind (sound : builder.Sound own services) (channel : ChannelHandle)
    (ready : ExprId) (reads : own → ready < builder.module.exprs.size) :
    EndsSound own services (bind channel (.unwrapped ready)) builder fun _ after =>
      channel.id < after.module.channels.size := by
  unfold bind
  refine Ends.get_bind (Ends.ite (fun isOpen => Ends.modify_iff.2 ?_) fun _ =>
    endsSound_throw sound)
  unfold Module.isOpen at isOpen
  split at isOpen
  · rename_i held known
    have unbound : held.consumer = .unbound := by simpa using isOpen
    have fits := sound.module.channelsFit _ _ known
    have kept : ChannelsKept builder.module.channels
        (builder.module.channels.set channel.id { held with consumer := .unwrapped ready }) :=
      channelsKept_set known rfl
    simp only [Module.consume, known]
    refine ⟨sound.exchange (sound.module.rechannel kept (channelsFit_set sound.module.channelsFit
      fits.1 ?_) (sound.module.linked.consume known unbound nofun)) (Nat.le_refl _) kept
      (.refl _), ?_⟩
    · intro values operand member
      rcases List.mem_append.1 member with driven | taken
      · refine fits.2 values operand (List.mem_append_left _ driven)
      · rw [List.mem_singleton.1 taken]
        exact reads values
    · exact Nat.lt_of_lt_of_le (Arena.lt_size_of_get? known) kept.size_le
  · cases isOpen

theorem endsSound_unwrap (sound : builder.Sound own services) (channel : ChannelHandle)
    (ready : Value) (reads : own → ready.expr < builder.module.exprs.size) :
    EndsSound own services (unwrap channel ready) builder fun result after =>
      result.1.expr < after.module.exprs.size ∧ result.2.expr < after.module.exprs.size := by
  unfold unwrap
  refine (retables_checkScope _ _ builder).endsSound sound fun _ first retabled sound _ => ?_
  refine (retables_internTy _ first).endsSound sound fun bit second still sound _ => ?_
  refine (retables_expectTy _ _ _ second).endsSound sound fun _ third calm sound _ => ?_
  have before : builder.Retabled third := (retabled.trans still).trans calm
  refine EndsSound.bind (endsSound_bind sound channel ready.expr ?_) fun _ fourth leads bound => ?_
  · rw [before.module]
    exact reads
  refine EndsSound.bind (endsSound_addExpr leads.sound _ ?_ fun _ => nofun)
    fun data fifth more added => ?_
  · exact bound
  obtain ⟨inside, frame⟩ := added
  have present : channel.id < fifth.module.channels.size := by
    rw [frame]
    exact bound
  refine EndsSound.bind (endsSound_expr more.sound _ ?_ fun _ => nofun)
    fun valid sixth last valid' => ?_
  · exact present
  exact endsSound_pure last.sound ⟨Nat.lt_of_lt_of_le inside last.grows.exprs, valid'⟩

end Elastic.Construction
