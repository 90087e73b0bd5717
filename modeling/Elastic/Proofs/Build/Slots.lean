import Elastic.Proofs.Build.Matching

namespace Elastic

/-! Where channels stand in the slots of a bundle that was packed or unpacked. Once the supplied
channels match their roles, nothing is refused any more. -/

/-- Channels supplied for positions stand there at a side of the slots, and returned ones in the
roles of the flow that goes back. The other side is as it was. -/
structure SlotsFilled (ty : BundleTy) (back : Flow) (side : ServiceSide)
    (pairs : List (ChannelHandle × Nat)) (returned : List (String × ChannelHandle))
    (former slots : List RoleSlot) : Prop where
  supplied : ∀ pair ∈ pairs, ∃ slot, slots[pair.2]? = some slot ∧
    slot.at? side = some pair.1.id
  returned : ∀ (position : Nat) (role : Role), ty[position]? = some role → role.flow = back →
    ∃ slot channel, slots[position]? = some slot ∧ slot.at? side = some channel.id ∧
      (role.name, channel) ∈ returned
  others : slots.map (·.without side) = former.map (·.without side)

/-- Channels for the roles of a flow, in the order of the type and with the payloads of the roles.
-/
def Covers (types : TyPool) (ty : BundleTy) (flow : Flow)
    (channels : List (String × ChannelHandle)) : Prop :=
  channels.map (fun entry => (entry.1, types.get? entry.2.payload)) =
    (BundleTy.rolesIn ty flow).map fun role => (role.name, some role.payload)

namespace Construction

variable {builder : Builder} (bundle : BundleId) (side : ServiceSide) (types : TyPool)

theorem isOpen_withChannels_set {channels : Arena Channel} {id other : ChannelId}
    {held : Channel} (apart : other ≠ id) :
    (builder.withChannels (channels.set id held)).module.isOpen other =
      (builder.withChannels channels).module.isOpen other := by
  simp only [Module.isOpen, Builder.withChannels]
  rw [Arena.get?_set, if_neg fun same => apart same.1]

theorem refs_bindRoles (pairs : List (ChannelHandle × Nat)) (slots : List RoleSlot)
    (builder : Builder) (isOpen : ∀ pair ∈ pairs, builder.module.isOpen pair.1.id = true)
    (ids : (pairs.map (·.1.id)).Nodup) (places : (pairs.map (·.2)).Nodup)
    (inside : ∀ pair ∈ pairs, pair.2 < slots.length) :
    Ends (bindRoles bundle side pairs slots) builder
      (fun filled after => (∃ channels, after = builder.withChannels channels ∧
          builder.module.channels.size ≤ channels.size) ∧
        (∀ pair ∈ pairs, ∃ slot, filled[pair.2]? = some slot ∧
          slot.at? side = some pair.1.id) ∧
        (∀ place, place ∉ pairs.map (·.2) → filled[place]? = slots[place]?) ∧
        filled.map (·.without side) = slots.map (·.without side))
      fun _ _ => False := by
  induction pairs generalizing slots builder with
  | nil => exact Ends.pure_iff.2 ⟨⟨_, rfl, Nat.le_refl _⟩, nofun, fun _ _ => rfl, rfl⟩
  | cons pair rest induction =>
      obtain ⟨channel, position⟩ := pair
      rw [List.map_cons, List.nodup_cons] at ids places
      have opened := isOpen _ List.mem_cons_self
      have here : position < slots.length := inside _ List.mem_cons_self
      obtain ⟨held, known, unbound⟩ : ∃ held, builder.module.channels.get? channel.id = some held ∧
          held.consumer = .unbound := by
        unfold Module.isOpen at opened
        split at opened
        · rename_i held known
          exact ⟨held, known, by simpa using opened⟩
        · cases opened
      refine Ends.bind (ends_bind (.bundle bundle position) known unbound) ?_
        fun _ _ never => never
      intro _ after equal
      subst equal
      refine (induction (slots.modify position (attach side channel.id)) _ ?_ ids.2 places.2
        ?_).mono ?_ fun _ _ never => never
      · intro other member
        have apart : other.1.id ≠ channel.id := fun same =>
          ids.1 (same ▸ List.mem_map_of_mem member)
        rw [isOpen_withChannels_set apart]
        exact isOpen other (List.mem_cons_of_mem _ member)
      · intro other member
        rw [List.length_modify]
        exact inside other (List.mem_cons_of_mem _ member)
      · intro filled last facts
        obtain ⟨⟨channels, rfl, larger⟩, supplied, unchanged, others⟩ := facts
        refine ⟨⟨channels, rfl, ?_⟩, ?_, ?_, others.trans
          (map_without_modify side slots position _)⟩
        · exact Nat.le_trans (Nat.le_of_eq (Arena.size_set _ _ _).symm) larger
        · intro other member
          rcases List.mem_cons.1 member with rfl | later
          · refine ⟨attach side channel.id slots[position], ?_, at?_attach_self⟩
            rw [unchanged position places.1]
            simp [here]
          · exact supplied other later
        · intro place outside
          rw [List.map_cons, List.mem_cons, not_or] at outside
          rw [unchanged place outside.2, List.getElem?_modify]
          simp [Ne.symm outside.1]

def Carries (types : TyPool) (ty : BundleTy) (position : Nat) (slots : List RoleSlot) : Prop :=
  ∀ (index : Nat) (role : Role), ty[index]? = some role →
    ∃ slot, slots[position + index]? = some slot ∧ types.get? slot.payload = some role.payload

/-- Channels opened for the roles of a flow, which stand in the slots from a position on. -/
structure Opened (types : TyPool) (flow : Flow) (side : ServiceSide) (ty : BundleTy)
    (position : Nat) (former slots : List RoleSlot) (channels : List (String × ChannelHandle)) :
    Prop where
  stands : ∀ (index : Nat) (role : Role), ty[index]? = some role → role.flow = flow →
    ∃ slot channel, slots[position + index]? = some slot ∧ slot.at? side = some channel.id ∧
      (role.name, channel) ∈ channels
  unchanged : ∀ place, (∀ (index : Nat) (role : Role), ty[index]? = some role →
    place = position + index → role.flow ≠ flow) → slots[place]? = former[place]?
  others : slots.map (·.without side) = former.map (·.without side)
  covers : Covers types ty flow channels

section

variable {types side} {flow : Flow} {role : Role} {rest : BundleTy} {position : Nat}
  {former slots : List RoleSlot} {channels : List (String × ChannelHandle)}

theorem Carries.next (carries : Carries types (role :: rest) position slots) :
    Carries types rest (position + 1) slots := by
  intro index other known
  rw [Nat.add_right_comm]
  exact carries (index + 1) other known

theorem Carries.attach (carries : Carries types rest position slots) (place : Nat)
    (id : ChannelId) : Carries types rest position (slots.modify place (attach side id)) := by
  intro index other known
  obtain ⟨slot, present, payload⟩ := carries index other known
  rw [List.getElem?_modify, present]
  refine ⟨_, rfl, ?_⟩
  split
  · exact (congrArg types.get? payload_attach).trans payload
  · exact payload

theorem Opened.skip (opened : Opened types flow side rest (position + 1) former slots channels)
    (apart : role.flow ≠ flow) :
    Opened types flow side (role :: rest) position former slots channels := by
  refine ⟨fun index other known flows => ?_, fun place outside => ?_, opened.others, ?_⟩
  · cases index with
    | zero =>
        cases known
        exact absurd flows apart
    | succ index =>
        rw [← Nat.add_assoc, Nat.add_right_comm]
        exact opened.stands index other known flows
  · refine opened.unchanged place fun index other known same => ?_
    exact outside (index + 1) other known (same.trans (Nat.add_right_comm position 1 index))
  · have covers := opened.covers
    unfold Covers at covers ⊢
    rw [covers]
    simp [BundleTy.rolesIn, apart]

theorem Opened.cons {slot : RoleSlot} {handle : ChannelHandle}
    (opened : Opened types flow side rest (position + 1)
      (former.modify position (attach side handle.id)) slots channels)
    (flows : role.flow = flow) (held : former[position]? = some slot)
    (payload : types.get? handle.payload = some role.payload) :
    Opened types flow side (role :: rest) position former slots
      ((role.name, handle) :: channels) := by
  refine ⟨fun index other known flows => ?_, fun place outside => ?_,
    opened.others.trans (map_without_modify side former position _), ?_⟩
  · cases index with
    | zero =>
        cases known
        refine ⟨attach side handle.id slot, handle, ?_, at?_attach_self, List.mem_cons_self⟩
        rw [Nat.add_zero, opened.unchanged position fun _ _ _ same => absurd same (by omega)]
        simp [held]
    | succ index =>
        obtain ⟨slot, channel, here, slotsFilled, returned⟩ := opened.stands index other known flows
        rw [← Nat.add_assoc, Nat.add_right_comm]
        exact ⟨slot, channel, here, slotsFilled, List.mem_cons_of_mem _ returned⟩
  · have elsewhere : position ≠ place := fun same => outside 0 role rfl same.symm flows
    rw [opened.unchanged place fun index other known same =>
      outside (index + 1) other known (same.trans (Nat.add_right_comm position 1 index))]
    simp [elsewhere]
  · have covers := opened.covers
    unfold Covers at covers ⊢
    rw [List.map_cons, covers]
    simp [BundleTy.rolesIn, flows, payload]

end

theorem refs_openRoles (flow : Flow) (rest : BundleTy) (position : Nat) (slots : List RoleSlot)
    (builder : Builder) (carries : Carries types rest position slots) :
    Ends (openRoles bundle flow side rest position slots) builder
      (fun result after => (∃ channels, after = builder.withChannels channels) ∧
        Opened types flow side rest position slots result.2 result.1 ∧
        ∀ entry ∈ result.1, builder.module.channels.size ≤ entry.2.id)
      fun _ _ => False := by
  induction rest generalizing position slots builder with
  | nil => exact Ends.pure_iff.2 ⟨⟨_, rfl⟩, ⟨nofun, fun _ _ => rfl, rfl, rfl⟩, nofun⟩
  | cons role rest induction =>
      obtain ⟨slot, held, payload⟩ := carries 0 role rfl
      rw [Nat.add_zero] at held
      unfold openRoles
      refine Ends.ite (fun flows => ?_) fun apart => ?_
      · have carried : (slots[position]?.map (·.payload)).getD 0 = slot.payload := by
          rw [held]
          rfl
        rw [carried]
        refine Ends.bind_iff.2 (Ends.modifyGet_iff.2 ?_)
        refine Ends.bind (induction (position + 1) _ (builder.withChannels _)
          (carries.next.attach _ _)) ?_ fun _ _ never => never
        intro result _ ends
        obtain ⟨⟨channels, rfl⟩, opened, fresh⟩ := ends
        refine Ends.pure_iff.2 ⟨⟨channels, rfl⟩, opened.cons flows held payload, ?_⟩
        intro entry member
        rcases List.mem_cons.1 member with rfl | later
        · exact Nat.le_refl _
        · refine Nat.le_trans ?_ (fresh entry later)
          change builder.module.channels.size ≤ (builder.module.channels.push _).size
          rw [Arena.size_push]
          omega
      · refine (induction (position + 1) slots builder carries.next).mono ?_ fun _ _ never => never
        exact fun _ _ ends => ⟨ends.1, ends.2.1.skip apart, ends.2.2⟩

theorem mem_zip_of_mem_zip_map {channels : List (String × ChannelHandle)} {positions : List Nat}
    {pair : ChannelHandle × Nat} (member : pair ∈ (channels.map (·.2)).zip positions) :
    ∃ entry, (entry, pair.2) ∈ channels.zip positions ∧ entry.2 = pair.1 := by
  rw [List.zip_map_left] at member
  obtain ⟨⟨entry, position⟩, inside, equal⟩ := List.mem_map.1 member
  cases equal
  exact ⟨entry, inside, rfl⟩

theorem roles_of_matched {start : TyPool} {ty : BundleTy} {flow : Flow}
    {channels : List (String × ChannelHandle)} {positions : List Nat}
    (matched : Matched start ty flow channels positions) {pair : ChannelHandle × Nat}
    (member : pair ∈ (channels.map (·.2)).zip positions) :
    ∃ role : Role, ty[pair.2]? = some role ∧ role.flow = flow := by
  obtain ⟨entry, inside, -⟩ := mem_zip_of_mem_zip_map member
  obtain ⟨role, found, flows, -⟩ := List.forall₂_zip matched.answers inside
  exact ⟨role, BundleTy.getElem?_of_role? found, flows⟩

theorem refs_connect {β : Type} {start : TyPool} {ty : BundleTy} {flow back : Flow}
    {channels : List (String × ChannelHandle)} {positions : List Nat} {slots : List RoleSlot}
    {next : List (String × ChannelHandle) × List RoleSlot → Construction β}
    {good : β → Builder → Prop} {bad : BuildError → Builder → Prop} (apart : flow ≠ back)
    (slotsOf : SlotsOf types ty slots) (matched : Matched start ty flow channels positions)
    (isOpen : ∀ entry ∈ channels, builder.module.isOpen entry.2.id = true)
    (ids : (channels.map (·.2.id)).Nodup)
    (rest : ∀ (result : List (String × ChannelHandle) × List RoleSlot) (later : Arena Channel),
      SlotsFilled ty back side ((channels.map (·.2)).zip positions) result.1 slots result.2 →
      Covers types ty back result.1 →
      (∀ entry ∈ result.1, builder.module.channels.size ≤ entry.2.id) →
      Ends (next result) (builder.withChannels later) good bad) :
    Ends (bindRoles bundle side ((channels.map (·.2)).zip positions) slots >>= fun slots =>
      openRoles bundle back side ty 0 slots >>= next) builder good bad := by
  have length : channels.length = positions.length := matched.answers.length_eq
  have firsts : ((channels.map (·.2)).zip positions).map (·.1) = channels.map (·.2) :=
    List.map_fst_zip (Nat.le_of_eq (by rw [List.length_map, length]))
  have seconds : ((channels.map (·.2)).zip positions).map (·.2) = positions :=
    List.map_snd_zip (Nat.le_of_eq (by rw [List.length_map, length]))
  refine Ends.bind (refs_bindRoles bundle side _ slots builder ?_ ?_ ?_ ?_) ?_
    fun _ _ never => never.elim
  · intro pair member
    obtain ⟨entry, inside, same⟩ := mem_zip_of_mem_zip_map member
    rw [← same]
    exact isOpen entry (List.of_mem_zip inside).1
  · have named : ((channels.map (·.2)).zip positions).map (·.1.id) =
        (((channels.map (·.2)).zip positions).map (·.1)).map (·.id) := by
      rw [List.map_map]
      rfl
    rw [named, firsts, List.map_map]
    exact ids
  · rw [seconds]
    exact matched.distinct
  · intro pair member
    obtain ⟨role, held, -⟩ := roles_of_matched matched member
    rw [slotsOf.length]
    exact (List.getElem?_eq_some_iff.1 held).1
  intro filled _ facts
  obtain ⟨⟨bound, rfl, larger⟩, supplied, unchanged, others⟩ := facts
  have filledOf := slotsOf_of_others slotsOf others
  refine Ends.bind (refs_openRoles bundle side types back ty 0 filled _ ?_) ?_
    fun _ _ never => never.elim
  · intro index role held
    obtain ⟨slot, present, -, payload⟩ := filledOf.slot held
    exact ⟨slot, by rw [Nat.zero_add, present], TyPool.get?_of_find? payload⟩
  intro result _ facts
  obtain ⟨⟨later, rfl⟩, opened, fresh⟩ := facts
  refine rest result later ⟨?_, ?_, opened.others.trans others⟩ opened.covers ?_
  · intro pair member
    obtain ⟨role, held, flows⟩ := roles_of_matched matched member
    rw [opened.unchanged pair.2 fun index other known place => ?_]
    · exact supplied pair member
    · rw [Nat.zero_add] at place
      rw [place, known] at held
      cases held
      exact fun goes => apart (flows.symm.trans goes)
  · intro position role held flows
    have stands := opened.stands position role held flows
    rwa [Nat.zero_add] at stands
  · exact fun entry member => Nat.le_trans larger (fresh entry member)

theorem ends_roleSlots (ty : BundleTy) (builder : Builder) :
    Ends (roleSlots ty) builder (fun slots after => builder.Retabled after ∧
        SlotsOf after.shared.types ty slots ∧ ∀ slot ∈ slots, ∀ side, slot.at? side = none)
      fun _ _ => False := by
  have never : Ends (roleSlots ty) builder (fun _ _ => True) fun _ _ => False := by
    induction ty generalizing builder with
    | nil => exact Ends.pure_iff.2 trivial
    | cons role rest induction =>
        refine Ends.bind_iff.2 (Ends.modifyGet_iff.2 (Ends.bind_iff.2 (Ends.modifyGet_iff.2 ?_)))
        exact Ends.bind (induction _) (fun _ _ _ => Ends.pure_iff.2 trivial) fun _ _ never => never
  exact ((retables_roleSlots ty builder).and never).mono (fun _ _ ends => ends.1)
    fun _ _ ends => ends.2

def Suited (builder : Builder) (ty : BundleTy) (flow : Flow)
    (channels : List (String × ChannelHandle)) : Prop :=
  (∀ entry ∈ channels, entry.2.scope = builder.scope) ∧
    ∃ positions, Matched builder.shared.types ty flow channels positions

structure Usable (builder : Builder) (channels : List (String × ChannelHandle)) : Prop where
  ready : ∀ entry ∈ channels, Available builder.shared.types builder entry.2
  once : (∀ entry ∈ channels, entry.2.scope = builder.scope) → (channels.map (·.2.id)).Nodup

theorem Usable.isOpen {builder after : Builder} {channels : List (String × ChannelHandle)}
    (usable : Usable builder channels) (own : ∀ entry ∈ channels, entry.2.scope = builder.scope)
    (same : after.module.channels = builder.module.channels) :
    ∀ entry ∈ channels, after.module.isOpen entry.2.id = true := by
  intro entry member
  have isOpen := (usable.ready entry member).isOpen (own entry member)
  unfold Module.isOpen at isOpen ⊢
  rw [same]
  exact isOpen

structure Packed (ty : BundleTy) (channels : List (String × ChannelHandle)) (positions : List Nat)
    (before : Builder) (handle : BundleHandle) (returned : List (String × ChannelHandle))
    (after : Builder) : Prop where
  typed : after.shared.types.get? handle.ty = some (.bundle ty)
  slots : ∃ former slots, after.module.bundles.get? handle.id =
      some ⟨handle.ty, slots, .local, .unbound⟩ ∧
    slots.length = ty.length ∧ (∀ slot ∈ former, slot.at? .server = none) ∧
    SlotsFilled ty .fromService .client ((channels.map (·.2)).zip positions) returned former slots
  covers : Covers after.shared.types ty .fromService returned
  fresh : ∀ entry ∈ returned, before.module.channels.size ≤ entry.2.id

theorem length_eq_of_others {side : ServiceSide} {former slots : List RoleSlot}
    (others : slots.map (·.without side) = former.map (·.without side)) :
    slots.length = former.length := by
  simpa using congrArg List.length others

/-- Packing fails only where its channels do not match the roles. -/
theorem ends_pack_of_matches {builder : Builder} {ty : BundleTy}
    {channels : List (String × ChannelHandle)} {bad : BuildError → Builder → Prop}
    (usable : Usable builder channels)
    (matches' : Ends (matchRoles ty .toService channels) builder
      (fun positions after => builder.Retabled after ∧
        (∀ entry ∈ channels, entry.2.scope = builder.scope) ∧
        Matched builder.shared.types ty .toService channels positions) bad) :
    Ends (pack ty channels) builder
      (fun result after => (∀ entry ∈ channels, entry.2.scope = builder.scope) ∧
        ∃ positions, Matched builder.shared.types ty .toService channels positions ∧
          Packed ty channels positions builder result.1 result.2.channels after) bad := by
  unfold pack
  refine Ends.bind matches' ?_ fun _ _ badly => badly
  intro positions first ends
  obtain ⟨retabled, own, matched⟩ := ends
  refine Ends.bind (ends_internTy _ first) ?_ fun _ _ never => never.elim
  intro bundleTy second ends
  obtain ⟨still, interned⟩ := ends
  refine Ends.get_bind (Ends.bind (ends_roleSlots ty second) ?_ fun _ _ never => never.elim)
  intro slots third ends
  obtain ⟨calm, slotsOf, empty⟩ := ends
  have before : builder.Retabled third := (retabled.trans still).trans calm
  have place : second.module.bundles.nextId = third.module.bundles.size := by
    rw [calm.module]
    rfl
  rw [place]
  refine refs_connect _ _ _ (by decide) slotsOf matched
    (usable.isOpen own (by rw [before.module])) (usable.once own) ?_
  intro result later slotsFilled covers fresh
  obtain ⟨opened, filled⟩ := result
  refine addBundle_bind (Ends.bind_iff.2 (Ends.get_bind (Ends.pure_iff.2 (Ends.pure_iff.2 ?_))))
  refine ⟨own, positions, matched, ?_, ⟨slots, filled, ?_, ?_, ?_, slotsFilled⟩, covers, ?_⟩
  · exact TyPool.get?_of_find? (calm.types.find? interned)
  · exact (Arena.get?_push _ _ _).trans (if_pos rfl)
  · rw [length_eq_of_others slotsFilled.others, slotsOf.length]
  · exact fun slot member => empty slot member .server
  · rw [before.module] at fresh
    exact fresh

theorem ends_pack {builder : Builder} (distinct : builder.shared.types.Distinct) (ty : BundleTy)
    {channels : List (String × ChannelHandle)} (usable : Usable builder channels) :
    Ends (pack ty channels) builder
      (fun result after => (∀ entry ∈ channels, entry.2.scope = builder.scope) ∧
        ∃ positions, Matched builder.shared.types ty .toService channels positions ∧
          Packed ty channels positions builder result.1 result.2.channels after)
      fun error after => builder.Retabled after ∧ ¬ error.Stale ∧
        ¬ Suited builder ty .toService channels :=
  ends_pack_of_matches usable (checks_matchRoles ty .toService distinct (.refl _) usable.ready)

structure Unpacked (ty : BundleTy) (channels : List (String × ChannelHandle))
    (positions : List Nat) (before : Builder) (handle : BundleHandle)
    (returned : List (String × ChannelHandle)) (after : Builder) : Prop where
  slots : ∃ bundle slots, before.module.bundles.get? handle.id = some bundle ∧
    after.module.bundles.get? handle.id = some { bundle with roles := slots, server := .local } ∧
    slots.length = ty.length ∧
    SlotsFilled ty .toService .server ((channels.map (·.2)).zip positions) returned
      bundle.roles slots
  covers : Covers after.shared.types ty .toService returned
  fresh : ∀ entry ∈ returned, before.module.channels.size ≤ entry.2.id

def Awaits (builder : Builder) (ty : BundleTy) (handle : BundleHandle) : Prop :=
  ∃ bundle, builder.module.bundles.get? handle.id = some bundle ∧ bundle.server = .unbound ∧
    builder.shared.types.get? handle.ty = some (.bundle ty) ∧
    SlotsOf builder.shared.types ty bundle.roles

theorem ends_unservedBundle {builder : Builder} {handle : BundleHandle} {bundle : Bundle}
    (held : builder.module.bundles.get? handle.id = some bundle)
    (unbound : bundle.server = .unbound) :
    Ends (unservedBundle handle) builder (fun found after => found = bundle ∧ after = builder)
      fun _ _ => False := by
  unfold unservedBundle
  apply Ends.get_bind
  rw [held]
  refine Ends.ite (fun bound => ?_) fun _ => Ends.pure_iff.2 ⟨rfl, rfl⟩
  rw [unbound] at bound
  cases bound

/-- Unpacking fails only where the bundle is not the builder's own or the channels do not match the
roles. -/
theorem ends_unpack_of_matches {builder : Builder} {ty : BundleTy} {handle : BundleHandle}
    {channels : List (String × ChannelHandle)} {bad : BuildError → Builder → Prop}
    (awaits : handle.scope = builder.scope → Awaits builder ty handle)
    (usable : Usable builder channels)
    (foreign : handle.scope ≠ builder.scope → bad (.foreignHandle builder.name "bundle") builder)
    (matches' : handle.scope = builder.scope → Ends (matchRoles ty .fromService channels) builder
      (fun positions after => builder.Retabled after ∧
        (∀ entry ∈ channels, entry.2.scope = builder.scope) ∧
        Matched builder.shared.types ty .fromService channels positions) bad) :
    Ends (unpack handle channels) builder
      (fun result after => (handle.scope = builder.scope ∧
          ∀ entry ∈ channels, entry.2.scope = builder.scope) ∧
        ∃ positions, Matched builder.shared.types ty .fromService channels positions ∧
          Unpacked ty channels positions builder handle result.channels after) bad := by
  unfold unpack
  refine Ends.bind_iff.2 (Ends.get_bind (Ends.ite (fun apart => ?_) fun same => ?_))
  · exact Ends.throw_iff.2 (foreign apart)
  have own := Classical.not_not.1 same
  obtain ⟨bundle, held, unbound, typed, slotsOf⟩ := awaits own
  refine Ends.pure_iff.2 ?_
  refine Ends.bind (ends_unservedBundle held unbound) ?_ fun _ _ never => never.elim
  intro _ first ends
  obtain ⟨rfl, rfl⟩ := ends
  apply Ends.get_bind
  rw [TyPool.get_of_get? typed]
  refine Ends.bind (matches' own) ?_ fun _ _ badly => badly
  intro positions third ends
  obtain ⟨before, owned, matched⟩ := ends
  rw [← before.module] at held
  refine Ends.bind (ends_unservedBundle held unbound) ?_ fun _ _ never => never.elim
  intro former fourth ends
  obtain ⟨rfl, rfl⟩ := ends
  refine setBundle_bind ?_
  refine refs_connect handle.id .server fourth.shared.types (by decide) (slotsOf.grow before.types)
    matched (usable.isOpen owned (by rw [← before.module]; rfl)) (usable.once owned) ?_
  intro result later slotsFilled covers fresh
  obtain ⟨opened, filled⟩ := result
  refine setBundle_bind (Ends.bind_iff.2 (Ends.get_bind (Ends.pure_iff.2 (Ends.pure_iff.2 ?_))))
  refine ⟨⟨own, owned⟩, positions, matched, ⟨former, filled, ?_, ?_, ?_, slotsFilled⟩, covers, ?_⟩
  · rw [← before.module]
    exact held
  · simp only [Builder.withBundles, Builder.withChannels, Arena.set_set]
    exact (Arena.get?_set _ _ _ _).trans (if_pos ⟨rfl, Arena.lt_size_of_get? held⟩)
  · rw [length_eq_of_others slotsFilled.others, slotsOf.length]
  · rw [← before.module]
    exact fresh

theorem ends_unpack {builder : Builder} (distinct : builder.shared.types.Distinct) {ty : BundleTy}
    {handle : BundleHandle} {channels : List (String × ChannelHandle)}
    (awaits : handle.scope = builder.scope → Awaits builder ty handle)
    (usable : Usable builder channels) :
    Ends (unpack handle channels) builder
      (fun result after => (handle.scope = builder.scope ∧
          ∀ entry ∈ channels, entry.2.scope = builder.scope) ∧
        ∃ positions, Matched builder.shared.types ty .fromService channels positions ∧
          Unpacked ty channels positions builder handle result.channels after)
      fun error after => builder.Retabled after ∧ ¬ error.Stale ∧
        ¬ (handle.scope = builder.scope ∧ Suited builder ty .fromService channels) := by
  refine ends_unpack_of_matches awaits usable (fun apart => ?_) fun own => ?_
  · exact ⟨.refl _, id, fun right => apart right.1⟩
  · refine (checks_matchRoles ty .fromService distinct (.refl _) usable.ready).mono ?_ ?_
    · exact fun wrong right => wrong right.2
    · exact fun _ _ _ ends => ends

end Construction

end Elastic
