import Elastic.Proofs.Build.Roles

namespace Elastic.Construction

variable {own : Prop} {services : List Service} {builder : Builder} {side : ServiceSide}

theorem slot_of_others {slots filled : List RoleSlot}
    (others : filled.map (·.without side) = slots.map (·.without side)) {index : Nat}
    {later : RoleSlot} (held : filled[index]? = some later) :
    ∃ slot, slots[index]? = some slot ∧ later.flow = slot.flow ∧ later.payload = slot.payload ∧
      ∀ other, other ≠ side → later.at? other = slot.at? other := by
  have same : (filled.map (·.without side))[index]? = (slots.map (·.without side))[index]? := by
    rw [others]
  rw [List.getElem?_map, List.getElem?_map, held] at same
  obtain ⟨slot, present, equal⟩ := Option.map_eq_some_iff.1 same.symm
  obtain ⟨name, flow, payload, client, server⟩ := slot
  obtain ⟨name', flow', payload', client', server'⟩ := later
  refine ⟨_, present, ?_, ?_, ?_⟩
  · cases side <;> cases equal <;> rfl
  · cases side <;> cases equal <;> rfl
  · intro other apart
    cases side <;> cases other <;> cases equal <;> first | rfl | exact absurd rfl apart

theorem slotsOf_of_others {types : TyPool} {ty : BundleTy} {slots filled : List RoleSlot}
    (slotsOf : SlotsOf types ty slots)
    (others : filled.map (·.without side) = slots.map (·.without side)) :
    SlotsOf types ty filled := by
  refine ⟨?_, ?_⟩
  · have lengths := congrArg List.length others
    simp only [List.length_map] at lengths
    rw [lengths, slotsOf.length]
  · intro index later held
    obtain ⟨slot, present, flow, payload, -⟩ := slot_of_others others held
    obtain ⟨role, known, flows, found⟩ := slotsOf.role index slot present
    exact ⟨role, known, flow.trans flows, by rw [payload, found]⟩

theorem fits_of_suits {types : TyPool} {ty : BundleTy} {flow : Flow} {channel : ChannelHandle}
    {position : Nat} {slots : List RoleSlot} (suits : Suits builder types ty flow channel position)
    (known : builder.module.Knows (.channel channel)) (slotsOf : SlotsOf types ty slots)
    (source : flow.source = side) (free : Free side flow slots) :
    ∃ carrier slot, Fits builder.module.channels side slots channel.id position carrier slot := by
  obtain ⟨-, isOpen, role, held, flows, payload⟩ := suits
  obtain ⟨carrier, present, carried⟩ := known
  obtain ⟨slot, filled, flow', payload'⟩ := slotsOf.slot held
  rw [payload] at payload'
  refine ⟨carrier, slot, present, ?_, filled, ?_, ?_, ?_⟩
  · simpa [Module.isOpen, present] using isOpen
  · rw [flow', flows, source]
  · exact free slot (List.mem_of_getElem? filled) (flow'.trans flows)
  · rw [carried, Option.some.inj payload']

theorem nodup_ids {channels : List ChannelHandle}
    (scopes : ∀ channel ∈ channels, channel.scope = builder.scope)
    (known : ∀ channel ∈ channels, builder.module.Knows (.channel channel))
    (once : ∀ channel, channel.scope = builder.scope → channels.count channel ≤ 1) :
    (channels.map (·.id)).Nodup := by
  have distinct : channels.Nodup := by
    refine List.nodup_iff_count.2 fun channel => ?_
    by_cases inside : channel ∈ channels
    · exact once channel (scopes channel inside)
    · rw [List.count_eq_zero_of_not_mem inside]
      exact Nat.zero_le 1
  rw [List.Nodup, List.pairwise_map]
  refine List.Pairwise.imp_of_mem ?_ distinct
  intro first second one other apart same
  refine apart ?_
  obtain ⟨held, present, payload⟩ := known first one
  obtain ⟨held', present', payload'⟩ := known second other
  rw [same, present'] at present
  cases present
  have scope := (scopes first one).trans (scopes second other).symm
  obtain ⟨id, ty, own⟩ := first
  obtain ⟨id', ty', own'⟩ := second
  simp only at same payload payload' scope
  rw [same, ← payload, ← payload', scope]

/-- Supplied channels end in the roles of their flow, and channels are opened for the others. -/
theorem ends_connect {β : Type} {types : TyPool} {exprs : Nat} {table : SlotTable}
    {bundle : BundleId} {ty : BundleTy} {flow back : Flow} {channels : List ChannelHandle}
    {positions : List Nat} {slots : List RoleSlot}
    {next : List (String × ChannelHandle) × List RoleSlot → Construction β}
    {good : β → Builder → Prop} {bad : BuildError → Builder → Prop}
    (source : flow.source = side) (target : back.target = side)
    (linked : Linked builder.module.channels (table.overlay bundle slots))
    (fit : ChannelsFit own types.size exprs builder.module.channels)
    (slotsOf : SlotsOf types ty slots) (empty : ∀ slot ∈ slots, slot.at? side = none)
    (length : positions.length = channels.length) (distinct : positions.Nodup)
    (suits : ∀ pair ∈ channels.zip positions, Suits builder types ty flow pair.1 pair.2)
    (known : ∀ channel ∈ channels, channel.scope = builder.scope →
      builder.module.Knows (.channel channel))
    (once : ∀ channel, channel.scope = builder.scope → channels.count channel ≤ 1)
    (rest : ∀ result connected,
      Connected own types.size exprs table bundle side builder.module.channels connected slots
        result.2 →
      builder.Issued (builder.withChannels connected)
        (result.1.map fun entry => .channel entry.2) →
      Ends (next result) (builder.withChannels connected) good bad) :
    Ends (bindRoles bundle side (channels.zip positions) slots >>= fun slots =>
      openRoles bundle back side ty 0 slots >>= next) builder good bad := by
  have apart : back.source ≠ side := by
    rw [← target]
    exact back.source_ne_target
  have firsts : (channels.zip positions).map (·.1) = channels :=
    List.map_fst_zip (Nat.le_of_eq length.symm)
  have scopes : ∀ channel ∈ channels, channel.scope = builder.scope := by
    intro channel member
    rw [← firsts] at member
    obtain ⟨pair, inside, rfl⟩ := List.mem_map.1 member
    exact (suits pair inside).scope
  have owned : ∀ channel ∈ channels, builder.module.Knows (.channel channel) :=
    fun channel member => known channel member (scopes channel member)
  have fits : ∀ pair ∈ channels.zip positions, ∃ carrier slot,
      Fits builder.module.channels side slots pair.1.id pair.2 carrier slot := by
    intro pair member
    refine fits_of_suits (suits pair member) (owned _ ?_) slotsOf source
      fun slot inside _ => empty slot inside
    exact (List.of_mem_zip member).1
  have ids : ((channels.zip positions).map (·.1.id)).Nodup := by
    have named : (channels.zip positions).map (·.1.id) =
        ((channels.zip positions).map (·.1)).map (·.id) := by
      rw [List.map_map]
      rfl
    rw [named, firsts]
    exact nodup_ids scopes owned once
  have places : ((channels.zip positions).map (·.2)).Nodup := by
    rw [List.map_snd_zip (Nat.le_of_eq length)]
    exact distinct
  refine Ends.bind (ends_bindRoles _ slots builder linked fit fits ids places) ?_
    fun _ _ never => never.elim
  intro filled _ facts
  obtain ⟨first, rfl, bound, free⟩ := facts
  have filledOf := slotsOf_of_others slotsOf bound.others
  refine Ends.bind (ends_openRoles back ty 0 filled _ target bound.linked bound.fit ?_ ?_ ?_) ?_
    fun _ _ never => never.elim
  · intro index role held
    obtain ⟨slot, present, flows, -⟩ := filledOf.slot held
    exact ⟨slot, by rw [Nat.zero_add, present], flows⟩
  · intro index slot _ held flows
    exact free back apart (fun slot member _ => empty slot member) slot
      (List.mem_of_getElem? held) flows
  · intro index slot held
    obtain ⟨role, -, -, payload⟩ := filledOf.role index slot held
    exact TyPool.lt_size_of_find? payload
  · intro result _ facts
    obtain ⟨last, rfl, opened, issued⟩ := facts
    refine rest result last ⟨bound.kept.trans opened.kept, opened.fit, opened.linked,
      opened.others.trans bound.others⟩ ?_
    exact issued.earlier (Builder.grows_withChannels bound.kept)

theorem addBundle_bind {β : Type} {bundle : Bundle} {next : BundleHandle → Construction β}
    {good : β → Builder → Prop} {bad : BuildError → Builder → Prop}
    (rest : Ends (next ⟨builder.module.bundles.size, bundle.ty, builder.scope⟩)
      (builder.withBundles (builder.module.bundles.push bundle)) good bad) :
    Ends (addBundle bundle >>= next) builder good bad :=
  Ends.bind_iff.2 (Ends.modifyGet_iff.2 rest)

theorem endsSound_pack (sound : builder.Sound own services) (ty : BundleTy)
    (channels : List (String × ChannelHandle))
    (known : ∀ channel ∈ channels.map (·.2), channel.scope = builder.scope →
      builder.module.Knows (.channel channel))
    (once : ∀ channel, channel.scope = builder.scope → (channels.map (·.2)).count channel ≤ 1) :
    EndsSound own services (pack ty channels) builder fun result after =>
      builder.Issued after ((Holding.roles result.2).tokens ++ [.bundle result.1]) := by
  unfold pack
  refine (retables_matchRoles ty .toService channels builder).endsSound sound
    fun positions first retabled sound matched => ?_
  obtain ⟨length, distinct, suits⟩ := matched
  refine (retables_internTy _ first).endsSound sound fun bundleTy second still sound interned => ?_
  refine Ends.get_bind ?_
  refine (retables_roleSlots ty second).endsSound sound fun slots third calm sound slotsOf => ?_
  obtain ⟨slotsOf, empty⟩ := slotsOf
  have before : builder.Retabled third := (retabled.trans still).trans calm
  have later : first.Retabled third := still.trans calm
  have place : second.module.bundles.nextId = third.module.bundles.size := by
    rw [calm.module]
    rfl
  have absent : ∀ role, third.module.bundles.slot? third.module.bundles.size role = none := by
    intro role
    unfold Arena.slot?
    rw [(Arena.get?_eq_none_iff _ _).2 (Nat.le_refl _)]
    rfl
  rw [place]
  refine ends_connect (show Flow.source .toService = .client from rfl)
    (show Flow.target .fromService = .client from rfl) (sound.module.linked.fresh absent empty)
    sound.module.channelsFit slotsOf (fun slot member => empty slot member .client)
    (by rw [length, List.length_map]) distinct ?_ ?_ ?_ ?_
  · exact fun pair member => ((suits pair member).grow later.types).transfer before.scope
      (by rw [before.module])
  · intro channel member own
    rw [before.module]
    exact known channel member (own.trans before.scope)
  · exact fun channel own => once channel (own.trans before.scope)
  · intro result channels connected issued
    obtain ⟨opened, filled⟩ := result
    have typed : third.shared.types.get? bundleTy = some (.bundle ty) :=
      TyPool.get?_of_find? (calm.types.find? interned)
    have wired := sound.module.pushBundle ⟨bundleTy, filled, .local, .unbound⟩
      connected.kept connected.fit connected.linked
      ⟨ty, typed, slotsOf_of_others slotsOf connected.others⟩ ?_ ?_
    · refine addBundle_bind (Ends.bind_iff.2 (Ends.get_bind (Ends.pure_iff.2 ?_)))
      refine Ends.pure_iff.2 ⟨?_, ?_⟩
      · exact sound.exchange wired (Nat.le_refl _) connected.kept (bundlesKept_push _ _)
      · refine Builder.Issued.append (issued.earlier before.grows) (Builder.issued_bundle _ _)
          (before.grows.trans (Builder.grows_withChannels connected.kept)) ?_
        exact ⟨rfl, .refl _, Nat.le_refl _, .refl _, bundlesKept_push _ _⟩
    · intro side held
      cases side <;> nofun
    · intro role slot side held present
      cases side with
      | client => rfl
      | server =>
          obtain ⟨former, inside, -, -, same⟩ := slot_of_others connected.others held
          rw [same .server nofun, empty former (List.mem_of_getElem? inside) .server] at present
          cases present

theorem setBundle_bind {β : Type} {id : BundleId} {bundle : Bundle} {next : Unit → Construction β}
    {good : β → Builder → Prop} {bad : BuildError → Builder → Prop}
    (rest : Ends (next ()) (builder.withBundles (builder.module.bundles.set id bundle)) good bad) :
    Ends (setBundle id bundle >>= next) builder good bad :=
  Ends.bind_iff.2 (Ends.modify_iff.2 rest)

theorem endsSound_unpack (sound : builder.Sound own services) (handle : BundleHandle)
    (channels : List (String × ChannelHandle))
    (owned : handle.scope = builder.scope → builder.module.Knows (.bundle handle))
    (known : ∀ channel ∈ channels.map (·.2), channel.scope = builder.scope →
      builder.module.Knows (.channel channel))
    (once : ∀ channel, channel.scope = builder.scope → (channels.map (·.2)).count channel ≤ 1) :
    EndsSound own services (unpack handle channels) builder fun roles after =>
      builder.Issued after (Holding.roles roles).tokens := by
  unfold unpack
  refine (retables_checkScope _ _ builder).endsSound sound fun _ first retabled sound scope => ?_
  refine (retables_unservedBundle handle first).endsSound sound
    fun former second _ sound found => ?_
  obtain ⟨rfl, held, unbound⟩ := found
  refine Ends.get_bind ?_
  split
  · rename_i ty bundleTy
    refine (retables_matchRoles ty .fromService channels second).endsSound sound
      fun positions third still sound' matched => ?_
    obtain ⟨length, distinct, suits⟩ := matched
    refine (retables_unservedBundle handle third).endsSound sound'
      fun bundle fourth _ sound' found' => ?_
    obtain ⟨rfl, held', -⟩ := found'
    rw [still.module, held] at held'
    cases held'
    have before : builder.Retabled fourth := retabled.trans still
    obtain ⟨named, known', sameTy⟩ := owned scope
    rw [← retabled.module, held] at known'
    cases known'
    rw [← sameTy] at bundleTy
    obtain ⟨typed, slots⟩ := (sound.module.placed.bundles _ _ held).of_get bundleTy
    have vacant : ∀ slot ∈ former.roles, slot.at? .server = none := by
      intro slot member
      have unserved : former.at .server = .unbound := unbound
      exact sound.module.served.vacant held unserved member
    rw [← still.module] at held
    -- The bundle stands empty while its roles are connected. What is linked to the channels is the
    -- table in which it still has its former slots.
    have linked : Linked fourth.module.channels
        (fourth.module.bundles.slot?.overlay handle.id former.roles) := by
      rw [SlotTable.overlay_same _ held]
      exact sound'.module.linked
    refine setBundle_bind ?_
    refine ends_connect (show Flow.source .fromService = .server from rfl)
      (show Flow.target .toService = .server from rfl) linked sound'.module.channelsFit
      (slots.grow still.types) vacant (by rw [length, List.length_map]) distinct ?_ ?_ ?_ ?_
    · exact fun pair member => (suits pair member).transfer still.scope
        (by rw [← still.module]; rfl)
    · intro channel member own
      have first := known channel member (own.trans before.scope)
      rw [← before.module] at first
      exact first
    · exact fun channel own => once channel (own.trans before.scope)
    · intro result channels connected issued
      obtain ⟨opened, filled⟩ := result
      have wired := sound'.module.setBundle
        { former with roles := filled, server := .local }
        held connected.kept connected.fit connected.linked ?_ rfl ?_ ?_
      · refine setBundle_bind (Ends.bind_iff.2 (Ends.get_bind (Ends.pure_iff.2 ?_)))
        refine Ends.pure_iff.2 ⟨?_, ?_⟩
        · have exchanged := sound'.exchange wired (Nat.le_refl _) connected.kept
            (bundlesKept_set held rfl)
          simpa only [Builder.withBundles, Builder.withChannels, Arena.set_set] using exchanged
        · have opening : builder.Grows (fourth.withBundles
              (fourth.module.bundles.set handle.id { former with roles := [] })) :=
            before.grows.trans ⟨rfl, .refl _, Nat.le_refl _, .refl _, bundlesKept_set held rfl⟩
          refine (issued.earlier opening).later ⟨rfl, .refl _, Nat.le_refl _, .refl _, ?_⟩
          exact bundlesKept_set ((Arena.get?_set _ _ _ _).trans
            (if_pos ⟨rfl, Arena.lt_size_of_get? held⟩)) rfl
      · exact ⟨ty, still.types.get? typed,
          slotsOf_of_others (slots.grow still.types) connected.others⟩
      · intro side held
        cases side with
        | client => exact Iff.rfl
        | server =>
            simp only [Bundle.at, unbound, reduceCtorEq]
      · intro role slot side inside present
        cases side with
        | server => rfl
        | client =>
            obtain ⟨earlier, filled, -, -, same⟩ := slot_of_others connected.others inside
            rw [same .client (by decide)] at present
            have kept : former.at .client = .local :=
              sound'.module.served.filled _ _ role earlier .client held filled present
            exact kept
  · exact endsSound_throw sound

end Elastic.Construction
