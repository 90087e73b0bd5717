import Elastic.Proofs.Build.HandleRuns
import Mathlib.Data.List.Nodup

namespace Elastic

/-! What a bundle takes and gives. Where the names of its roles are distinct, packing and unpacking
take a channel for each role of a flow and no others, and give one for each role of the other flow.
-/

namespace BundleTy

theorem name_of_role? {name : String} {ty : BundleTy} {position : Nat} {role : Role}
    (found : role? name ty = some (position, role)) : role.name = name := by
  induction ty generalizing position with
  | nil => cases found
  | cons first rest induction =>
      unfold role? at found
      split at found
      · rename_i same
        cases found
        exact same
      · obtain ⟨⟨before, held⟩, inner, equal⟩ := Option.map_eq_some_iff.1 found
        cases equal
        exact induction inner

theorem role?_of_nodup {ty : BundleTy} (names : (ty.map (·.name)).Nodup) {position : Nat}
    {role : Role} (held : ty[position]? = some role) :
    role? role.name ty = some (position, role) := by
  induction ty generalizing position with
  | nil => cases held
  | cons first rest induction =>
      rw [List.map_cons, List.nodup_cons] at names
      unfold role?
      cases position with
      | zero =>
          cases held
          exact if_pos rfl
      | succ position =>
          have later : rest[position]? = some role := held
          have apart : first.name ≠ role.name := fun same =>
            names.1 (List.mem_map.2 ⟨role, List.mem_of_getElem? later, same.symm⟩)
          rw [if_neg apart, induction names.2 later]
          rfl

theorem mem_rolesIn {ty : BundleTy} {flow : Flow} {role : Role} :
    role ∈ rolesIn ty flow ↔ role ∈ ty ∧ role.flow = flow := by
  simp [rolesIn]

theorem nodup_rolesIn {ty : BundleTy} (names : (ty.map (·.name)).Nodup) (flow : Flow) :
    ((rolesIn ty flow).map (·.name)).Nodup :=
  names.sublist (List.filter_sublist.map _)

end BundleTy

/-- The channels are one for each role of a flow, in any order, with the payloads of the roles. -/
def Supplies (types : TyPool) (ty : BundleTy) (flow : Flow)
    (channels : List (String × ChannelHandle)) : Prop :=
  (channels.map fun entry => (entry.1, types.get? entry.2.payload)).Perm
    ((BundleTy.rolesIn ty flow).map fun role => (role.name, some role.payload))

instance (types : TyPool) (ty : BundleTy) (flow : Flow) (channels : List (String × ChannelHandle)) :
    Decidable (Supplies types ty flow channels) :=
  inferInstanceAs (Decidable (List.Perm _ _))

section

variable {types : TyPool} {ty : BundleTy} {flow : Flow} {channels : List (String × ChannelHandle)}
  {positions : List Nat} (names : (ty.map (·.name)).Nodup)

theorem mem_zip_of_forall₂ {α β : Type} {relation : α → β → Prop} {left : List α} {right : List β}
    (matched : List.Forall₂ relation left right) {first : α} (member : first ∈ left) :
    ∃ second, (first, second) ∈ left.zip right ∧ relation first second := by
  have firsts := List.map_fst_zip (Nat.le_of_eq matched.length_eq)
  rw [← firsts] at member
  obtain ⟨⟨left, right⟩, inside, rfl⟩ := List.mem_map.1 member
  exact ⟨right, inside, List.forall₂_zip matched inside⟩

theorem Matched.nodup_names (matched : Matched types ty flow channels positions) :
    (channels.map (·.1)).Nodup := by
  obtain ⟨distinct, answers, -⟩ := matched
  induction answers with
  | nil => exact .nil
  | @cons entry position rest others answer answers induction =>
      rw [List.nodup_cons] at distinct
      rw [List.map_cons, List.nodup_cons]
      refine ⟨fun again => distinct.1 ?_, induction distinct.2⟩
      obtain ⟨other, member, same⟩ := List.mem_map.1 again
      obtain ⟨place, inside, answer'⟩ := mem_zip_of_forall₂ answers member
      obtain ⟨role, found, -⟩ := answer
      obtain ⟨role', found', -⟩ := answer'
      rw [same, found] at found'
      cases found'
      exact (List.of_mem_zip inside).2

include names

theorem Matched.exists_entry (matched : Matched types ty flow channels positions) {position : Nat}
    {role : Role} (held : ty[position]? = some role) (flows : role.flow = flow) :
    ∃ channel, (role.name, channel) ∈ channels ∧
      (channel, position) ∈ (channels.map (·.2)).zip positions ∧
      types.get? channel.payload = some role.payload := by
  obtain ⟨⟨name, channel⟩, member, rfl⟩ := matched.named role
    (BundleTy.mem_rolesIn.2 ⟨List.mem_of_getElem? held, flows⟩)
  obtain ⟨place, inside, role', found, -, payload⟩ := mem_zip_of_forall₂ matched.answers member
  rw [BundleTy.role?_of_nodup names held] at found
  cases found
  refine ⟨channel, member, ?_, payload⟩
  rw [List.zip_map_left]
  exact List.mem_map.2 ⟨_, inside, rfl⟩

theorem Matched.supplies (matched : Matched types ty flow channels positions) :
    Supplies types ty flow channels := by
  have left : (channels.map fun entry => (entry.1, types.get? entry.2.payload)).Nodup := by
    refine List.Nodup.of_map Prod.fst ?_
    rw [List.map_map]
    exact matched.nodup_names
  have right : ((BundleTy.rolesIn ty flow).map fun role =>
      (role.name, some role.payload)).Nodup := by
    refine List.Nodup.of_map Prod.fst ?_
    rw [List.map_map]
    exact BundleTy.nodup_rolesIn names flow
  refine (List.perm_ext_iff_of_nodup left right).2 fun pair => ⟨fun member => ?_, fun member => ?_⟩
  · obtain ⟨entry, inside, rfl⟩ := List.mem_map.1 member
    obtain ⟨position, -, role, found, flows, payload⟩ := mem_zip_of_forall₂ matched.answers inside
    rw [payload, ← BundleTy.name_of_role? found]
    exact List.mem_map.2 ⟨role, BundleTy.mem_rolesIn.2
      ⟨List.mem_of_getElem? (BundleTy.getElem?_of_role? found), flows⟩, rfl⟩
  · obtain ⟨role, inside, rfl⟩ := List.mem_map.1 member
    obtain ⟨present, flows⟩ := BundleTy.mem_rolesIn.1 inside
    obtain ⟨position, held⟩ := List.mem_iff_getElem?.1 present
    obtain ⟨channel, given, -, payload⟩ := matched.exists_entry names held flows
    rw [← payload]
    exact List.mem_map.2 ⟨_, given, rfl⟩

theorem Supplies.matched (supplies : Supplies types ty flow channels) :
    ∃ positions, Matched types ty flow channels positions := by
  let position (name : String) : Nat := ((BundleTy.role? name ty).map (·.1)).getD 0
  have answers : ∀ entry ∈ channels, Plays types ty flow entry (position entry.1) := by
    intro entry member
    obtain ⟨role, inside, equal⟩ := List.mem_map.1
      (supplies.mem_iff.1 (List.mem_map.2 ⟨entry, member, rfl⟩))
    obtain ⟨present, flows⟩ := BundleTy.mem_rolesIn.1 inside
    obtain ⟨index, held⟩ := List.mem_iff_getElem?.1 present
    obtain ⟨name, payload⟩ := Prod.mk.inj equal
    have found := BundleTy.role?_of_nodup names held
    rw [name] at found
    have place : position entry.1 = index := by simp [position, found]
    rw [place]
    exact ⟨role, found, flows, payload.symm⟩
  have given : (channels.map (·.1)).Nodup := by
    have perm := supplies.map Prod.fst
    rw [List.map_map, List.map_map] at perm
    exact perm.nodup_iff.2 (BundleTy.nodup_rolesIn names flow)
  refine ⟨channels.map fun entry => position entry.1, ?_, ?_, ?_⟩
  · have named : channels.map (fun entry => position entry.1) =
        (channels.map (·.1)).map position := by
      rw [List.map_map]
      rfl
    rw [named]
    refine given.map_on fun first one second other same => ?_
    obtain ⟨entry, inside, rfl⟩ := List.mem_map.1 one
    obtain ⟨entry', inside', rfl⟩ := List.mem_map.1 other
    obtain ⟨role, found, -⟩ := answers entry inside
    obtain ⟨role', found', -⟩ := answers entry' inside'
    have held := BundleTy.getElem?_of_role? found
    rw [same, BundleTy.getElem?_of_role? found'] at held
    cases held
    exact (BundleTy.name_of_role? found).symm.trans (BundleTy.name_of_role? found')
  · exact List.forall₂_map_right_iff.2 (List.forall₂_same.2 answers)
  · intro role inside
    obtain ⟨entry, member, equal⟩ := List.mem_map.1
      (supplies.mem_iff.2 (List.mem_map.2 ⟨role, inside, rfl⟩))
    exact ⟨entry, member, (Prod.mk.inj equal).1⟩

end

/-- Every slot has a channel at a side, a returned one if the role flows back and else one that was
supplied under the name of the role. -/
structure Filled (ty : BundleTy) (side : ServiceSide) (back : Flow)
    (supplied returned : List (String × ChannelHandle)) (slots : List RoleSlot) : Prop where
  length : slots.length = ty.length
  each : ∀ (position : Nat) (role : Role), ty[position]? = some role →
    ∃ slot channel, slots[position]? = some slot ∧ slot.at? side = some channel.id ∧
      (role.name, channel) ∈ if role.flow = back then returned else supplied

theorem Matched.filled {types : TyPool} {ty : BundleTy} {flow back : Flow} {side : ServiceSide}
    {channels returned : List (String × ChannelHandle)} {positions : List Nat}
    {former slots : List RoleSlot} (matched : Matched types ty flow channels positions)
    (names : (ty.map (·.name)).Nodup) (flows : ∀ role : Role, role.flow ≠ back → role.flow = flow)
    (length : slots.length = ty.length)
    (slotsFilled : SlotsFilled ty back side ((channels.map (·.2)).zip positions) returned
      former slots) :
    Filled ty side back channels returned slots := by
  refine ⟨length, fun position role held => ?_⟩
  by_cases goes : role.flow = back
  · rw [if_pos goes]
    exact slotsFilled.returned position role held goes
  · rw [if_neg goes]
    obtain ⟨channel, given, inside, -⟩ := matched.exists_entry names held (flows role goes)
    obtain ⟨slot, present, stands⟩ := slotsFilled.supplied _ inside
    exact ⟨slot, channel, present, stands, given⟩

variable {setting : Setting}

/-- Where the names of the roles are distinct, packing takes one channel for each role to the
service and nothing else, and unpacking one for each role from the service. Either gives channels
for the other roles, in their order, and leaves a channel at its side of every slot. -/
theorem exchange_takes_each_role_once {builder : Builder} {unused : List Token}
    (run : Run setting builder unused) {ty : BundleTy} (names : (ty.map (·.name)).Nodup) :
    (∀ channels : List (String × ChannelHandle),
      (∀ entry ∈ channels, entry.2.scope = builder.scope) →
      builder.Affords unused (Holding.allTokens (Call.pack ty channels).given) →
      Ends (Construction.pack ty channels) builder
        (fun result after => Supplies builder.shared.types ty .toService channels ∧
          after.shared.types.get? result.1.ty = some (.bundle ty) ∧
          Covers after.shared.types ty .fromService result.2.channels ∧
          (∀ entry ∈ result.2.channels, builder.module.channels.size ≤ entry.2.id) ∧
          ∃ slots, after.module.bundles.get? result.1.id =
              some ⟨result.1.ty, slots, .local, .unbound⟩ ∧
            Filled ty .client .fromService channels result.2.channels slots)
        fun _ _ => ¬ Supplies builder.shared.types ty .toService channels) ∧
    ∀ (handle : BundleHandle) (channels : List (String × ChannelHandle)),
      handle.scope = builder.scope → (∀ entry ∈ channels, entry.2.scope = builder.scope) →
      builder.Affords unused (Holding.allTokens (Call.unpack handle channels).given) →
      builder.shared.types.get? handle.ty = some (.bundle ty) →
      Ends (Construction.unpack handle channels) builder
        (fun result after => Supplies builder.shared.types ty .fromService channels ∧
          Covers after.shared.types ty .toService result.channels ∧
          (∀ entry ∈ result.channels, builder.module.channels.size ≤ entry.2.id) ∧
          ∃ bundle slots, builder.module.bundles.get? handle.id = some bundle ∧
            after.module.bundles.get? handle.id =
              some { bundle with roles := slots, server := .local } ∧
            Filled ty .server .toService channels result.channels slots ∧
            slots.map (·.without .server) = bundle.roles.map (·.without .server))
        fun _ _ => ¬ Supplies builder.shared.types ty .fromService channels := by
  have tracked := run.tracked
  constructor
  · intro channels own affords
    rw [← List.append_nil (Holding.allTokens _)] at affords
    have usable := (tracked.spends affords).usable tracked.sound
    refine (Construction.ends_pack tracked.distinct ty usable).mono ?_ ?_
    · intro result after ends
      obtain ⟨-, positions, matched, typed, placed, covers, fresh⟩ := ends
      obtain ⟨former, slots, held, length, -, slotsFilled⟩ := placed
      refine ⟨matched.supplies names, typed, covers, fresh, slots, held, ?_⟩
      exact matched.filled names (fun role => by cases role.flow <;> simp) length slotsFilled
    · exact fun _ _ ends supplies => ends.2.2 ⟨own, supplies.matched names⟩
  · intro handle channels scope own affords typed
    rw [← List.append_nil (Holding.allTokens _)] at affords
    have spends := tracked.spends affords
    have usable := spends.rest.usable tracked.sound
    have awaits : handle.scope = builder.scope → Construction.Awaits builder ty handle := by
      intro scope
      obtain ⟨bundle, -, held, named, unbound, -⟩ := spends.bundle scope
      obtain ⟨ty', known, slotsOf⟩ := tracked.sound.module.placed.bundles _ _ held
      rw [named, typed] at known
      cases known
      exact ⟨bundle, held, unbound, typed, slotsOf⟩
    refine (Construction.ends_unpack tracked.distinct awaits usable).mono ?_ ?_
    · intro result after ends
      obtain ⟨-, positions, matched, placed, covers, fresh⟩ := ends
      obtain ⟨bundle, slots, held, later, length, slotsFilled⟩ := placed
      refine
        ⟨matched.supplies names, covers, fresh, bundle, slots, held, later, ?_, slotsFilled.others⟩
      exact matched.filled names (fun role => by cases role.flow <;> simp) length slotsFilled
    · exact fun _ _ ends supplies => ends.2.2 ⟨scope, own, supplies.matched names⟩

theorem echo_bundle_is_exchanged :
    ∃ builder, Run .bare builder [.bundle ⟨0, 1, 0⟩, .channel ⟨2, 0, 0⟩, .channel ⟨1, 0, 0⟩] ∧
      (BundleTy.echo.map (·.name)).Nodup ∧
      Ends (Construction.pack .echo [("a", ⟨1, 0, 0⟩)]) builder
        (fun result after => Covers after.shared.types .echo .fromService result.2.channels ∧
          ∃ slots, after.module.bundles.get? result.1.id =
              some ⟨result.1.ty, slots, .local, .unbound⟩ ∧
            Filled .echo .client .fromService [("a", ⟨1, 0, 0⟩)] result.2.channels slots)
        (fun _ _ => False) ∧
      Ends (Construction.unpack ⟨0, 1, 0⟩ [("b", ⟨1, 0, 0⟩)]) builder
        (fun result after => Covers after.shared.types .echo .toService result.channels ∧
          ∃ (bundle : Bundle) (slots : List RoleSlot), after.module.bundles.get? 0 =
              some { bundle with roles := slots, server := .local } ∧
            Filled .echo .server .toService [("b", ⟨1, 0, 0⟩)] result.channels slots)
        fun _ _ => False := by
  have begun : Run .bare (({} : Elaboration).begun { name := "Top" } []).builder [] := .first rfl
  have valued := begun.next [] [] (.bool true) (by decide) (by decide +kernel)
  have first := valued.next [.channel ⟨0, 0, 0⟩] [] (.wrap .bit ⟨0, 0⟩ ⟨0, 0⟩) (by decide)
    (by decide +kernel)
  have second := first.next [.channel ⟨1, 0, 0⟩, .channel ⟨0, 0, 0⟩] [.channel ⟨0, 0, 0⟩]
    (.wrap .bit ⟨0, 0⟩ ⟨0, 0⟩) (by decide) (by decide +kernel)
  have packed := second.next
    [.bundle ⟨0, 1, 0⟩, .channel ⟨2, 0, 0⟩, .channel ⟨1, 0, 0⟩] [.channel ⟨1, 0, 0⟩]
    (.pack .echo [("a", ⟨0, 0, 0⟩)]) (by decide) (by decide +kernel)
  have names : (BundleTy.echo.map (·.name)).Nodup := by decide
  have exchange := exchange_takes_each_role_once packed names
  refine ⟨_, packed, names, ?_, ?_⟩
  · refine (exchange.1 _ (by decide +kernel)
      (Builder.affords_of_count (by decide) _)).mono ?_ ?_
    · exact fun _ _ ends => ⟨ends.2.2.1, ends.2.2.2.2⟩
    · exact fun _ _ fails => fails (by decide +kernel)
  · refine (exchange.2 ⟨0, 1, 0⟩ _ (by decide +kernel) (by decide +kernel)
      (Builder.affords_of_count (by decide) _) (by decide +kernel)).mono ?_ ?_
    · intro _ _ ends
      obtain ⟨-, covers, -, bundle, slots, -, held, filled, -⟩ := ends
      exact ⟨covers, bundle, slots, held, filled⟩
    · exact fun _ _ fails => fails (by decide +kernel)

example : ((do
    let always ← Construction.bool true
    let (channel, _) ← Construction.wrap .bit always always
    let (bundle, _) ← Construction.pack [⟨"a", .toService, .bit⟩, ⟨"a", .toService, .bit⟩]
      [("a", channel)]
    return ((← get).module.bundles.get? bundle.id).map fun held => held.roles.map (·.client) :
      Construction (Option (List (Option ChannelId)))).run.run
    (({} : Elaboration).begun { name := "Top" } []).builder).1.toOption =
      some (some [some 0, none]) := by
  decide +kernel

end Elastic
