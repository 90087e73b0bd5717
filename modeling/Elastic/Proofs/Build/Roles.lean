import Elastic.Proofs.Build.Values

namespace Elastic

/-! Channels that end in the roles of one bundle, or begin there. While they are being connected the
slots of the bundle stand apart from the module. -/

def Free (side : ServiceSide) (flow : Flow) (slots : List RoleSlot) : Prop :=
  ∀ slot ∈ slots, slot.flow = flow → slot.at? side = none

structure Connected (own : Prop) (types exprs : Nat) (table : SlotTable) (bundle : BundleId)
    (side : ServiceSide) (before after : Arena Channel) (slots filled : List RoleSlot) : Prop where
  kept : ChannelsKept before after
  fit : ChannelsFit own types exprs after
  linked : Linked after (table.overlay bundle filled)
  others : filled.map (·.without side) = slots.map (·.without side)

structure Fits (channels : Arena Channel) (side : ServiceSide) (slots : List RoleSlot)
    (channel : ChannelId) (position : Nat) (carrier : Channel) (slot : RoleSlot) : Prop where
  known : channels.get? channel = some carrier
  unbound : carrier.consumer = .unbound
  held : slots[position]? = some slot
  source : slot.flow.source = side
  free : slot.at? side = none
  payload : carrier.payload = slot.payload

namespace Construction

variable {own : Prop} {types exprs : Nat} {table : SlotTable} {bundle : BundleId}
  {side : ServiceSide}

theorem map_without_modify (side : ServiceSide) (slots : List RoleSlot) (position : Nat)
    (channel : ChannelId) :
    (slots.modify position (attach side channel)).map (·.without side) =
      slots.map (·.without side) := by
  refine List.ext_getElem? fun index => ?_
  rw [List.getElem?_map, List.getElem?_map, List.getElem?_modify]
  cases slots[index]? with
  | none => rfl
  | some slot =>
      by_cases here : position = index <;> simp [here]

theorem slot_of_modify {slots : List RoleSlot} {position index : Nat} {filled : RoleSlot}
    {channel : ChannelId}
    (known : (slots.modify position (attach side channel))[index]? = some filled) :
    ∃ slot, slots[index]? = some slot ∧ filled.flow = slot.flow ∧ filled.payload = slot.payload ∧
      (index ≠ position → filled = slot) := by
  rw [List.getElem?_modify] at known
  obtain ⟨slot, held, equal⟩ := Option.map_eq_some_iff.1 known
  by_cases here : position = index
  · rw [if_pos here] at equal
    subst equal
    exact ⟨slot, held, flow_attach, payload_attach, fun apart => absurd here.symm apart⟩
  · rw [if_neg here] at equal
    exact ⟨slot, held, by rw [← equal], by rw [← equal], fun _ => equal.symm⟩

theorem free_modify {slots : List RoleSlot} {flow : Flow} {position : Nat} {slot : RoleSlot}
    (free : Free side flow slots) (held : slots[position]? = some slot) (apart : slot.flow ≠ flow)
    (channel : ChannelId) : Free side flow (slots.modify position (attach side channel)) := by
  intro other member flows
  obtain ⟨index, known⟩ := List.mem_iff_getElem?.1 member
  obtain ⟨former, present, flow', -, same⟩ := slot_of_modify known
  by_cases here : index = position
  · rw [here, held] at present
    cases present
    exact absurd (flow'.symm.trans flows) apart
  · rw [same here] at flows ⊢
    exact free former (List.mem_of_getElem? present) flows

theorem fits_other {channels : Arena Channel} {slots : List RoleSlot} {channel target : ChannelId}
    {position place : Nat} {carrier changed : Channel} {slot : RoleSlot}
    (fits : Fits channels side slots channel position carrier slot) (distinct : channel ≠ target)
    (apart : position ≠ place) :
    Fits (channels.set target changed) side (slots.modify place (attach side target)) channel
      position carrier slot := by
  refine { fits with known := ?_, held := ?_ }
  · rw [Arena.get?_set, if_neg fun same => distinct same.1]
    exact fits.known
  · have other : ¬ place = position := fun same => apart same.symm
    simp [other, fits.held]

theorem ends_bind {builder : Builder} {channel : ChannelHandle} {held : Channel}
    (consumer : Consumer) (known : builder.module.channels.get? channel.id = some held)
    (unbound : held.consumer = .unbound) :
    Ends (bind channel consumer) builder
      (fun _ after => after = builder.withChannels
        (builder.module.channels.set channel.id { held with consumer := consumer }))
      fun _ _ => False := by
  have isOpen : builder.module.isOpen channel.id = true := by
    simp [Module.isOpen, known, unbound]
  unfold bind
  refine Ends.get_bind (Ends.ite (fun _ => Ends.modify_iff.2 ?_) fun closed => ?_)
  · simp only [Module.consume, known]
    rfl
  · exact absurd isOpen closed

theorem ends_bindRoles (pairs : List (ChannelHandle × Nat)) (slots : List RoleSlot)
    (builder : Builder) (linked : Linked builder.module.channels (table.overlay bundle slots))
    (fit : ChannelsFit own types exprs builder.module.channels)
    (fits : ∀ pair ∈ pairs, ∃ carrier slot,
      Fits builder.module.channels side slots pair.1.id pair.2 carrier slot)
    (channels : (pairs.map (·.1.id)).Nodup) (positions : (pairs.map (·.2)).Nodup) :
    Ends (bindRoles bundle side pairs slots) builder
      (fun filled after => ∃ channels, after = builder.withChannels channels ∧
        Connected own types exprs table bundle side builder.module.channels channels slots filled ∧
        ∀ flow, flow.source ≠ side → Free side flow slots → Free side flow filled)
      fun _ _ => False := by
  induction pairs generalizing slots builder with
  | nil =>
      exact Ends.pure_iff.2 ⟨_, rfl, ⟨.refl _, fit, linked, rfl⟩, fun _ _ free => free⟩
  | cons pair rest induction =>
      obtain ⟨channel, position⟩ := pair
      obtain ⟨carrier, slot, here⟩ := fits _ List.mem_cons_self
      rw [List.map_cons, List.nodup_cons] at channels positions
      refine Ends.bind (ends_bind (.bundle bundle position) here.known here.unbound) ?_
        fun _ _ never => never
      intro _ after equal
      subst equal
      have bound := fit channel.id carrier here.known
      have connected := linked.bind here.known here.unbound here.held
        (by rw [here.source]; exact here.free) here.payload
      rw [here.source] at connected
      have kept : ChannelsKept builder.module.channels (builder.module.channels.set channel.id
          { carrier with consumer := .bundle bundle position }) := channelsKept_set here.known rfl
      refine (induction _ (builder.withChannels _) connected ?_ ?_ channels.2 positions.2).mono ?_
        fun _ _ never => never
      · refine channelsFit_set fit bound.1 fun values operand member => ?_
        rcases List.mem_append.1 member with driven | taken
        · exact bound.2 values operand (List.mem_append_left _ driven)
        · cases taken
      · intro pair member
        obtain ⟨other, target, there⟩ := fits pair (List.mem_cons_of_mem _ member)
        refine ⟨other, target, fits_other there ?_ ?_⟩
        · exact fun same => channels.1 (same ▸ List.mem_map_of_mem member)
        · exact fun same => positions.1 (same ▸ List.mem_map_of_mem member)
      · intro filled _ facts
        obtain ⟨last, rfl, connected, free⟩ := facts
        refine ⟨last, rfl, ⟨?_, connected.fit, connected.linked, ?_⟩, ?_⟩
        · exact kept.trans connected.kept
        · exact connected.others.trans (map_without_modify side slots position channel.id)
        · intro flow apart former
          refine free flow apart (free_modify former here.held ?_ channel.id)
          intro same
          exact apart (same ▸ here.source)

theorem slot_modify (side : ServiceSide) {slots : List RoleSlot} (position : Nat) {index : Nat}
    {slot : RoleSlot} (held : slots[index]? = some slot) (channel : ChannelId) :
    ∃ filled, (slots.modify position (attach side channel))[index]? = some filled ∧
      filled.flow = slot.flow ∧ filled.payload = slot.payload ∧
      (index ≠ position → filled = slot) := by
  rw [List.getElem?_modify, held]
  by_cases here : position = index
  · exact ⟨attach side channel slot, by simp [here], flow_attach, payload_attach,
      fun apart => absurd here.symm apart⟩
  · exact ⟨slot, by simp [here], rfl, rfl, fun _ => rfl⟩

theorem ends_openRoles (flow : Flow) (rest : BundleTy) (position : Nat) (slots : List RoleSlot)
    (builder : Builder) (target : flow.target = side)
    (linked : Linked builder.module.channels (table.overlay bundle slots))
    (fit : ChannelsFit own types exprs builder.module.channels)
    (typed : ∀ (index : Nat) (role : Role), rest[index]? = some role →
      ∃ slot, slots[position + index]? = some slot ∧ slot.flow = role.flow)
    (free : ∀ (index : Nat) (slot : RoleSlot), position ≤ index → slots[index]? = some slot →
      slot.flow = flow → slot.at? side = none)
    (payloads : ∀ (index : Nat) (slot : RoleSlot), slots[index]? = some slot →
      slot.payload < types) :
    Ends (openRoles bundle flow side rest position slots) builder
      (fun result after => ∃ channels, after = builder.withChannels channels ∧
        Connected own types exprs table bundle side builder.module.channels channels slots
          result.2 ∧
        builder.Issued after (result.1.map fun entry => .channel entry.2))
      fun _ _ => False := by
  induction rest generalizing position slots builder with
  | nil =>
      exact Ends.pure_iff.2 ⟨_, rfl, ⟨.refl _, fit, linked, rfl⟩, .nil, nofun, nofun, nofun⟩
  | cons role rest induction =>
      have later : ∀ (index : Nat) (role : Role), rest[index]? = some role →
          ∃ slot, slots[position + 1 + index]? = some slot ∧ slot.flow = role.flow := by
        intro index other held
        obtain ⟨slot, known, flows⟩ := typed (index + 1) other held
        exact ⟨slot, by rw [← known]; congr 1; omega, flows⟩
      unfold openRoles
      refine Ends.ite (fun flows => ?_) fun _ => ?_
      · obtain ⟨slot, held, same⟩ := typed 0 role rfl
        rw [Nat.add_zero] at held
        have opens : slot.flow = flow := same.trans flows
        have empty := free position slot (Nat.le_refl _) held opens
        have payload : (slots[position]?.map (·.payload)).getD 0 = slot.payload := by
          rw [held]
          rfl
        refine Ends.bind_iff.2 (Ends.modifyGet_iff.2 ?_)
        rw [payload]
        let channel : Channel := ⟨slot.payload, .bundle bundle position, .unbound⟩
        have opened := linked.openRole held (by rw [opens, target]; exact empty)
        rw [opens, target] at opened
        have kept := channelsKept_push builder.module.channels channel
        refine Ends.bind (induction (position + 1) _ (builder.withChannels _) opened ?_ ?_ ?_ ?_) ?_
          fun _ _ never => never
        · exact channelsFit_push channel fit (payloads position slot held) fun _ => nofun
        · intro index other known
          obtain ⟨present, inside, flows⟩ := later index other known
          obtain ⟨filled, stays, flow, -, -⟩ := slot_modify side position
            inside builder.module.channels.size
          exact ⟨filled, stays, flow.trans flows⟩
        · intro index other after known flows
          obtain ⟨former, present, -, -, same⟩ := slot_of_modify known
          rw [same (by omega)] at flows ⊢
          exact free index former (by omega) present flows
        · intro index other known
          obtain ⟨former, present, -, equal, -⟩ := slot_of_modify known
          rw [equal]
          exact payloads index former present
        · intro result _ facts
          obtain ⟨last, rfl, connected, issued⟩ := facts
          refine Ends.pure_iff.2 ⟨last, rfl, ⟨kept.trans connected.kept, connected.fit,
            connected.linked, ?_⟩, ?_⟩
          · exact connected.others.trans
              (map_without_modify side slots position builder.module.channels.size)
          · exact (builder.issued_channel channel).append issued (Builder.grows_withChannels kept)
              (Builder.grows_withChannels connected.kept)
      · exact induction (position + 1) slots builder linked fit later
          (fun index slot after => free index slot (by omega)) payloads

end Construction

end Elastic
