import Elastic.Build.Construct
import Elastic.Proofs.Build.Growth

namespace Elastic

/-! Channels and the roles of bundles that they end in. The links are written from both sides: a
channel names the role, and the slot of the role names the channel. -/

namespace Flow

def source : Flow → ServiceSide
  | .toService => .client
  | .fromService => .server

def target : Flow → ServiceSide
  | .toService => .server
  | .fromService => .client

theorem source_ne_target (flow : Flow) : flow.source ≠ flow.target := by
  cases flow <;> decide

end Flow

namespace RoleSlot

def at? (slot : RoleSlot) : ServiceSide → Option ChannelId
  | .client => slot.client
  | .server => slot.server

def without (side : ServiceSide) (slot : RoleSlot) : RoleSlot :=
  match side with
  | .client => { slot with client := none }
  | .server => { slot with server := none }

end RoleSlot

namespace Construction

variable {side other : ServiceSide} {channel : ChannelId} {slot : RoleSlot}

@[simp] theorem at?_attach_self : (attach side channel slot).at? side = some channel := by
  cases side <;> rfl

theorem at?_attach_other (distinct : other ≠ side) :
    (attach side channel slot).at? other = slot.at? other := by
  cases side <;> cases other <;> first | rfl | exact absurd rfl distinct

@[simp] theorem flow_attach : (attach side channel slot).flow = slot.flow := by
  cases side <;> rfl

@[simp] theorem payload_attach : (attach side channel slot).payload = slot.payload := by
  cases side <;> rfl

@[simp] theorem without_attach : (attach side channel slot).without side = slot.without side := by
  cases side <;> rfl

end Construction

abbrev SlotTable := BundleId → Nat → Option RoleSlot

namespace SlotTable

def overlay (slots : SlotTable) (bundle : BundleId) (roles : List RoleSlot) : SlotTable :=
  fun other role => if other = bundle then roles[role]? else slots other role

theorem overlay_modify (slots : SlotTable) (bundle : BundleId) (roles : List RoleSlot) (role : Nat)
    (change : RoleSlot → RoleSlot) (other : BundleId) (place : Nat) :
    slots.overlay bundle (roles.modify role change) other place =
      if other = bundle ∧ place = role then (slots.overlay bundle roles other place).map change
      else slots.overlay bundle roles other place := by
  unfold overlay
  by_cases same : other = bundle
  · by_cases here : place = role
    · subst here
      simp [same, List.getElem?_modify_eq]
    · have apart : ¬ role = place := fun equal => here equal.symm
      simp [same, here, apart]
  · simp [same]

end SlotTable

def Arena.slot? (bundles : Arena Bundle) : SlotTable :=
  fun bundle role => (bundles.get? bundle).bind (·.roles[role]?)

/-- Each slot names the channels that end in it or start from it, and they name the slot. -/
structure Linked (channels : Arena Channel) (slots : SlotTable) : Prop where
  consumer : ∀ bundle role id channel, channels.get? id = some channel →
    (channel.consumer = .bundle bundle role ↔
      ∃ slot, slots bundle role = some slot ∧ slot.at? slot.flow.source = some id)
  producer : ∀ bundle role id channel, channels.get? id = some channel →
    (channel.producer = .bundle bundle role ↔
      ∃ slot, slots bundle role = some slot ∧ slot.at? slot.flow.target = some id)
  carried : ∀ bundle role slot side id, slots bundle role = some slot → slot.at? side = some id →
    ∃ channel, channels.get? id = some channel ∧ channel.payload = slot.payload

namespace Linked

variable {channels : Arena Channel} {slots : SlotTable}

theorem push (linked : Linked channels slots) {channel : Channel}
    (consumer : ∀ bundle role, channel.consumer ≠ .bundle bundle role)
    (producer : ∀ bundle role, channel.producer ≠ .bundle bundle role) :
    Linked (channels.push channel) slots := by
  have fresh : ∀ bundle role slot side, slots bundle role = some slot →
      slot.at? side ≠ some channels.size := by
    intro bundle role slot side held named
    obtain ⟨_, known, -⟩ := linked.carried _ _ _ _ _ held named
    exact Nat.lt_irrefl _ (Arena.lt_size_of_get? known)
  constructor
  · intro bundle role id held known
    rw [Arena.get?_push] at known
    split at known
    · rename_i last
      cases known
      subst last
      simp only [consumer, false_iff, not_exists, not_and]
      exact fun slot => fresh bundle role slot _
    · exact linked.consumer bundle role id held known
  · intro bundle role id held known
    rw [Arena.get?_push] at known
    split at known
    · rename_i last
      cases known
      subst last
      simp only [producer, false_iff, not_exists, not_and]
      exact fun slot => fresh bundle role slot _
    · exact linked.producer bundle role id held known
  · intro bundle role slot side id held named
    obtain ⟨known, present, payload⟩ := linked.carried _ _ _ _ _ held named
    exact ⟨known, Arena.grows_push _ _ _ _ present, payload⟩

theorem fresh (linked : Linked channels slots) {bundle : BundleId} {roles : List RoleSlot}
    (absent : ∀ role, slots bundle role = none)
    (empty : ∀ slot ∈ roles, ∀ side, slot.at? side = none) :
    Linked channels (slots.overlay bundle roles) := by
  have unnamed : ∀ (role : Nat) slot side, roles[role]? = some slot → slot.at? side = none :=
    fun role slot side held => empty slot (List.mem_of_getElem? held) side
  have overlaid : ∀ other role slot side id, slots.overlay bundle roles other role = some slot →
      slot.at? side = some id → other ≠ bundle ∧ slots other role = some slot := by
    intro other role slot side id held named
    unfold SlotTable.overlay at held
    split at held
    · rw [unnamed role slot side held] at named
      cases named
    · rename_i apart
      exact ⟨apart, held⟩
  have back : ∀ other role slot, slots other role = some slot →
      slots.overlay bundle roles other role = some slot := by
    intro other role slot held
    unfold SlotTable.overlay
    split
    · rename_i same
      subst same
      rw [absent role] at held
      cases held
    · exact held
  constructor
  · intro other role id channel known
    rw [linked.consumer other role id channel known]
    constructor
    · intro facts
      obtain ⟨slot, held, named⟩ := facts
      exact ⟨slot, back other role slot held, named⟩
    · intro facts
      obtain ⟨slot, held, named⟩ := facts
      exact ⟨slot, (overlaid other role slot _ id held named).2, named⟩
  · intro other role id channel known
    rw [linked.producer other role id channel known]
    constructor
    · intro facts
      obtain ⟨slot, held, named⟩ := facts
      exact ⟨slot, back other role slot held, named⟩
    · intro facts
      obtain ⟨slot, held, named⟩ := facts
      exact ⟨slot, (overlaid other role slot _ id held named).2, named⟩
  · intro other role slot side id held named
    have earlier := (overlaid other role slot side id held named).2
    exact linked.carried other role slot side id earlier named

theorem consume (linked : Linked channels slots) {id : ChannelId} {channel : Channel}
    (known : channels.get? id = some channel) (unbound : channel.consumer = .unbound)
    {consumer : Consumer} (inside : ∀ bundle role, consumer ≠ .bundle bundle role) :
    Linked (channels.set id { channel with consumer := consumer }) slots := by
  have free : ∀ bundle role slot, slots bundle role = some slot →
      slot.at? slot.flow.source ≠ some id := by
    intro bundle role slot held named
    have ends := (linked.consumer bundle role id channel known).2 ⟨slot, held, named⟩
    rw [unbound] at ends
    cases ends
  constructor
  · intro bundle role other held present
    rw [Arena.get?_set] at present
    split at present
    · rename_i same
      obtain ⟨rfl, -⟩ := same
      cases present
      simp only [inside, false_iff, not_exists, not_and]
      exact free bundle role
    · exact linked.consumer bundle role other held present
  · intro bundle role other held present
    rw [Arena.get?_set] at present
    split at present
    · rename_i same
      obtain ⟨rfl, -⟩ := same
      cases present
      exact linked.producer bundle role _ channel known
    · exact linked.producer bundle role other held present
  · intro bundle role slot side other held named
    obtain ⟨carrier, present, payload⟩ := linked.carried _ _ _ _ _ held named
    rw [Arena.get?_set]
    split
    · rename_i same
      obtain ⟨rfl, -⟩ := same
      rw [known] at present
      cases present
      exact ⟨_, rfl, payload⟩
    · exact ⟨carrier, present, payload⟩

variable {bundle : BundleId} {roles : List RoleSlot} {role : Nat} {slot : RoleSlot}

theorem bind (linked : Linked channels (slots.overlay bundle roles)) {id : ChannelId}
    {channel : Channel} (known : channels.get? id = some channel)
    (unbound : channel.consumer = .unbound) (held : roles[role]? = some slot)
    (free : slot.at? slot.flow.source = none) (payload : channel.payload = slot.payload) :
    Linked (channels.set id { channel with consumer := .bundle bundle role })
      (slots.overlay bundle (roles.modify role (Construction.attach slot.flow.source id))) := by
  have here : slots.overlay bundle roles bundle role = some slot := by
    simp [SlotTable.overlay, held]
  have apart := slot.flow.source_ne_target
  constructor
  · intro bundle' role' other held' present
    have former := linked.consumer bundle' role'
    have bound := Arena.lt_size_of_get? known
    rw [Arena.get?_set] at present
    rw [SlotTable.overlay_modify]
    grind [Construction.at?_attach_self, Construction.flow_attach]
  · intro bundle' role' other held' present
    have former := linked.producer bundle' role'
    rw [Arena.get?_set] at present
    rw [SlotTable.overlay_modify]
    grind [Construction.at?_attach_other, Construction.flow_attach]
  · intro bundle' role' slot' side other held' named
    rw [SlotTable.overlay_modify] at held'
    have carrier : ∃ held, channels.get? other = some held ∧ held.payload = slot'.payload := by
      split at held'
      · rename_i same
        obtain ⟨rfl, rfl⟩ := same
        rw [here] at held'
        cases held'
        rw [Construction.payload_attach]
        by_cases driving : side = slot.flow.source
        · rw [driving, Construction.at?_attach_self] at named
          cases named
          exact ⟨channel, known, payload⟩
        · rw [Construction.at?_attach_other driving] at named
          exact linked.carried _ _ _ _ _ here named
      · exact linked.carried _ _ _ _ _ held' named
    obtain ⟨held, present, equal⟩ := carrier
    rw [Arena.get?_set]
    split
    · rename_i same
      obtain ⟨rfl, -⟩ := same
      rw [known] at present
      cases present
      exact ⟨_, rfl, equal⟩
    · exact ⟨held, present, equal⟩

theorem openRole (linked : Linked channels (slots.overlay bundle roles))
    (held : roles[role]? = some slot) (free : slot.at? slot.flow.target = none) :
    Linked (channels.push ⟨slot.payload, .bundle bundle role, .unbound⟩)
      (slots.overlay bundle
        (roles.modify role (Construction.attach slot.flow.target channels.size))) := by
  have here : slots.overlay bundle roles bundle role = some slot := by
    simp [SlotTable.overlay, held]
  have apart := slot.flow.source_ne_target
  have bound {id : ChannelId} {channel : Channel} (known : channels.get? id = some channel) :
      id ≠ channels.size := Nat.ne_of_lt (Arena.lt_size_of_get? known)
  constructor
  · intro bundle' role' other held' present
    have former := linked.consumer bundle' role'
    have carried := linked.carried bundle' role'
    rw [Arena.get?_push] at present
    rw [SlotTable.overlay_modify]
    grind [Construction.at?_attach_other, Construction.flow_attach]
  · intro bundle' role' other held' present
    have former := linked.producer bundle' role'
    have carried := linked.carried bundle' role'
    rw [Arena.get?_push] at present
    rw [SlotTable.overlay_modify]
    grind [Construction.at?_attach_self, Construction.flow_attach]
  · intro bundle' role' slot' side other held' named
    rw [SlotTable.overlay_modify] at held'
    split at held'
    · rename_i same
      obtain ⟨rfl, rfl⟩ := same
      rw [here] at held'
      cases held'
      rw [Construction.payload_attach]
      by_cases taking : side = slot.flow.target
      · rw [taking, Construction.at?_attach_self] at named
        cases named
        exact ⟨_, by rw [Arena.get?_push, if_pos rfl], rfl⟩
      · rw [Construction.at?_attach_other taking] at named
        obtain ⟨carrier, present, equal⟩ := linked.carried _ _ _ _ _ here named
        exact ⟨carrier, Arena.grows_push _ _ _ _ present, equal⟩
    · obtain ⟨carrier, present, equal⟩ := linked.carried _ _ _ _ _ held' named
      exact ⟨carrier, Arena.grows_push _ _ _ _ present, equal⟩

end Linked

end Elastic
