import Elastic.Proofs.Build.Wiring

namespace Elastic

theorem Arena.slot?_push (bundles : Arena Bundle) (bundle : Bundle) :
    (bundles.push bundle).slot? = bundles.slot?.overlay bundles.size bundle.roles := by
  funext id role
  unfold Arena.slot? SlotTable.overlay
  rw [Arena.get?_push]
  split <;> rfl

theorem Arena.slot?_set (bundles : Arena Bundle) {id : BundleId} {former : Bundle}
    (held : bundles.get? id = some former) (bundle : Bundle) :
    (bundles.set id bundle).slot? = bundles.slot?.overlay id bundle.roles := by
  have bound := Arena.lt_size_of_get? held
  funext other role
  unfold Arena.slot? SlotTable.overlay
  rw [Arena.get?_set]
  simp only [bound, and_true]
  split <;> rfl

theorem SlotTable.overlay_same (bundles : Arena Bundle) {id : BundleId} {bundle : Bundle}
    (held : bundles.get? id = some bundle) :
    bundles.slot?.overlay id bundle.roles = bundles.slot? := by
  funext other role
  unfold SlotTable.overlay Arena.slot?
  split
  · rename_i same
    subst same
    rw [held]
    rfl
  · rfl

theorem Expr.Within.mono {before after : Module} {expr : Expr} (within : expr.Within before)
    (ports : before.ports.length ≤ after.ports.length)
    (channels : before.channels.size ≤ after.channels.size)
    (builtins : before.builtins <+: after.builtins) : expr.Within after := by
  cases expr with
  | port index => exact Nat.lt_of_lt_of_le within ports
  | channelData channel => exact Nat.lt_of_lt_of_le within channels
  | channelValid channel => exact Nat.lt_of_lt_of_le within channels
  | channelReady channel => exact Nat.lt_of_lt_of_le within channels
  | builtinResult builtin index =>
      obtain ⟨held, known, bound⟩ := within
      obtain ⟨more, grown⟩ := builtins
      refine ⟨held, ?_, bound⟩
      rw [← grown, List.getElem?_append_left (List.getElem?_eq_some_iff.1 known).1, known]
  | const value => trivial
  | struct fields => trivial
  | field base index => trivial
  | and first second => trivial
  | or first second => trivial
  | not operand => trivial

def ChannelsFit (own : Prop) (types exprs : Nat) (channels : Arena Channel) : Prop :=
  ∀ id channel, channels.get? id = some channel →
    channel.payload < types ∧ (own → ∀ operand ∈ channel.operands, operand < exprs)

def ChannelsKept (before after : Arena Channel) : Prop :=
  ∀ id channel, before.get? id = some channel →
    ∃ later, after.get? id = some later ∧ later.payload = channel.payload

def BundlesKept (before after : Arena Bundle) : Prop :=
  ∀ id bundle, before.get? id = some bundle →
    ∃ later, after.get? id = some later ∧ later.ty = bundle.ty

theorem ChannelsKept.refl (channels : Arena Channel) : ChannelsKept channels channels :=
  fun _ channel held => ⟨channel, held, rfl⟩

theorem ChannelsKept.trans {first second third : Arena Channel} (one : ChannelsKept first second)
    (other : ChannelsKept second third) : ChannelsKept first third := by
  intro id channel held
  obtain ⟨later, known, payload⟩ := one id channel held
  obtain ⟨last, present, same⟩ := other id later known
  exact ⟨last, present, same.trans payload⟩

theorem ChannelsKept.size_le {before after : Arena Channel} (kept : ChannelsKept before after) :
    before.size ≤ after.size := by
  refine Nat.le_of_not_lt fun smaller => ?_
  obtain ⟨channel, held⟩ := Arena.exists_get?_of_lt_size smaller
  obtain ⟨later, known, -⟩ := kept _ channel held
  exact Nat.lt_irrefl _ (Arena.lt_size_of_get? known)

theorem channelsKept_push (channels : Arena Channel) (channel : Channel) :
    ChannelsKept channels (channels.push channel) :=
  fun id held known => ⟨held, Arena.grows_push _ _ id held known, rfl⟩

theorem channelsKept_set {channels : Arena Channel} {id : ChannelId} {channel later : Channel}
    (held : channels.get? id = some channel) (payload : later.payload = channel.payload) :
    ChannelsKept channels (channels.set id later) := by
  intro other former known
  rw [Arena.get?_set]
  split
  · rename_i same
    obtain ⟨rfl, -⟩ := same
    rw [held] at known
    cases known
    exact ⟨later, rfl, payload⟩
  · exact ⟨former, known, rfl⟩

theorem BundlesKept.refl (bundles : Arena Bundle) : BundlesKept bundles bundles :=
  fun _ bundle held => ⟨bundle, held, rfl⟩

theorem BundlesKept.trans {first second third : Arena Bundle} (one : BundlesKept first second)
    (other : BundlesKept second third) : BundlesKept first third := by
  intro id bundle held
  obtain ⟨later, known, ty⟩ := one id bundle held
  obtain ⟨last, present, same⟩ := other id later known
  exact ⟨last, present, same.trans ty⟩

theorem bundlesKept_push (bundles : Arena Bundle) (bundle : Bundle) :
    BundlesKept bundles (bundles.push bundle) :=
  fun id held known => ⟨held, Arena.grows_push _ _ id held known, rfl⟩

theorem bundlesKept_set {bundles : Arena Bundle} {id : BundleId} {bundle later : Bundle}
    (held : bundles.get? id = some bundle) (ty : later.ty = bundle.ty) :
    BundlesKept bundles (bundles.set id later) := by
  intro other former known
  rw [Arena.get?_set]
  split
  · rename_i same
    obtain ⟨rfl, -⟩ := same
    rw [held] at known
    cases known
    exact ⟨later, rfl, ty⟩
  · exact ⟨former, known, rfl⟩

theorem channelsFit_push {own : Prop} {types exprs : Nat} {channels : Arena Channel}
    (channel : Channel) (fit : ChannelsFit own types exprs channels)
    (payload : channel.payload < types)
    (operands : own → ∀ operand ∈ channel.operands, operand < exprs) :
    ChannelsFit own types exprs (channels.push channel) := by
  intro id held known
  rw [Arena.get?_push] at known
  split at known
  · cases known
    exact ⟨payload, operands⟩
  · exact fit id held known

theorem channelsFit_set {own : Prop} {types exprs : Nat} {channels : Arena Channel}
    {target : ChannelId} {channel : Channel} (fit : ChannelsFit own types exprs channels)
    (payload : channel.payload < types)
    (operands : own → ∀ operand ∈ channel.operands, operand < exprs) :
    ChannelsFit own types exprs (channels.set target channel) := by
  intro id held known
  rw [Arena.get?_set] at known
  split at known
  · cases known
    exact ⟨payload, operands⟩
  · exact fit id held known

theorem ServiceInstance.Declared.mono {services : List Service} {types : TyPool}
    {before after : Arena Bundle} {held : ServiceInstance}
    (declared : held.Declared services types before) (kept : BundlesKept before after) :
    held.Declared services types after := by
  obtain ⟨service, operation, bundle, known, inside, first, present, typed, side⟩ := declared
  obtain ⟨later, stays, ty⟩ := kept _ _ present
  exact ⟨service, operation, later, known, inside, first, stays, by rw [ty, typed], side⟩

namespace Module.Wired

variable {own : Prop} {services : List Service} {types : TyPool} {limit : ModuleId}
  {module : Module}

theorem channelsFit (wired : module.Wired own services types limit) :
    ChannelsFit own types.size module.exprs.size module.channels :=
  fun id channel held => ⟨wired.placed.channels id channel held,
    fun values => (wired.ordered values).channels id channel held⟩

theorem pushExpr (wired : module.Wired own services types limit) {expr : Expr}
    (within : expr.Within module)
    (operands : own → ∀ operand ∈ expr.operands, operand < module.exprs.size) :
    Module.Wired own services types limit
      { module with exprs := module.exprs.push expr } := by
  refine ⟨{ wired.placed with exprs := ?_ }, wired.linked,
    ⟨wired.served.ends, wired.served.filled⟩, ?_⟩
  · intro id held known
    rw [Arena.get?_push] at known
    split at known
    · cases known
      exact within.mono (Nat.le_refl _) (Nat.le_refl _) List.prefix_rfl
    · exact (wired.placed.exprs id held known).mono (Nat.le_refl _) (Nat.le_refl _)
        List.prefix_rfl
  · intro values
    have former := wired.ordered values
    have larger : module.exprs.size < (module.exprs.push expr).size := by
      rw [Arena.size_push]
      omega
    refine ⟨?_, ?_, ?_, ?_⟩
    · intro id held known operand member
      rw [Arena.get?_push] at known
      split at known
      · rename_i last
        cases known
        rw [last]
        exact operands values operand member
      · exact former.exprs id held known operand member
    · exact fun id channel held operand member =>
        Nat.lt_trans (former.channels id channel held operand member) larger
    · exact fun held member input inside =>
        Nat.lt_trans (former.builtins held member input inside) larger
    · exact fun child member input inside =>
        Nat.lt_trans (former.children child member input inside) larger

theorem rechannel (wired : module.Wired own services types limit) {channels : Arena Channel}
    (kept : ChannelsKept module.channels channels)
    (fit : ChannelsFit own types.size module.exprs.size channels)
    (linked : Linked channels module.bundles.slot?) :
    Module.Wired own services types limit { module with channels := channels } := by
  refine ⟨{ wired.placed with exprs := ?_, channels := ?_ }, linked,
    ⟨wired.served.ends, wired.served.filled⟩, ?_⟩
  · exact fun id held known =>
      (wired.placed.exprs id held known).mono (Nat.le_refl _) kept.size_le List.prefix_rfl
  · exact fun id channel held => (fit id channel held).1
  · exact fun values => { wired.ordered values with
      channels := fun id channel held => (fit id channel held).2 values }

theorem pushBuiltin (wired : module.Wired own services types limit) {builtin : Builtin}
    (declared : builtin.Declared services types)
    (inputs : own → ∀ input ∈ builtin.inputs, input < module.exprs.size) :
    Module.Wired own services types limit
      { module with builtins := module.builtins ++ [builtin] } := by
  refine ⟨{ wired.placed with exprs := ?_, builtins := ?_ }, wired.linked,
    ⟨wired.served.ends, wired.served.filled⟩, ?_⟩
  · exact fun id held known => (wired.placed.exprs id held known).mono (Nat.le_refl _)
      (Nat.le_refl _) (List.prefix_append _ _)
  · intro held member
    rcases List.mem_append.1 member with old | new
    · exact wired.placed.builtins held old
    · obtain rfl := List.mem_singleton.1 new
      exact declared
  · intro values
    refine { wired.ordered values with builtins := ?_ }
    intro held member
    rcases List.mem_append.1 member with old | new
    · exact (wired.ordered values).builtins held old
    · obtain rfl := List.mem_singleton.1 new
      exact inputs values

theorem pushChild (wired : module.Wired own services types limit) {child : Child}
    (earlier : child.module < limit)
    (inputs : own → ∀ input ∈ child.connections, input < module.exprs.size) :
    Module.Wired own services types limit
      { module with children := module.children ++ [child] } := by
  refine ⟨{ wired.placed with children := ?_ }, wired.linked,
    ⟨wired.served.ends, wired.served.filled⟩, ?_⟩
  · intro held member
    rcases List.mem_append.1 member with old | new
    · exact wired.placed.children held old
    · obtain rfl := List.mem_singleton.1 new
      exact earlier
  · intro values
    refine { wired.ordered values with children := ?_ }
    intro held member
    rcases List.mem_append.1 member with old | new
    · exact (wired.ordered values).children held old
    · obtain rfl := List.mem_singleton.1 new
      exact inputs values

theorem bundle_lt (wired : module.Wired own services types limit) {id : ServiceInstanceId}
    {held : ServiceInstance} (known : module.services.get? id = some held) :
    held.bundle < module.bundles.size := by
  obtain ⟨_, _, _, -, -, -, present, -⟩ := wired.placed.instances id held known
  exact Arena.lt_size_of_get? present

theorem pushBundle (wired : module.Wired own services types limit) {channels : Arena Channel}
    (bundle : Bundle) (kept : ChannelsKept module.channels channels)
    (fit : ChannelsFit own types.size module.exprs.size channels)
    (linked : Linked channels (module.bundles.slot?.overlay module.bundles.size bundle.roles))
    (typed : bundle.Typed types) (apart : ∀ side held, bundle.at side ≠ .service held)
    (filled : ∀ (role : Nat) (slot : RoleSlot) side, bundle.roles[role]? = some slot →
      (slot.at? side).isSome → bundle.at side = .local) :
    Module.Wired own services types limit
      { module with channels := channels, bundles := module.bundles.push bundle } := by
  refine ⟨{ wired.placed with
    exprs := ?_, channels := ?_, bundles := ?_, instances := ?_ }, ?_, ⟨?_, ?_⟩, ?_⟩
  · exact fun id held known =>
      (wired.placed.exprs id held known).mono (Nat.le_refl _) kept.size_le List.prefix_rfl
  · exact fun id channel held => (fit id channel held).1
  · intro id held known
    rw [Arena.get?_push] at known
    split at known
    · cases known
      exact typed
    · exact wired.placed.bundles id held known
  · exact fun id held known =>
      (wired.placed.instances id held known).mono (bundlesKept_push _ _)
  · rw [Arena.slot?_push]
    exact linked
  · intro id held side service known
    rw [Arena.get?_push] at known
    split at known
    · rename_i last
      cases known
      refine iff_of_false (apart side service) ?_
      intro facts
      obtain ⟨instance', present, named, -⟩ := facts
      exact Nat.ne_of_lt (wired.bundle_lt present) (named.trans last)
    · exact wired.served.ends id held side service known
  · intro id held role slot side known inside some
    rw [Arena.get?_push] at known
    split at known
    · cases known
      exact filled role slot side inside some
    · exact wired.served.filled id held role slot side known inside some
  · exact fun values => { wired.ordered values with
      channels := fun id channel held => (fit id channel held).2 values }

theorem setBundle (wired : module.Wired own services types limit) {channels : Arena Channel}
    {id : BundleId} {former : Bundle} (bundle : Bundle)
    (held : module.bundles.get? id = some former) (kept : ChannelsKept module.channels channels)
    (fit : ChannelsFit own types.size module.exprs.size channels)
    (linked : Linked channels (module.bundles.slot?.overlay id bundle.roles))
    (typed : bundle.Typed types) (ty : bundle.ty = former.ty)
    (ends : ∀ side service, bundle.at side = .service service ↔ former.at side = .service service)
    (filled : ∀ (role : Nat) (slot : RoleSlot) side, bundle.roles[role]? = some slot →
      (slot.at? side).isSome → bundle.at side = .local) :
    Module.Wired own services types limit
      { module with channels := channels, bundles := module.bundles.set id bundle } := by
  refine ⟨{ wired.placed with
    exprs := ?_, channels := ?_, bundles := ?_, instances := ?_ }, ?_, ⟨?_, ?_⟩, ?_⟩
  · exact fun id held known =>
      (wired.placed.exprs id held known).mono (Nat.le_refl _) kept.size_le List.prefix_rfl
  · exact fun id channel held => (fit id channel held).1
  · intro other present known
    rw [Arena.get?_set] at known
    split at known
    · cases known
      exact typed
    · exact wired.placed.bundles other present known
  · exact fun other present known =>
      (wired.placed.instances other present known).mono (bundlesKept_set held ty)
  · rw [Arena.slot?_set _ held]
    exact linked
  · intro other present side service known
    rw [Arena.get?_set] at known
    split at known
    · rename_i same
      obtain ⟨rfl, -⟩ := same
      cases known
      rw [ends side service]
      exact wired.served.ends other former side service held
    · exact wired.served.ends other present side service known
  · intro other present role slot side known inside some
    rw [Arena.get?_set] at known
    split at known
    · cases known
      exact filled role slot side inside some
    · exact wired.served.filled other present role slot side known inside some
  · exact fun values => { wired.ordered values with
      channels := fun id channel held => (fit id channel held).2 values }

theorem serve (wired : module.Wired own services types limit) {id : BundleId} {bundle : Bundle}
    (server : ServiceInstance) (held : module.bundles.get? id = some bundle)
    (unbound : bundle.server = .unbound)
    (declared : server.Declared services types module.bundles) (named : server.bundle = id)
    (side : server.side = .server) :
    Module.Wired own services types limit { module with
      services := module.services.push server
      bundles :=
        module.bundles.set id { bundle with server := .service module.services.size } } := by
  have typed := wired.placed.bundles id bundle held
  refine ⟨{ wired.placed with exprs := ?_, bundles := ?_, instances := ?_ }, ?_, ⟨?_, ?_⟩, ?_⟩
  · exact fun id held known => (wired.placed.exprs id held known).mono (Nat.le_refl _)
      (Nat.le_refl _) List.prefix_rfl
  · intro other present known
    rw [Arena.get?_set] at known
    split at known
    · cases known
      exact typed
    · exact wired.placed.bundles other present known
  · intro other present known
    have kept : BundlesKept module.bundles
        (module.bundles.set id { bundle with server := .service module.services.size }) :=
      bundlesKept_set held rfl
    rw [Arena.get?_push] at known
    split at known
    · cases known
      exact declared.mono kept
    · exact (wired.placed.instances other present known).mono kept
  · rw [Arena.slot?_set _ held, SlotTable.overlay_same _ held]
    exact wired.linked
  · intro other present side' service known
    have lt {service : ServiceInstanceId} {held : ServiceInstance}
        (known : module.services.get? service = some held) : service ≠ module.services.size :=
      Nat.ne_of_lt (Arena.lt_size_of_get? known)
    have former := wired.served.ends id bundle side' service held
    rw [Arena.get?_set] at known
    rw [Arena.get?_push]
    split at known
    · rename_i same
      obtain ⟨rfl, -⟩ := same
      cases known
      cases side' with
      | client =>
          simp only [Bundle.at] at former ⊢
          grind
      | server =>
          simp only [Bundle.at, unbound] at former ⊢
          grind
    · rename_i apart
      have bound := Arena.lt_size_of_get? held
      rw [wired.served.ends other present side' service known]
      grind
  · intro other present role slot side' known inside some
    rw [Arena.get?_set] at known
    split at known
    · cases known
      have former := wired.served.filled id bundle role slot side' held inside some
      cases side' with
      | client => exact former
      | server =>
          rw [Bundle.at, unbound] at former
          cases former
    · exact wired.served.filled other present role slot side' known inside some
  · exact fun values => { wired.ordered values with }

theorem request (wired : module.Wired own services types limit) {bundle : Bundle}
    (client : ServiceInstance) (ends : bundle.client = .service module.services.size)
    (unbound : bundle.server = .unbound) (typed : bundle.Typed types)
    (empty : ∀ slot ∈ bundle.roles, ∀ side, slot.at? side = none)
    (declared : client.Declared services types (module.bundles.push bundle))
    (named : client.bundle = module.bundles.size) (side : client.side = .client) :
    Module.Wired own services types limit { module with
      services := module.services.push client
      bundles := module.bundles.push bundle } := by
  refine ⟨{ wired.placed with exprs := ?_, bundles := ?_, instances := ?_ }, ?_, ⟨?_, ?_⟩, ?_⟩
  · exact fun id held known => (wired.placed.exprs id held known).mono (Nat.le_refl _)
      (Nat.le_refl _) List.prefix_rfl
  · intro other present known
    rw [Arena.get?_push] at known
    split at known
    · cases known
      exact typed
    · exact wired.placed.bundles other present known
  · intro other present known
    rw [Arena.get?_push] at known
    split at known
    · cases known
      exact declared
    · exact (wired.placed.instances other present known).mono (bundlesKept_push _ _)
  · rw [Arena.slot?_push]
    refine wired.linked.fresh ?_ empty
    intro role
    unfold Arena.slot?
    rw [(Arena.get?_eq_none_iff _ _).2 (Nat.le_refl _)]
    rfl
  · intro other present side' service known
    rw [Arena.get?_push] at known
    simp only [Arena.get?_push]
    have former := wired.served.ends
    have bundle_lt := @bundle_lt _ _ _ _ _ wired
    have lt {service : ServiceInstanceId} {held : ServiceInstance}
        (known : module.services.get? service = some held) : service ≠ module.services.size :=
      Nat.ne_of_lt (Arena.lt_size_of_get? known)
    cases side' <;> grind [Bundle.at]
  · intro other present role slot side' known inside some
    rw [Arena.get?_push] at known
    split at known
    · cases known
      rw [empty slot (List.mem_of_getElem? inside) side'] at some
      cases some
    · exact wired.served.filled other present role slot side' known inside some
  · exact fun values => { wired.ordered values with }

end Module.Wired

end Elastic
