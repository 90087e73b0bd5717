import Elastic.Proofs.Build.Action
import Elastic.Proofs.Build.Extension

namespace Elastic

/-! Builders and elaborations that are sound, and how a construction may move them on. -/

inductive Token
  | channel (handle : ChannelHandle)
  | bundle (handle : BundleHandle)
deriving DecidableEq

def Token.scope : Token → Nat
  | .channel handle => handle.scope
  | .bundle handle => handle.scope

def Holding.tokens : Holding → List Token
  | .value _ => []
  | .channel handle => [.channel handle]
  | .bundle handle => [.bundle handle]
  | .roles held => held.channels.map fun entry => .channel entry.2

def Holdings.tokens (holdings : Holdings) : List Token :=
  List.flatMap (fun entry => entry.2.tokens) holdings

def Module.Knows (module : Module) : Token → Prop
  | .channel handle =>
    ∃ channel, module.channels.get? handle.id = some channel ∧ channel.payload = handle.payload
  | .bundle handle =>
    ∃ bundle, module.bundles.get? handle.id = some bundle ∧ bundle.ty = handle.ty

namespace Elaboration

structure Grows (before after : Elaboration) : Prop where
  types : before.types.Grows after.types
  modules : before.modules.Grows after.modules
  scopes : before.nextScope ≤ after.nextScope
  custody : ∀ token : Token, token.scope < before.nextScope →
    after.holdings.tokens.count token ≤ before.holdings.tokens.count token

theorem Grows.refl (shared : Elaboration) : shared.Grows shared :=
  ⟨.refl _, fun _ _ held => held, Nat.le_refl _, fun _ _ => Nat.le_refl _⟩

theorem Grows.trans {first second third : Elaboration} (one : first.Grows second)
    (other : second.Grows third) : first.Grows third where
  types := one.types.trans other.types
  modules id item held := other.modules id item (one.modules id item held)
  scopes := Nat.le_trans one.scopes other.scopes
  custody token earlier := Nat.le_trans
    (other.custody token (Nat.lt_of_lt_of_le earlier one.scopes)) (one.custody token earlier)

/-- Finished modules are wired, and what is lent is held by scopes that were given out. -/
structure Sound (own : Prop) (services : List Service) (shared : Elaboration) : Prop where
  modules : ∀ id module, shared.modules.get? id = some module →
    module.Wired own services shared.types id
  finished : ∀ entry ∈ shared.finished, entry.2 < shared.modules.size
  scopes : ∀ token ∈ shared.holdings.tokens, token.scope < shared.nextScope

end Elaboration

namespace Builder

variable {own : Prop} {services : List Service}

structure Sound (own : Prop) (services : List Service) (builder : Builder) : Prop where
  module : builder.module.Wired own services builder.shared.types builder.shared.modules.size
  shared : builder.shared.Sound own services

structure Grows (before after : Builder) : Prop where
  scope : after.scope = before.scope
  shared : before.shared.Grows after.shared
  exprs : before.module.exprs.size ≤ after.module.exprs.size
  channels : ChannelsKept before.module.channels after.module.channels
  bundles : BundlesKept before.module.bundles after.module.bundles

theorem Grows.trans {first second third : Builder} (one : first.Grows second)
    (other : second.Grows third) : first.Grows third where
  scope := other.scope.trans one.scope
  shared := one.shared.trans other.shared
  exprs := Nat.le_trans one.exprs other.exprs
  channels := one.channels.trans other.channels
  bundles := one.bundles.trans other.bundles

theorem Grows.knows {before after : Builder} (grows : before.Grows after) {token : Token}
    (known : before.module.Knows token) : after.module.Knows token := by
  cases token with
  | channel handle =>
      obtain ⟨channel, held, payload⟩ := known
      obtain ⟨later, stays, same⟩ := grows.channels _ _ held
      exact ⟨later, stays, same.trans payload⟩
  | bundle handle =>
      obtain ⟨bundle, held, ty⟩ := known
      obtain ⟨later, stays, same⟩ := grows.bundles _ _ held
      exact ⟨later, stays, same.trans ty⟩

/-- Nothing changed but that tables may have grown. -/
structure Retabled (before after : Builder) : Prop where
  scope : after.scope = before.scope
  module : after.module = before.module
  types : before.shared.types.Grows after.shared.types
  modules : after.shared.modules = before.shared.modules
  finished : after.shared.finished = before.shared.finished
  nextScope : after.shared.nextScope = before.shared.nextScope
  holdings : after.shared.holdings = before.shared.holdings
  names : before.shared.names.Grows after.shared.names
  appIds : before.appIds ⊆ after.appIds

theorem Retabled.refl (builder : Builder) : builder.Retabled builder :=
  ⟨rfl, rfl, .refl _, rfl, rfl, rfl, rfl, .refl _, fun _ member => member⟩

theorem Retabled.trans {first second third : Builder} (one : first.Retabled second)
    (other : second.Retabled third) : first.Retabled third where
  scope := other.scope.trans one.scope
  module := other.module.trans one.module
  types := one.types.trans other.types
  modules := other.modules.trans one.modules
  finished := other.finished.trans one.finished
  nextScope := other.nextScope.trans one.nextScope
  holdings := other.holdings.trans one.holdings
  names := one.names.trans other.names
  appIds _ member := other.appIds (one.appIds member)

theorem Retabled.grows {before after : Builder} (retabled : before.Retabled after) :
    before.Grows after where
  scope := retabled.scope
  shared := by
    refine ⟨retabled.types, ?_, Nat.le_of_eq retabled.nextScope.symm, ?_⟩
    · rw [retabled.modules]
      exact fun _ _ held => held
    · rw [retabled.holdings]
      exact fun _ _ => Nat.le_refl _
  exprs := Nat.le_of_eq (by rw [retabled.module])
  channels := by
    rw [retabled.module]
    exact .refl _
  bundles := by
    rw [retabled.module]
    exact .refl _

theorem Sound.retabled {before after : Builder} (sound : before.Sound own services)
    (retabled : before.Retabled after) : after.Sound own services where
  module := by
    rw [retabled.module, retabled.modules]
    exact sound.module.grow retabled.types (Nat.le_refl _)
  shared := by
    refine ⟨?_, ?_, ?_⟩
    · rw [retabled.modules]
      exact fun id held known => (sound.shared.modules id held known).grow retabled.types
        (Nat.le_refl _)
    · rw [retabled.finished, retabled.modules]
      exact sound.shared.finished
    · rw [retabled.holdings, retabled.nextScope]
      exact sound.shared.scopes

/-- A construction may leave the builder in a later state that is sound. -/
structure Leads (own : Prop) (services : List Service) (before after : Builder) : Prop where
  sound : after.Sound own services
  grows : before.Grows after

theorem Leads.trans {first second third : Builder} (one : first.Leads own services second)
    (other : second.Leads own services third) : first.Leads own services third :=
  ⟨other.sound, one.grows.trans other.grows⟩

theorem Sound.leads {before after : Builder} (sound : before.Sound own services)
    (retabled : before.Retabled after) : before.Leads own services after :=
  ⟨sound.retabled retabled, retabled.grows⟩

/-- The module on a builder may be exchanged for one in which everything keeps its number. -/
theorem Sound.exchange {builder : Builder} (sound : builder.Sound own services) {module : Module}
    (wired : module.Wired own services builder.shared.types builder.shared.modules.size)
    (exprs : builder.module.exprs.size ≤ module.exprs.size)
    (channels : ChannelsKept builder.module.channels module.channels)
    (bundles : BundlesKept builder.module.bundles module.bundles) :
    builder.Leads own services { builder with module := module } :=
  ⟨⟨wired, sound.shared⟩, ⟨rfl, .refl _, exprs, channels, bundles⟩⟩

structure Issued (before after : Builder) (tokens : List Token) : Prop where
  distinct : tokens.Nodup
  scope : ∀ token ∈ tokens, token.scope = before.scope
  new : ∀ token ∈ tokens, ¬ before.module.Knows token
  known : ∀ token ∈ tokens, after.module.Knows token

theorem Issued.later {before after last : Builder} {tokens : List Token}
    (issued : before.Issued after tokens) (grows : after.Grows last) :
    before.Issued last tokens :=
  ⟨issued.distinct, issued.scope, issued.new, fun token member =>
    grows.knows (issued.known token member)⟩

theorem Issued.append {before middle after : Builder} {first second : List Token}
    (one : before.Issued middle first) (other : middle.Issued after second)
    (earlier : before.Grows middle) (later : middle.Grows after) :
    before.Issued after (first ++ second) := by
  refine ⟨List.nodup_append.2 ⟨one.distinct, other.distinct, ?_⟩, ?_, ?_, ?_⟩
  · intro token member _ inside equal
    subst equal
    exact other.new token inside (one.known token member)
  · intro token member
    rcases List.mem_append.1 member with old | new
    · exact one.scope token old
    · exact (other.scope token new).trans earlier.scope
  · intro token member known
    rcases List.mem_append.1 member with old | new
    · exact one.new token old known
    · exact other.new token new (earlier.knows known)
  · intro token member
    rcases List.mem_append.1 member with old | new
    · exact later.knows (one.known token old)
    · exact other.known token new

theorem Issued.earlier {first before after : Builder} {tokens : List Token}
    (issued : before.Issued after tokens) (grows : first.Grows before) :
    first.Issued after tokens := by
  refine ⟨issued.distinct, ?_, ?_, issued.known⟩
  · rw [← grows.scope]
    exact issued.scope
  · exact fun token member known => issued.new token member (grows.knows known)

def withChannels (builder : Builder) (channels : Arena Channel) : Builder :=
  { builder with module := { builder.module with channels := channels } }

theorem grows_withChannels {builder : Builder} {channels : Arena Channel}
    (kept : ChannelsKept builder.module.channels channels) :
    builder.Grows (builder.withChannels channels) :=
  ⟨rfl, .refl _, Nat.le_refl _, kept, .refl _⟩

def withBundles (builder : Builder) (bundles : Arena Bundle) : Builder :=
  { builder with module := { builder.module with bundles := bundles } }

theorem issued_channel (builder : Builder) (channel : Channel) :
    builder.Issued (builder.withChannels (builder.module.channels.push channel))
      [.channel ⟨builder.module.channels.size, channel.payload, builder.scope⟩] := by
  refine ⟨by simp, ?_, ?_, ?_⟩
  · intro token member
    obtain rfl := List.mem_singleton.1 member
    rfl
  · intro token member known
    obtain rfl := List.mem_singleton.1 member
    obtain ⟨held, present, -⟩ := known
    exact Nat.lt_irrefl _ (Arena.lt_size_of_get? present)
  · intro token member
    obtain rfl := List.mem_singleton.1 member
    exact ⟨channel, (Arena.get?_push _ _ _).trans (if_pos rfl), rfl⟩

theorem issued_bundle (builder : Builder) (bundle : Bundle) :
    builder.Issued (builder.withBundles (builder.module.bundles.push bundle))
      [.bundle ⟨builder.module.bundles.size, bundle.ty, builder.scope⟩] := by
  refine ⟨by simp, ?_, ?_, ?_⟩
  · intro token member
    obtain rfl := List.mem_singleton.1 member
    rfl
  · intro token member known
    obtain rfl := List.mem_singleton.1 member
    obtain ⟨held, present, -⟩ := known
    exact Nat.lt_irrefl _ (Arena.lt_size_of_get? present)
  · intro token member
    obtain rfl := List.mem_singleton.1 member
    exact ⟨bundle, (Arena.get?_push _ _ _).trans (if_pos rfl), rfl⟩

end Builder

/-- An operation on a builder leads to sound builders only, and gives results of which `fact` holds.
-/
def EndsSound (own : Prop) (services : List Service) (operation : Construction α)
    (builder : Builder) (fact : α → Builder → Prop) : Prop :=
  Ends operation builder (fun value after => builder.Leads own services after ∧ fact value after)
    (fun _ after => builder.Leads own services after)

/-- An operation that leaves a builder as it is, but for tables that grow. -/
def Retables (operation : Construction α) (builder : Builder) (fact : α → Builder → Prop) : Prop :=
  Ends operation builder (fun value after => builder.Retabled after ∧ fact value after)
    (fun _ after => builder.Retabled after)

section

variable {own : Prop} {services : List Service} {α β : Type} {builder : Builder}
  {operation : Construction α} {next : α → Construction β}

theorem Retables.bind {middle : α → Builder → Prop} {fact : β → Builder → Prop}
    (first : Retables operation builder middle)
    (rest : ∀ value after, builder.Retabled after → middle value after →
      Retables (next value) after fact) :
    Retables (operation >>= next) builder fact := by
  refine Ends.bind first ?_ fun _ _ retabled => retabled
  intro value after facts
  obtain ⟨retabled, held⟩ := facts
  exact (rest value after retabled held).mono
    (fun _ _ ends => ⟨retabled.trans ends.1, ends.2⟩) fun _ _ ends => retabled.trans ends

theorem Retables.stop {fact : β → Builder → Prop}
    (never : Retables operation builder fun _ _ => False) : Retables
    (operation >>= next) builder fact :=
  never.bind fun _ _ _ never => never.elim

theorem Retables.after {good : Builder → Prop} {middle : α → Builder → Prop}
    (first : Retables operation builder middle)
    (stays : ∀ {after}, builder.Retabled after → good after)
      (rest : ∀ value after, builder.Retabled after → good after → middle value after →
        Ends (next value) after (fun _ later => good later) fun _ later => good later) :
    Ends (operation >>= next) builder (fun _ later => good later) fun _ later => good later :=
  Ends.bind first (fun value after ends => rest value after ends.1 (stays ends.1) ends.2)
    fun _ _ retabled => stays retabled

theorem Retables.endsSound {middle : α → Builder → Prop} {fact : β → Builder → Prop}
    (first : Retables operation builder middle) (sound : builder.Sound own services)
    (rest : ∀ value after, builder.Retabled after → after.Sound own services → middle value after →
      EndsSound own services (next value) after fact) :
    EndsSound own services (operation >>= next) builder fact := by
  refine Ends.bind first ?_ fun _ _ retabled => sound.leads retabled
  intro value after facts
  obtain ⟨retabled, held⟩ := facts
  exact (rest value after retabled (sound.retabled retabled) held).mono
    (fun _ _ ends => ⟨(sound.leads retabled).trans ends.1, ends.2⟩)
    fun _ _ ends => (sound.leads retabled).trans ends

theorem Retables.safe {fact : α → Builder → Prop} (retables : Retables operation builder fact)
    (sound : builder.Sound own services) : EndsSound own services operation builder fact :=
  Ends.mono retables (fun _ _ ends => ⟨sound.leads ends.1, ends.2⟩) fun _ _ retabled =>
    sound.leads retabled

theorem EndsSound.bind {middle : α → Builder → Prop} {fact : β → Builder → Prop}
    (first : EndsSound own services operation builder middle)
    (rest : ∀ value after, builder.Leads own services after → middle value after →
      EndsSound own services (next value) after fact) :
    EndsSound own services (operation >>= next) builder fact := by
  refine Ends.bind first ?_ fun _ _ leads => leads
  intro value after facts
  obtain ⟨leads, held⟩ := facts
  exact (rest value after leads held).mono (fun _ _ ends => ⟨leads.trans ends.1, ends.2⟩)
    fun _ _ ends => leads.trans ends

theorem EndsSound.mono {fact later : α → Builder → Prop}
    (endsSound : EndsSound own services operation builder fact)
    (weaker : ∀ value after, builder.Leads own services after → fact value after →
      later value after) :
    EndsSound own services operation builder later :=
  Ends.mono endsSound (fun value after ends => ⟨ends.1, weaker value after ends.1 ends.2⟩)
    fun _ _ leads => leads

theorem Retables.mono {fact later : α → Builder → Prop} (retables : Retables operation builder fact)
    (weaker : ∀ value after, builder.Retabled after → fact value after → later value after) :
    Retables operation builder later :=
  Ends.mono retables (fun value after ends => ⟨ends.1, weaker value after ends.1 ends.2⟩)
    fun _ _ retabled => retabled

theorem retables_pure {fact : α → Builder → Prop} {value : α} (held : fact value builder) :
    Retables (pure value) builder fact :=
  Ends.pure_iff.2 ⟨.refl _, held⟩

theorem retables_throw {fact : α → Builder → Prop} {error : BuildError} :
    Retables (throw error : Construction α) builder fact :=
  Ends.throw_iff.2 (.refl _)

theorem endsSound_pure {fact : α → Builder → Prop} {value : α} (sound : builder.Sound own services)
    (held : fact value builder) : EndsSound own services (pure value) builder fact :=
  Ends.pure_iff.2 ⟨sound.leads (.refl _), held⟩

theorem endsSound_throw {fact : α → Builder → Prop} {error : BuildError}
    (sound : builder.Sound own services) :
    EndsSound own services (throw error : Construction α) builder fact :=
  Ends.throw_iff.2 (sound.leads (.refl _))

end

end Elastic
