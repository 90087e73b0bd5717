import Elastic.Proofs.Build.Generated
import Elastic.Proofs.Build.Slots

namespace Elastic

/-! Handles that can be used. A call ends the handles that it is given and no others, and as long as
these can be used it never fails because of a handle. -/

namespace Builder

variable {builder after : Builder}

/-- The channel of a handle has no consumer yet, or its bundle is not served yet. -/
def Live (builder : Builder) : Token → Prop
  | .channel handle => ∃ channel, builder.module.channels.get? handle.id = some channel ∧
      channel.payload = handle.payload ∧ channel.consumer = .unbound
  | .bundle handle => ∃ bundle ty, builder.module.bundles.get? handle.id = some bundle ∧
      bundle.ty = handle.ty ∧ bundle.server = .unbound ∧
      builder.shared.types.get? handle.ty = some (.bundle ty)

theorem Live.knows {token : Token} (live : builder.Live token) : builder.module.Knows token := by
  cases token with
  | channel handle =>
      obtain ⟨channel, held, payload, -⟩ := live
      exact ⟨channel, held, payload⟩
  | bundle handle =>
      obtain ⟨bundle, -, held, ty, -⟩ := live
      exact ⟨bundle, held, ty⟩

theorem Live.retabled {token : Token} (live : builder.Live token)
    (retabled : builder.Retabled after) : after.Live token := by
  cases token with
  | channel handle =>
      unfold Live
      rw [retabled.module]
      exact live
  | bundle handle =>
      obtain ⟨bundle, ty, held, named, unbound, typed⟩ := live
      refine ⟨bundle, ty, ?_, named, unbound, retabled.types.get? typed⟩
      rw [retabled.module]
      exact held

theorem Live.isOpen {handle : ChannelHandle} (live : builder.Live (.channel handle)) :
    builder.module.isOpen handle.id = true := by
  obtain ⟨channel, held, -, unbound⟩ := live
  simp [Module.isOpen, held, unbound]

theorem Live.eq_of_id {first second : ChannelHandle} (one : builder.Live (.channel first))
    (other : builder.Live (.channel second)) (scope : first.scope = second.scope)
    (same : first.id = second.id) : first = second := by
  obtain ⟨channel, held, payload, -⟩ := one
  obtain ⟨channel', held', payload', -⟩ := other
  rw [same, held'] at held
  cases held
  obtain ⟨id, ty, scope⟩ := first
  obtain ⟨id', ty', scope'⟩ := second
  simp only at payload payload' scope same
  rw [same, ← payload, ← payload', scope]

theorem Live.eq_of_bundle {first second : BundleHandle} (one : builder.Live (.bundle first))
    (other : builder.Live (.bundle second)) (scope : first.scope = second.scope)
    (same : first.id = second.id) : first = second := by
  obtain ⟨bundle, -, held, ty, -⟩ := one
  obtain ⟨bundle', -, held', ty', -⟩ := other
  rw [same, held'] at held
  cases held
  obtain ⟨id, ty, scope⟩ := first
  obtain ⟨id', ty', scope'⟩ := second
  simp only at ty ty' scope same
  rw [same, ← ty, ← ty', scope]

/-- Channels have no consumer and bundles are not served, but for some. -/
structure OpenBut (channels : ChannelId → Prop) (bundles : BundleId → Prop) (builder : Builder) :
    Prop where
  channels : ∀ id channel, builder.module.channels.get? id = some channel →
    channels id ∨ channel.consumer = .unbound
  bundles : ∀ id bundle, builder.module.bundles.get? id = some bundle →
    bundles id ∨ bundle.server = .unbound

end Builder

variable {setting : Setting} {elaborate : String → Elaborating ModuleId}

theorem builderInvariant_openBut (elaborate : String → Elaborating ModuleId)
    (channels : ChannelId → Prop) (bundles : BundleId → Prop) :
    BuilderInvariant elaborate channels bundles (Builder.OpenBut channels bundles)
      fun _ => True where
  internTy _ _ isOpen := Ends.modifyGet_iff.2 ⟨isOpen.channels, isOpen.bundles⟩
  internName _ _ isOpen := Ends.modifyGet_iff.2 ⟨isOpen.channels, isOpen.bundles⟩
  appIds _ _ isOpen := ⟨isOpen.channels, isOpen.bundles⟩
  addExpr _ _ _ isOpen := Ends.modifyGet_iff.2 ⟨isOpen.channels, isOpen.bundles⟩
  addChannel payload producer builder isOpen := by
    refine Ends.modifyGet_iff.2 ⟨fun id channel held => ?_, isOpen.bundles⟩
    rw [Arena.get?_push] at held
    split at held
    · cases held
      exact .inr rfl
    · exact isOpen.channels id channel held
  addBundle ty roles client builder isOpen := by
    refine Ends.modifyGet_iff.2 ⟨isOpen.channels, fun id bundle held => ?_⟩
    rw [Arena.get?_push] at held
    split at held
    · cases held
      exact .inr rfl
    · exact isOpen.bundles id bundle held
  addService _ _ isOpen := Ends.modifyGet_iff.2 ⟨isOpen.channels, isOpen.bundles⟩
  declare _ _ _ isOpen := ⟨isOpen.channels, isOpen.bundles⟩
  bind channel consumer ends builder isOpen := by
    refine Ends.get_bind (Ends.ite (fun _ => Ends.modify_iff.2 ?_) fun _ =>
      Ends.throw_iff.2 ⟨isOpen, trivial⟩)
    unfold Module.consume
    dsimp only
    split
    · refine ⟨fun id held known => ?_, isOpen.bundles⟩
      rw [Arena.get?_set] at known
      split at known
      · rename_i same
        exact .inl (same.1 ▸ ends)
      · exact isOpen.channels id held known
    · exact isOpen
  setBundle id bundle ends builder isOpen := by
    refine Ends.modify_iff.2 ⟨isOpen.channels, fun other held known => ?_⟩
    rw [Arena.get?_set] at known
    split at known
    · rename_i same
      exact .inl (same.1 ▸ ends)
    · exact isOpen.bundles other held known
  elaborates name builder isOpen := by
    refine (Construction.ends_onShared (.any _ _)).mono ?_ ?_
    · rintro id _ ⟨shared, rfl, -⟩
      exact ⟨isOpen.channels, isOpen.bundles⟩
    · rintro error _ ⟨shared, rfl, -⟩
      exact ⟨⟨isOpen.channels, isOpen.bundles⟩, trivial⟩
  fresh _ _ := trivial

/-- Finished modules are sound, and each type stands once in the table. -/
structure Elaboration.Consistent (services : List Service) (shared : Elaboration) : Prop where
  sound : shared.Sound False services
  distinct : shared.types.Distinct

theorem Elaboration.consistent_empty (services : List Service) :
    ({} : Elaboration).Consistent services :=
  ⟨sound_empty, TyPool.distinct_empty⟩

theorem Elaboration.Consistent.internTy {services : List Service} {shared : Elaboration}
    (consistent : shared.Consistent services) (names : Names) (ty : Ty) :
    Elaboration.Consistent services { shared with names := names, types :=
      (shared.types.intern ty).2 } :=
  ⟨(consistent.sound.retable (shared.types.grows_intern ty) names).1, consistent.distinct.intern ty⟩

theorem Elaboration.Consistent.internName {services : List Service} {shared : Elaboration}
    (consistent : shared.Consistent services) (names : Names) :
    Elaboration.Consistent services { shared with names := names } :=
  ⟨(consistent.sound.retable (.refl _) names).1, consistent.distinct⟩

/-- Elaborations that leave the tables consistent, and never fail because of a handle. -/
def Construction.KeepsConsistent (setting : Setting)
    (elaborate : String → Elaborating ModuleId) : Prop :=
  ∀ name (shared : Elaboration), shared.Consistent setting.library.services →
    Ends (elaborate name) shared (fun _ after => after.Consistent setting.library.services)
      fun error after => after.Consistent setting.library.services ∧ ¬ error.Stale

theorem builderInvariant_consistent
    (keepsConsistent : Construction.KeepsConsistent setting elaborate) (consumes : Bool) :
      BuilderInvariant elaborate (fun _ => consumes = true) (fun _ => consumes = true)
        (fun builder => builder.shared.Consistent setting.library.services)
      fun error => consumes = false → ¬ error.Stale where
  internTy ty builder consistent := Ends.modifyGet_iff.2
    (consistent.internTy builder.shared.names ty)
  internName _ _ consistent := Ends.modifyGet_iff.2 (consistent.internName _)
  appIds _ _ consistent := consistent
  addExpr _ _ _ consistent := Ends.modifyGet_iff.2 consistent
  addChannel _ _ _ consistent := Ends.modifyGet_iff.2 consistent
  addBundle _ _ _ _ consistent := Ends.modifyGet_iff.2 consistent
  addService _ _ consistent := Ends.modifyGet_iff.2 consistent
  declare _ _ _ consistent := consistent
  bind _ _ used builder consistent := by
    refine Ends.get_bind (Ends.ite (fun _ => Ends.modify_iff.2 consistent) fun _ =>
      Ends.throw_iff.2 ⟨consistent, fun unused => ?_⟩)
    rw [used] at unused
    cases unused
  setBundle _ _ _ _ consistent := Ends.modify_iff.2 consistent
  elaborates name builder consistent := by
    refine (Construction.ends_onShared (keepsConsistent name builder.shared consistent)).mono ?_ ?_
    · rintro id _ ⟨shared, rfl, consistent⟩
      exact consistent
    · rintro error _ ⟨shared, rfl, consistent, fresh⟩
      exact ⟨consistent, fun _ => fresh⟩
  fresh _ fresh _ := fresh

namespace Call

variable {builder : Builder}

theorem consumes_of_given {call : Call} {token : Token}
    (given : token ∈ Holding.allTokens call.given) : call.consumes = true := by
  obtain ⟨held, inside, member⟩ := List.mem_flatMap.1 given
  cases call with
  | unwrap | pack | unpack | call => rfl
  | struct | builtin | instantiate =>
      obtain ⟨_, -, rfl⟩ := List.mem_map.1 inside
      cases member
  | _ => simp_all [Call.given, Holding.tokens]

theorem retables_foreign {call : Call} {token : Token}
    (given : token ∈ Holding.allTokens call.given) (foreign : token.scope ≠ builder.scope) :
    Retables (call.run setting elaborate) builder fun _ _ => False := by
  open Construction in
  have supplied {ty : BundleTy} {flow : Flow} {channels : List (String × ChannelHandle)}
      {builder : Builder} (foreign : token.scope ≠ builder.scope)
      (given : token ∈ channels.map fun entry => Token.channel entry.2) :
      Retables (matchRoles ty flow channels) builder fun _ _ => False := by
    refine (retables_matchRoles ty flow channels builder).mono fun positions _ _ matched => ?_
    obtain ⟨length, -, suits⟩ := matched
    obtain ⟨entry, member, rfl⟩ := List.mem_map.1 given
    have paired : entry.2 ∈ ((channels.map (·.2)).zip positions).map (·.1) := by
      rw [List.map_fst_zip (Nat.le_of_eq (by rw [List.length_map, length]))]
      exact List.mem_map_of_mem member
    obtain ⟨pair, inside, same⟩ := List.mem_map.1 paired
    exact foreign (same ▸ (suits pair inside).scope)
  cases call with
  | unwrap channel ready =>
      obtain rfl : token = .channel channel := by
        simpa [Call.given, Holding.tokens] using given
      exact Retables.stop ((retables_checkScope _ _ builder).bind fun _ _ _ own =>
        absurd own foreign)
  | pack ty channels =>
      rw [Call.given, Holding.allTokens_channels] at given
      exact Retables.stop (Retables.stop (supplied foreign given))
  | unpack handle channels =>
      rw [Call.given, Holding.allTokens_cons, Holding.allTokens_channels] at given
      refine Retables.stop ((retables_checkScope _ _ builder).bind fun _ first retabled own => ?_)
      refine (retables_unservedBundle handle first).bind fun _ second still _ => Ends.get_bind ?_
      split
      · rcases List.mem_append.1 given with bundle | channel
        · obtain rfl := List.mem_singleton.1 bundle
          exact absurd own foreign
        · refine Retables.stop (supplied ?_ channel)
          rw [still.scope, retabled.scope]
          exact foreign
      · exact retables_throw
  | call service operation handle appId =>
      obtain rfl : token = .bundle handle := by
        simpa [Call.given, Holding.tokens] using given
      exact Retables.stop ((retables_checkScope _ _ builder).bind fun _ _ _ own =>
        absurd own foreign)
  | _ => cases consumes_of_given given

/-- The handles of the builder's own that a call is given can be used, and none is given twice. -/
structure Spends (given : List Holding) (builder : Builder) : Prop where
  live : ∀ token ∈ Holding.allTokens given, token.scope = builder.scope → builder.Live token
  once : ∀ token : Token, token.scope = builder.scope → (Holding.allTokens given).count token ≤ 1

theorem Spends.owns {given : List Holding} (spends : Spends given builder) : Owns given builder :=
  ⟨fun token member scope => (spends.live token member scope).knows, spends.once⟩

theorem Spends.usable {channels : List (String × ChannelHandle)} {services : List Service}
    (spends : Spends (channels.map fun entry => .channel entry.2) builder)
    (sound : builder.Sound False services) : Construction.Usable builder channels := by
  have live : ∀ entry ∈ channels, entry.2.scope = builder.scope →
      builder.Live (.channel entry.2) := by
    intro entry member
    refine spends.live (.channel entry.2) ?_
    rw [Holding.allTokens_channels]
    exact List.mem_map_of_mem member
  refine ⟨fun entry member => ⟨fun own => (live entry member own).isOpen, fun own => ?_⟩,
    fun own => ?_⟩
  · obtain ⟨channel, held, payload, -⟩ := live entry member own
    rw [← payload]
    exact sound.module.placed.channels _ _ held
  · have owns := spends.owns.channels
    have ids : channels.map (·.2.id) = (channels.map (·.2)).map (·.id) := by
      rw [List.map_map]
      rfl
    rw [ids]
    refine Construction.nodup_ids (fun channel member => ?_) (fun channel member => ?_) owns.2
    · obtain ⟨entry, inside, rfl⟩ := List.mem_map.1 member
      exact own entry inside
    · obtain ⟨entry, inside, rfl⟩ := List.mem_map.1 member
      exact (live entry inside (own entry inside)).knows

theorem Spends.rest {first : Holding} {rest : List Holding}
    (spends : Spends (first :: rest) builder) : Spends rest builder := by
  refine ⟨fun token member => spends.live token ?_, spends.owns.rest.once⟩
  rw [Holding.allTokens_cons]
  exact List.mem_append_right _ member

theorem Spends.bundle {handle : BundleHandle} {rest : List Holding}
    (spends : Spends (.bundle handle :: rest) builder) (own : handle.scope = builder.scope) :
    builder.Live (.bundle handle) :=
  spends.live (.bundle handle) (by simp [Holding.tokens]) own

theorem Spends.awaits {handle : BundleHandle} {rest : List Holding} {services : List Service}
    (spends : Spends (.bundle handle :: rest) builder) (sound : builder.Sound False services) :
    ∃ ty, handle.scope = builder.scope → Construction.Awaits builder ty handle := by
  by_cases own : handle.scope = builder.scope
  · obtain ⟨bundle, -, held, named, unbound, -⟩ := spends.bundle own
    obtain ⟨ty, typed, slotsOf⟩ := sound.module.placed.bundles _ _ held
    rw [named] at typed
    exact ⟨ty, fun _ => ⟨bundle, held, unbound, typed, slotsOf⟩⟩
  · exact ⟨[], fun same => absurd same own⟩

theorem Spends.channel {handle : ChannelHandle} {rest : List Holding}
    (spends : Spends (.channel handle :: rest) builder) (own : handle.scope = builder.scope) :
    builder.Live (.channel handle) :=
  spends.live (.channel handle) (by simp [Holding.tokens]) own

section

variable {α β : Type} {good : Builder → Prop} {fault : BuildError → Prop}
  {operation : Construction α} {next : α → Construction β} {fact : α → Builder → Prop}

abbrev Faults (fault : BuildError → Prop) (operation : Construction α) (builder : Builder) : Prop :=
  Ends operation builder (fun _ _ => True) fun error _ => fault error

abbrev Refuses (good : Builder → Prop) (fault : BuildError → Prop) (operation : Construction α)
    (builder : Builder) : Prop :=
  Ends operation builder (fun _ _ => True) fun error after => good after ∧ fault error

theorem ends_results {bad : BuildError → Builder → Prop}
    (ends : Ends operation builder (fun _ _ => True) bad) {results : α → List Holding} :
    Ends (operation >>= fun value => pure (results value)) builder (fun _ _ => True) bad :=
  Ends.bind ends (fun _ _ _ => Ends.pure_iff.2 trivial) fun _ _ badly => badly

theorem refuses_bind (retables : Retables operation builder fact)
    (preserves : Preserves good fault operation) (holds : good builder)
    (rest : ∀ value after, builder.Retabled after → fact value after → good after →
      Refuses good fault (next value) after) : Refuses good fault (operation >>= next) builder :=
  Ends.bind (Ends.and retables (preserves builder holds))
    (fun value after ends => rest value after ends.1.1 ends.1.2 ends.2)
    fun _ _ ends => ends.2

end

variable {good : Builder → Prop} {fault : BuildError → Prop}

theorem refuses_reserve {β : Type} {next : Construction β}
    (checkInvariant : CheckInvariant good fault) (holds : good builder) (appId : AppId)
    (neverFails : NeverFails next) :
    Refuses good fault (Construction.reserve appId >>= fun _ => next) builder := by
  refine Ends.bind_iff.2 (Ends.get_bind (Ends.ite (fun _ => ?_) fun _ => ?_))
  · exact Ends.throw_bind ⟨holds, checkInvariant.fresh _ id⟩
  refine Ends.ite (fun _ => Ends.throw_bind ⟨holds, checkInvariant.fresh _ id⟩) fun _ =>
    Ends.set_iff.2 ?_
  exact (neverFails _ trivial).mono (fun _ _ _ => trivial) fun _ _ never => never.2.elim

theorem refuses_unwrap (checkInvariant : CheckInvariant good fault) (holds : good builder)
    (channel : ChannelHandle) (ready : Value)
    (live : channel.scope = builder.scope → builder.Live (.channel channel)) :
    Refuses good fault (Construction.unwrap channel ready) builder := by
  open Construction in
  unfold Construction.unwrap
  refine refuses_bind (retables_checkScope _ _ builder) (checkInvariant.checkScope _ _) holds
    fun _ first retabled own holds => ?_
  refine refuses_bind (retables_internTy _ first) (checkInvariant.internTy _) holds
    fun bit second still _ holds => ?_
  refine refuses_bind (retables_expectTy _ _ _ second) (checkInvariant.expectTy _ _ _) holds
    fun _ third calm _ _ => ?_
  have before : builder.Retabled third := (retabled.trans still).trans calm
  obtain ⟨held, known, -, unbound⟩ := (live own).retabled before
  refine Ends.bind (ends_bind _ known unbound) (fun _ _ _ => ?_) fun _ _ never => never.elim
  exact Ends.bind_iff.2 (Ends.modifyGet_iff.2 (Ends.bind_iff.2 (Ends.modifyGet_iff.2
    (Ends.pure_iff.2 trivial))))

variable (setting) in
theorem refuses_call (checkInvariant : CheckInvariant good fault) (holds : good builder)
    (service : Service) (operation : String) (handle : BundleHandle) (appId : AppId)
    (live : handle.scope = builder.scope → builder.Live (.bundle handle)) :
    Refuses good fault (Construction.call setting service operation handle appId) builder := by
  open Construction in
  unfold Construction.call
  refine refuses_bind (retables_checkScope _ _ builder) (checkInvariant.checkScope _ _) holds
    fun _ first retabled own holds => ?_
  refine refuses_bind (retables_serviceIndex setting service first)
    (checkInvariant.serviceIndex _ _) holds fun serviceAt second still _ holds => ?_
  refine refuses_bind (retables_operationIndex service operation second)
    (checkInvariant.operationIndex _ _) holds fun operationAt third calm _ holds => ?_
  refine refuses_bind (retables_checkHost setting service third)
    (checkInvariant.checkHost _ _) holds fun _ fourth mute _ holds => ?_
  have before : builder.Retabled fourth := ((retabled.trans still).trans calm).trans mute
  obtain ⟨bundle, ty, held, -, unbound, -⟩ := (live own).retabled before
  refine Ends.bind (ends_unservedBundle held unbound) ?_ fun _ _ never => never.elim
  intro _ _ ends
  obtain ⟨rfl, rfl⟩ := ends
  refine refuses_bind (retables_internTy _ _) (checkInvariant.internTy _) holds
    fun expected fifth silent _ holds => ?_
  refine Ends.ite (fun _ => ?_) fun _ => ?_
  · exact moduleName_bind (tyText_bind (tyText_bind
      (Ends.throw_bind ⟨holds, checkInvariant.fresh _ id⟩)))
  exact refuses_reserve checkInvariant holds appId fun _ _ =>
    addService_bind (Ends.modify_iff.2 trivial)

/-- No call fails because of a handle, as long as those that it is given can be used. -/
theorem faults_run (keepsConsistent : Construction.KeepsConsistent setting elaborate)
    (sound : builder.Sound False setting.library.services)
    (distinct : builder.shared.types.Distinct) (call : Call) (spends : Spends call.given builder) :
    Faults (fun error => ¬ error.Stale) (call.run setting elaborate) builder := by
  have consistent : builder.shared.Consistent setting.library.services := ⟨sound.shared, distinct⟩
  have fresh (error : BuildError) (badly : false = false → ¬ error.Stale) : ¬ error.Stale :=
    badly rfl
  cases consumes : call.consumes with
  | false =>
      refine ((builderInvariant_consistent keepsConsistent false).run setting call (fun used => ?_)
        (fun token given => ?_) builder consistent).mono (fun _ _ _ => trivial)
          fun error _ ends => ends.2 rfl
      · rw [consumes] at used
        cases used
      · have used := consumes_of_given given
        rw [consumes] at used
        cases used
  | true =>
      cases call with
      | unwrap channel ready =>
          have refuses := refuses_unwrap
            (builderInvariant_consistent keepsConsistent false).toCheckInvariant consistent channel
              ready spends.channel
          exact (ends_results refuses).mono (fun _ _ _ => trivial) fun _ _ ends => ends.2 rfl
      | pack ty channels =>
          exact ends_results ((Construction.ends_pack distinct ty (spends.usable sound)).mono
            (fun _ _ _ => trivial) fun _ _ ends => ends.2.1)
      | unpack handle channels =>
          obtain ⟨ty, awaits⟩ := spends.awaits sound
          exact ends_results ((Construction.ends_unpack distinct awaits
            (spends.rest.usable sound)).mono (fun _ _ _ => trivial) fun _ _ ends => ends.2.1)
      | call service operation handle appId =>
          have refuses := refuses_call setting
            (builderInvariant_consistent keepsConsistent false).toCheckInvariant consistent service
              operation handle appId spends.bundle
          exact (ends_results refuses).mono (fun _ _ _ => trivial) fun _ _ ends => ends.2 rfl
      | _ => cases consumes

def Closes (builder : Builder) (given : List Token) (id : ChannelId) : Prop :=
  ∃ channel, builder.module.channels.get? id = some channel ∧
    (channel.consumer = .unbound → ∃ handle, .channel handle ∈ given ∧ handle.id = id)

def Serves (builder : Builder) (given : List Token) (id : BundleId) : Prop :=
  ∃ bundle, builder.module.bundles.get? id = some bundle ∧
    (bundle.server = .unbound → ∃ handle, .bundle handle ∈ given ∧ handle.id = id)

theorem openBut_given (builder : Builder) (given : List Token) :
    builder.OpenBut (Closes builder given) (Serves builder given) := by
  constructor
  · intro id channel held
    by_cases unbound : channel.consumer = .unbound
    · exact .inr unbound
    · exact .inl ⟨channel, held, fun isOpen => absurd isOpen unbound⟩
  · intro id bundle held
    by_cases unbound : bundle.server = .unbound
    · exact .inr unbound
    · exact .inl ⟨bundle, held, fun isOpen => absurd isOpen unbound⟩

variable {services : List Service} {after : Builder} {given : List Token}

theorem live_of_not_mem (live : ∀ token ∈ given, builder.Live token)
    (own : ∀ token ∈ given, token.scope = builder.scope)
    (leads : builder.Leads False services after)
    (openBut : after.OpenBut (Closes builder given) (Serves builder given)) {token : Token}
    (former : builder.Live token) (scope : token.scope = builder.scope) (spared : token ∉ given) :
    after.Live token := by
  cases token with
  | channel handle =>
      have ⟨channel, held, payload, unbound⟩ := former
      obtain ⟨later, stays, same⟩ := leads.grows.channels _ _ held
      refine ⟨later, stays, same.trans payload, ?_⟩
      refine (openBut.channels _ _ stays).resolve_left fun closes => ?_
      obtain ⟨channel', held', ends⟩ := closes
      rw [held] at held'
      cases held'
      obtain ⟨other, member, equal⟩ := ends unbound
      refine spared (Builder.Live.eq_of_id (live _ member) former ?_ equal ▸ member)
      exact (own _ member).trans scope.symm
  | bundle handle =>
      have ⟨bundle, ty, held, named, unbound, typed⟩ := former
      obtain ⟨later, stays, same⟩ := leads.grows.bundles _ _ held
      refine ⟨later, ty, stays, same.trans named, ?_, leads.grows.shared.types.get? typed⟩
      refine (openBut.bundles _ _ stays).resolve_left fun serves => ?_
      obtain ⟨bundle', held', ends⟩ := serves
      rw [held] at held'
      cases held'
      obtain ⟨other, member, equal⟩ := ends unbound
      refine spared (Builder.Live.eq_of_bundle (live _ member) former ?_ equal ▸ member)
      exact (own _ member).trans scope.symm

theorem live_of_issued {issued : List Token} (leads : builder.Leads False services after)
    (openBut : after.OpenBut (Closes builder given) (Serves builder given))
    (fresh : builder.Issued after issued) {token : Token} (member : token ∈ issued) :
    after.Live token := by
  have known := fresh.known token member
  have new := fresh.new token member
  cases token with
  | channel handle =>
      obtain ⟨channel, held, payload⟩ := known
      refine ⟨channel, held, payload, (openBut.channels _ _ held).resolve_left fun closes => ?_⟩
      obtain ⟨former, present, -⟩ := closes
      obtain ⟨later, stays, same⟩ := leads.grows.channels _ _ present
      rw [held] at stays
      cases stays
      exact new ⟨former, present, same.symm.trans payload⟩
  | bundle handle =>
      obtain ⟨bundle, held, named⟩ := known
      obtain ⟨ty, typed, -⟩ := leads.sound.module.placed.bundles _ _ held
      rw [named] at typed
      refine ⟨bundle, ty, held, named, (openBut.bundles _ _ held).resolve_left fun serves => ?_,
        typed⟩
      obtain ⟨former, present, -⟩ := serves
      obtain ⟨later, stays, same⟩ := leads.grows.bundles _ _ present
      rw [held] at stays
      cases stays
      exact new ⟨former, present, same.symm.trans named⟩

/-- What a call leaves that is given some handles. -/
structure Spares (services : List Service) (given : List Token) (before after : Builder) :
    Prop where
  leads : before.Leads False services after
  distinct : after.shared.types.Distinct
  live : ∀ token, before.Live token → token.scope = before.scope → token ∉ given →
    after.Live token

/-- A call spares all handles that it is not given, and gives new ones. -/
theorem spares (elaborates : Construction.Elaborates False setting elaborate)
    (keepsConsistent : Construction.KeepsConsistent setting elaborate)
    (sound : builder.Sound False setting.library.services)
    (distinct : builder.shared.types.Distinct) (call : Call) (spends : Spends call.given builder) :
    Ends (call.run setting elaborate) builder
      (fun results after =>
        Spares setting.library.services (Holding.allTokens call.given) builder after ∧
        builder.Issued after (Holding.allTokens results) ∧
        ∀ token ∈ Holding.allTokens results, after.Live token)
      fun error after =>
        Spares setting.library.services (Holding.allTokens call.given) builder after ∧
        ¬ error.Stale := by
  have endsSound := call.endsSound elaborates sound False.elim spends.owns
  have consistent := (builderInvariant_consistent keepsConsistent call.consumes).run setting call
    (fun used error unused => by rw [used] at unused; cases unused)
    (fun token given => by cases token <;> exact consumes_of_given given) builder
    ⟨sound.shared, distinct⟩
  have faults := faults_run keepsConsistent sound distinct call spends
  by_cases foreign : ∃ token ∈ Holding.allTokens call.given, token.scope ≠ builder.scope
  · obtain ⟨token, given, foreign⟩ := foreign
    refine (((retables_foreign given foreign).and endsSound).and (consistent.and faults)).mono ?_ ?_
    · exact fun _ _ ends => ends.1.1.2.elim
    · intro error after ends
      obtain ⟨⟨retabled, leads⟩, ⟨consistent, -⟩, fresh⟩ := ends
      exact ⟨⟨leads, consistent.distinct, fun _ live _ _ => live.retabled retabled⟩, fresh⟩
  have own : ∀ token ∈ Holding.allTokens call.given, token.scope = builder.scope := by
    intro token member
    exact Classical.not_not.1 fun apart => foreign ⟨token, member, apart⟩
  have live : ∀ token ∈ Holding.allTokens call.given, builder.Live token := fun token member =>
    spends.live token member (own token member)
  have openBut :=
    (builderInvariant_openBut elaborate (Closes builder (Holding.allTokens call.given))
    (Serves builder (Holding.allTokens call.given))).run setting call (fun _ _ => trivial)
    (fun token given => ?_) builder (openBut_given _ _)
  · refine ((endsSound.and openBut).and (consistent.and faults)).mono ?_ ?_
    · intro results after ends
      obtain ⟨⟨⟨leads, issued, -⟩, openBut⟩, consistent, -⟩ := ends
      exact
        ⟨⟨leads, consistent.distinct, fun token => live_of_not_mem live own leads openBut⟩, issued,
          fun token => live_of_issued leads openBut issued⟩
    · intro error after ends
      obtain ⟨⟨leads, openBut, -⟩, ⟨consistent, -⟩, fresh⟩ := ends
      exact
        ⟨⟨leads, consistent.distinct, fun token => live_of_not_mem live own leads openBut⟩, fresh⟩
  · have live := live token given
    cases token with
    | channel handle =>
        obtain ⟨channel, held, -⟩ := live
        exact ⟨channel, held, fun _ => ⟨handle, given, rfl⟩⟩
    | bundle handle =>
        obtain ⟨bundle, -, held, -⟩ := live
        exact ⟨bundle, held, fun _ => ⟨handle, given, rfl⟩⟩

end Call

end Elastic
