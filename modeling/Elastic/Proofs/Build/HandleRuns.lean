import Elastic.Proofs.Build.Handles

namespace Elastic

/-! Runs of a construction that use each handle at most once. Every handle that is left can be used,
and no call fails because of a handle. -/

variable {setting : Setting} {elaborate : String → Elaborating ModuleId}

namespace Assembly

variable {start : Elaboration} {assembly : Assembly} {hand given : List Holding}

/-- The assembly is in order, and all of the construction's own handles within reach can be used. -/
structure AllLive (services : List Service) (start : Elaboration) (hand : List Holding)
    (assembly : Assembly) : Prop where
  handles : assembly.Handles False services start hand
  distinct : assembly.builder.shared.types.Distinct
  live : ∀ token ∈ assembly.reach hand, token.scope = start.nextScope → assembly.builder.Live token

theorem mem_reach_append {token : Token} (member : token ∈ assembly.reach (given ++ hand)) :
    token ∈ Holding.allTokens given ∨ token ∈ assembly.reach hand := by
  simp only [reach, tokens, Holding.allTokens_append, List.mem_append] at member ⊢
  tauto

theorem mem_reach_of_mem {token : Token} (member : token ∈ assembly.reach hand) :
    token ∈ assembly.reach (given ++ hand) := by
  simp only [reach, tokens, Holding.allTokens_append, List.mem_append] at member ⊢
  tauto

theorem mem_reach_of_given {token : Token} (member : token ∈ Holding.allTokens given) :
    token ∈ assembly.reach (given ++ hand) := by
  simp only [reach, tokens, Holding.allTokens_append, List.mem_append]
  tauto

theorem AllLive.spends {services : List Service}
    (allLive : assembly.AllLive services start (given ++ hand)) :
    Call.Spends given assembly.builder := by
  refine ⟨fun token member own => allLive.live token (mem_reach_of_given member) ?_,
    allLive.handles.1.owns.once⟩
  exact own.trans allLive.handles.1.scope

theorem AllLive.after {services : List Service}
    (allLive : assembly.AllLive services start (given ++ hand)) {builder : Builder}
    (spares : Call.Spares services (Holding.allTokens given) assembly.builder builder)
    {results : List Holding}
    (live : ∀ token ∈ Holding.allTokens results, builder.Live token) :
    ∀ token ∈ Assembly.reach { assembly with builder := builder } (results ++ hand),
      token.scope = start.nextScope → builder.Live token := by
  have kept := allLive.handles.1
  intro token member own
  rcases mem_reach_append member with new | old
  · exact live token new
  have before : token ∈ assembly.reach hand := by
    simp only [reach, tokens, List.mem_append] at old ⊢
    refine old.imp id fun lent => List.count_pos_iff.1 ?_
    have custody := spares.leads.grows.shared.custody token (own ▸ kept.later)
    exact Nat.lt_of_lt_of_le (List.count_pos_iff.2 lent) custody
  have scope : token.scope = assembly.builder.scope := own.trans kept.scope.symm
  refine spares.live token (allLive.live token (mem_reach_of_mem before) own) scope fun given => ?_
  have once := kept.once token own
  have first := List.count_pos_iff.2 given
  have second := List.count_pos_iff.2 before
  simp only [reach, tokens, Holding.allTokens_append, List.count_append] at once second
  omega

end Assembly

/-- A recipe keeps all handles within reach usable, and never fails because of a handle. -/
theorem stepInvariant_allLive (elaborates : Construction.Elaborates False setting elaborate)
    (keepsConsistent : Construction.KeepsConsistent setting elaborate) (start : Elaboration) :
    StepInvariant False setting elaborate (Assembly.AllLive setting.library.services start)
      fun error => ¬ error.Stale where
  move holdings lent allLive fewer owned values := by
    refine
      ⟨(stepInvariant_kept elaborates start).move holdings lent allLive.handles fewer owned values,
        allLive.distinct, fun token member own => ?_⟩
    refine allLive.live token (List.count_pos_iff.1 ?_) own
    exact Nat.lt_of_lt_of_le (List.count_pos_iff.2 member) (fewer token)
  note note allLive :=
    ⟨(stepInvariant_kept elaborates start).note note allLive.handles, allLive.distinct,
      allLive.live⟩
  call {hand _} call allLive := by
    have kept := (stepInvariant_kept elaborates start).call call allLive.handles
    have spares := call.spares elaborates keepsConsistent allLive.handles.1.sound allLive.distinct
      allLive.spends
    refine (kept.and spares).mono (fun results after ends => ?_) fun error after ends => ?_
    · obtain ⟨handles, spares, -, live⟩ := ends
      exact ⟨handles, spares.distinct, allLive.after spares live⟩
    · obtain ⟨⟨handles, -⟩, spares, fresh⟩ := ends
      refine ⟨⟨handles, spares.distinct, fun token member => ?_⟩, fresh⟩
      have left := allLive.after spares
        (show ∀ token ∈ Holding.allTokens [], after.Live token from nofun)
      refine left token ?_
      rw [List.nil_append, ← List.append_nil hand]
      exact Assembly.mem_reach_of_mem member
  nothing label stale := by
    rcases stale with same | same <;> simpa using congrArg (·.toList.head?) same
  role _ _ := id

namespace Elaboration

variable {shared : Elaboration}

theorem keepsConsistent_declarePorts {services : List Service} (module : String)
    (ports : List (String × Ty)) (shared : Elaboration) (consistent : shared.Consistent services) :
    Ends (declarePorts module ports) shared (fun _ after => after.Consistent services)
      fun error after => after.Consistent services ∧ ¬ error.Stale := by
  induction ports generalizing shared with
  | nil => exact Ends.pure_iff.2 consistent
  | cons port rest induction =>
      obtain ⟨name, ty⟩ := port
      unfold declarePorts
      refine Ends.ite (fun _ => Ends.throw_bind ⟨consistent, id⟩) fun _ => ?_
      refine Ends.bind_iff.2 (Ends.modifyGet_iff.2 ?_)
      exact Ends.bind (induction _ (consistent.internTy _ ty))
        (fun _ _ consistent => Ends.pure_iff.2 consistent) fun _ _ badly => badly

def begun (shared : Elaboration) (decl : ModuleDecl) (ports : List Port) : Assembly :=
  Assembly.begin decl.name
    { id := 0, name := (shared.names.intern decl.name).1, ports := ports,
      metadata := decl.metadata }
    { shared with names := (shared.names.intern decl.name).2 }

theorem allLive_begun {services : List Service} (consistent : shared.Consistent services)
    (decl : ModuleDecl) {ports : List Port} (known : ∀ port ∈ ports, port.ty < shared.types.size) :
    (shared.begun decl ports).AllLive services
      { shared with names := (shared.names.intern decl.name).2 } [] := by
  have begins := Assembly.kept_begin (consistent.internName (shared.names.intern decl.name).2).sound
    decl.name (Module.wired_empty 0 (shared.names.intern decl.name).1 decl.metadata known)
  refine ⟨⟨begins, False.elim⟩, consistent.distinct, fun token member own => ?_⟩
  exact absurd own (Nat.ne_of_lt (consistent.sound.scopes token member))

theorem keepsConsistent_constructModule
    (elaborates : Construction.Elaborates False setting elaborate)
    (keepsConsistent : Construction.KeepsConsistent setting elaborate) (decl : ModuleDecl)
    (consistent : shared.Consistent setting.library.services) :
    Ends (constructModule setting elaborate decl) shared
      (fun _ after => after.Consistent setting.library.services)
      fun error after => after.Consistent setting.library.services ∧ ¬ error.Stale := by
  have declares := (keepsConsistent_declarePorts decl.name decl.ports shared consistent).and
    (endsSound_declarePorts decl.name decl.ports shared consistent.sound)
  refine ends_constructModule (declares.mono (fun _ _ ends => ends) fun _ _ ends => ends.1) ?_
  intro ports first facts
  obtain ⟨consistent, -, known⟩ := facts
  refine ((stepInvariant_allLive elaborates keepsConsistent _).recipe decl.recipe False.elim _
    (allLive_begun consistent decl known)).mono ?_ ?_
  · intro _ after allLive
    have sound := allLive.handles.1.sound
    exact ⟨(sound.shared.finish decl.name sound.module).1, allLive.distinct⟩
  · intro error after ends
    exact ⟨⟨ends.1.handles.1.sound.shared, ends.1.distinct⟩, ends.2⟩

theorem elaborates_unowned (fuel : Nat) (running : List String) :
    Construction.Elaborates False setting (Elaboration.elaborate setting fuel running) :=
  elaborates_elaborate False.elim fuel running

/-- No elaboration fails because of a handle. -/
theorem keepsConsistent_elaborate (fuel : Nat) (running : List String) :
    Construction.KeepsConsistent setting (Elaboration.elaborate setting fuel running) :=
  ends_elaborate _ _ _ (fun _ consistent _ _ => consistent)
    (fun _ consistent _ fresh => ⟨consistent, fresh⟩)
    (fun fuel running keepsConsistent decl _ _ consistent =>
      keepsConsistent_constructModule (elaborates_unowned fuel running) keepsConsistent
        decl consistent)
    fuel running

end Elaboration

def Call.issued : Except BuildError (List Holding) → List Token
  | .ok results => Holding.allTokens results
  | .error _ => []

/-- Each of the builder's own handles among some is unused, and is there no more often. -/
def Builder.Affords (builder : Builder) (unused tokens : List Token) : Prop :=
  ∀ token : Token, token.scope = builder.scope → tokens.count token ≤ unused.count token

/-- The builders that a construction reaches, and its unused handles there. A call uses up the
handles that it is given, whether or not it fails. Constructions begin with the first module or on
what another one shares, and between two calls notes and what is lent may change. -/
inductive Run (setting : Setting) : Builder → List Token → Prop
  | first {decl : ModuleDecl} {ports : List Port} {shared : Elaboration}
    (declared : (Elaboration.declarePorts decl.name decl.ports).run.run {} = (.ok ports, shared)) :
    Run setting (shared.begun decl ports).builder []
  | inner {outer : Builder} {unused : List Token} {decl : ModuleDecl} {ports : List Port}
    {shared : Elaboration} (run : Run setting outer unused)
    (declared : (Elaboration.declarePorts decl.name decl.ports).run.run outer.shared =
      (.ok ports, shared)) :
    Run setting (shared.begun decl ports).builder []
  | call {builder after : Builder} {unused rest : List Token} {call : Call} {fuel : Nat}
    {running : List String} {outcome : Except BuildError (List Holding)}
    (run : Run setting builder unused)
    (affords : builder.Affords unused (Holding.allTokens call.given ++ rest))
    (ran : (call.run setting (Elaboration.elaborate setting fuel running)).run.run builder =
      (outcome, after)) :
    Run setting after (Call.issued outcome ++ rest)
  | aside {builder : Builder} {unused : List Token} (notes : List Note) (holdings : Holdings)
    (run : Run setting builder unused)
    (lent : ∀ token ∈ holdings.tokens, token.scope < builder.shared.nextScope) :
    Run setting { builder with shared :=
      { builder.shared with notes := notes, holdings := holdings } } unused

/-- The builder is sound, and all of its own handles that are unused can be used. -/
structure Builder.Tracked (services : List Service) (unused : List Token) (builder : Builder) :
    Prop where
  sound : builder.Sound False services
  distinct : builder.shared.types.Distinct
  live : ∀ token ∈ unused, token.scope = builder.scope → builder.Live token
  once : ∀ token : Token, token.scope = builder.scope → unused.count token ≤ 1

namespace Builder.Tracked

variable {services : List Service} {builder : Builder} {unused rest : List Token}

theorem spends (tracked : builder.Tracked services unused) {given : List Holding}
    (affords : builder.Affords unused (Holding.allTokens given ++ rest)) :
    Call.Spends given builder := by
  refine ⟨fun token member own => tracked.live token ?_ own, fun token own => ?_⟩
  · refine List.count_pos_iff.1 (Nat.lt_of_lt_of_le ?_ (affords token own))
    exact List.count_pos_iff.2 (List.mem_append_left _ member)
  · have less := affords token own
    have once := tracked.once token own
    rw [List.count_append] at less
    omega

theorem spared (tracked : builder.Tracked services unused) {given issued : List Token}
    (affords : builder.Affords unused (given ++ rest)) {after : Builder}
    (spares : Call.Spares services given builder after) (fresh : builder.Issued after issued)
    (live : ∀ token ∈ issued, after.Live token) : after.Tracked services (issued ++ rest) := by
  have scope := spares.leads.grows.scope
  have unspent : ∀ token ∈ rest, token.scope = builder.scope → builder.Live token ∧
    token ∉ given := by
    intro token member own
    have less := affords token own
    have once := tracked.once token own
    have inside := List.count_pos_iff.2 member
    rw [List.count_append] at less
    refine ⟨tracked.live token (List.count_pos_iff.1 (by omega)) own, fun given => ?_⟩
    have spent := List.count_pos_iff.2 given
    omega
  refine ⟨spares.leads.sound, spares.distinct, fun token member own => ?_, fun token own => ?_⟩
  · rw [scope] at own
    rcases List.mem_append.1 member with new | old
    · exact live token new
    · obtain ⟨former, spared⟩ := unspent token old own
      exact spares.live token former own spared
  · rw [scope] at own
    have less := affords token own
    have once := tracked.once token own
    rw [List.count_append] at less ⊢
    by_cases new : token ∈ issued
    · have absent : token ∉ rest := fun old => fresh.new token new (unspent token old own).1.knows
      rw [List.count_eq_zero_of_not_mem absent]
      exact List.nodup_iff_count.1 fresh.distinct token
    · rw [List.count_eq_zero_of_not_mem new]
      omega

theorem begun {shared first : Elaboration} {decl : ModuleDecl} {ports : List Port}
    (consistent : shared.Consistent services)
    (declared : (Elaboration.declarePorts decl.name decl.ports).run.run shared =
      (.ok ports, first)) : (first.begun decl ports).builder.Tracked services [] := by
  have ends := (Elaboration.keepsConsistent_declarePorts decl.name decl.ports shared consistent).and
    (Elaboration.endsSound_declarePorts decl.name decl.ports shared consistent.sound)
  unfold Ends at ends
  rw [declared] at ends
  obtain ⟨consistent, -, known⟩ := ends
  have allLive := Elaboration.allLive_begun consistent decl known
  exact ⟨allLive.handles.1.sound, allLive.distinct, nofun, fun _ _ => Nat.zero_le 1⟩

end Builder.Tracked

theorem Run.tracked {builder : Builder} {unused : List Token} (run : Run setting builder unused) :
    builder.Tracked setting.library.services unused := by
  induction run with
  | first declared => exact .begun (Elaboration.consistent_empty _) declared
  | inner run declared tracked => exact .begun ⟨tracked.sound.shared, tracked.distinct⟩ declared
  | @call builder after unused rest call fuel running outcome run affords ran tracked =>
      have ends := call.spares (Elaboration.elaborates_unowned fuel running)
        (Elaboration.keepsConsistent_elaborate fuel running) tracked.sound tracked.distinct
        (tracked.spends affords)
      unfold Ends at ends
      rw [ran] at ends
      cases outcome with
      | ok results => exact tracked.spared affords ends.1 ends.2.1 ends.2.2
      | error error => exact tracked.spared affords ends.1 (Builder.issued_nil _ _) nofun
  | aside notes holdings run lent tracked =>
      obtain ⟨⟨module, shared⟩, distinct, live, once⟩ := tracked
      exact ⟨⟨module, shared.modules, shared.finished, lent⟩, distinct, live, once⟩

theorem Builder.affords_of_count {unused tokens : List Token}
    (fewer : ∀ token ∈ tokens, tokens.count token ≤ unused.count token) (builder : Builder) :
    builder.Affords unused tokens := by
  intro token _
  by_cases member : token ∈ tokens
  · exact fewer token member
  · rw [List.count_eq_zero_of_not_mem member]
    exact Nat.zero_le _

theorem Run.next {builder : Builder} {unused : List Token} (left rest : List Token) (call : Call)
    (run : Run setting builder unused)
    (fewer : ∀ token ∈ Holding.allTokens call.given ++ rest,
      (Holding.allTokens call.given ++ rest).count token ≤ unused.count token)
    (issued : Call.issued
      ((call.run setting (Elaboration.elaborate setting 0 [])).run.run builder).1 ++ rest = left) :
    Run setting ((call.run setting (Elaboration.elaborate setting 0 [])).run.run builder).2 left :=
  issued ▸ run.call (Builder.affords_of_count fewer builder) rfl

/-- However a construction came about, as long as it uses each handle once at most, the channel of
an unused handle has no consumer, and the bundle of an unused handle is of a bundle type and not
served. No call that may follow fails because of a handle, and an unpacking that fails leaves the
module as it was. -/
theorem unused_handles_can_be_used {builder : Builder} {unused : List Token}
    (run : Run setting builder unused) :
    (∀ token ∈ unused, token.scope = builder.scope → builder.Live token) ∧
    ∀ (call : Call) (fuel : Nat) (running : List String),
      builder.Affords unused (Holding.allTokens call.given) →
      Ends (call.run setting (Elaboration.elaborate setting fuel running)) builder (fun _ _ => True)
        fun error after => ¬ error.Stale ∧
          ∀ handle channels, call = .unpack handle channels → after.module = builder.module := by
  have tracked := run.tracked
  refine ⟨tracked.live, fun call fuel running affords => ?_⟩
  rw [← List.append_nil (Holding.allTokens call.given)] at affords
  have spends := tracked.spends affords
  have faults := call.faults_run (Elaboration.keepsConsistent_elaborate fuel running) tracked.sound
    tracked.distinct spends
  cases call with
  | unpack handle channels =>
      obtain ⟨ty, awaits⟩ := spends.awaits tracked.sound
      have unpacks := Construction.ends_unpack tracked.distinct awaits
        (spends.rest.usable tracked.sound)
      refine Ends.bind unpacks (fun _ _ _ => Ends.pure_iff.2 trivial) fun error after ends => ?_
      exact ⟨ends.2.1, fun _ _ _ => ends.1.module⟩
  | _ => exact faults.mono (fun _ _ _ => trivial) fun _ _ fresh => ⟨fresh, nofun⟩

def Setting.bare : Setting := ⟨Library.empty, .cosim, BackendPreset.cosim.capabilities⟩

def BundleTy.echo : BundleTy := [⟨"a", .toService, .bit⟩, ⟨"b", .fromService, .bit⟩]

theorem packed_handles_can_be_used :
    ∃ builder, Run .bare builder [.bundle ⟨0, 1, 0⟩, .channel ⟨1, 0, 0⟩] ∧ builder.scope = 0 ∧
      (∀ token ∈ [Token.bundle ⟨0, 1, 0⟩, .channel ⟨1, 0, 0⟩], token.scope = builder.scope →
        builder.Live token) ∧
      ∀ (call : Call) (fuel : Nat) (running : List String),
        builder.Affords [.bundle ⟨0, 1, 0⟩, .channel ⟨1, 0, 0⟩] (Holding.allTokens call.given) →
        Ends (call.run .bare (Elaboration.elaborate .bare fuel running)) builder (fun _ _ => True)
          fun error after => ¬ error.Stale ∧
            ∀ handle channels, call = .unpack handle channels → after.module = builder.module := by
  have begun : Run .bare (({} : Elaboration).begun { name := "Top" } []).builder [] := .first rfl
  have valued := begun.next [] [] (.bool true) (by decide) (by decide +kernel)
  have wrapped := valued.next [.channel ⟨0, 0, 0⟩] [] (.wrap .bit ⟨0, 0⟩ ⟨0, 0⟩) (by decide)
    (by decide +kernel)
  have packed := wrapped.next [.bundle ⟨0, 1, 0⟩, .channel ⟨1, 0, 0⟩] []
    (.pack BundleTy.echo [("a", ⟨0, 0, 0⟩)]) (by decide) (by decide +kernel)
  exact ⟨_, packed, by decide +kernel, unused_handles_can_be_used packed⟩

end Elastic
