import Elastic.Proofs.Build.GenerationState

namespace Elastic

/-! Elaborations lead by steps from one state of a generation to another, and every call of every
module is one of the steps. -/

variable {setting : Setting} {elaborate : String → Elaborating ModuleId}

namespace Construction

theorem run_onShared (action : Elaborating α) (builder : Builder) :
    (onShared action).run.run builder =
      ((action.run.run builder.shared).1,
        { builder with shared := (action.run.run builder.shared).2 }) := rfl

end Construction

namespace Elaboration

theorem ends_revisit (refusal : Option BuildError) (name : String) (shared : Elaboration) :
    Ends (revisit refusal name) shared (fun _ after => after = shared)
      fun _ after => after = shared := by
  unfold revisit
  split
  · exact Ends.throw_iff.2 rfl
  refine Ends.get_bind ?_
  split
  · exact Ends.pure_iff.2 rfl
  · exact Ends.throw_iff.2 rfl

end Elaboration

theorem builderInvariant_aloof (refusal : Option BuildError) (name : String) (holdings : Holdings) :
    BuilderInvariant (Elaboration.revisit refusal) (fun _ => True) (fun _ => True)
      (fun builder => builder.name = name ∧ builder.shared.holdings = holdings) fun _ => True where
  internTy _ _ aloof := Ends.modifyGet_iff.2 aloof
  internName _ _ aloof := Ends.modifyGet_iff.2 aloof
  appIds _ _ aloof := aloof
  addExpr _ _ _ aloof := Ends.modifyGet_iff.2 aloof
  addChannel _ _ _ aloof := Ends.modifyGet_iff.2 aloof
  addBundle _ _ _ _ aloof := Ends.modifyGet_iff.2 aloof
  addService _ _ aloof := Ends.modifyGet_iff.2 aloof
  declare _ _ _ aloof := aloof
  bind _ _ _ _ aloof := Ends.get_bind (Ends.ite (fun _ => Ends.modify_iff.2 aloof) fun _ =>
    Ends.throw_iff.2 ⟨aloof, trivial⟩)
  setBundle _ _ _ _ aloof := Ends.modify_iff.2 aloof
  elaborates child builder aloof := by
    refine (Construction.ends_onShared (Elaboration.ends_revisit refusal child builder.shared)).mono
      ?_ ?_
    · rintro id _ ⟨shared, rfl, rfl⟩
      exact aloof
    · rintro error _ ⟨shared, rfl, rfl⟩
      exact ⟨aloof, trivial⟩
  fresh _ _ := trivial

namespace Call

open Construction

theorem run_reserve_share (appId : AppId) (builder : Builder) (shared : Elaboration) :
    (reserve appId).run.run { builder with shared := shared } =
      (((reserve appId).run.run builder).1,
        { ((reserve appId).run.run builder).2 with shared := shared }) := by
  rw [run_reserve, run_reserve]
  split
  · rfl
  · split <;> rfl

theorem run_instantiate (elaborate : String → Elaborating ModuleId) (child : String)
    (appId : AppId) (connections : List (String × Value)) (builder : Builder) :
    (Call.run setting elaborate (.instantiate child appId connections)).run.run builder =
      match (reserve appId).run.run builder with
      | (.error error, after) => (.error error, after)
      | (.ok _, taken) =>
        match (elaborate child).run.run taken.shared with
        | (.error error, shared) => (.error error, { taken with shared := shared })
        | (.ok id, shared) =>
          (adopt child appId connections id >>= fun _ => pure []).run.run
            { taken with shared := shared } := by
  have whole : Call.run setting elaborate (.instantiate child appId connections) =
      Construction.instantiate elaborate child appId connections >>= fun _ => pure [] := rfl
  rw [whole, Ends.run_bind, instantiate_eq, Ends.run_bind]
  rcases (reserve appId).run.run builder with ⟨error | taken, after⟩
  · rfl
  dsimp only
  rw [Ends.run_bind, run_onShared]
  rcases (elaborate child).run.run after.shared with ⟨error | id, shared⟩
  · rfl
  · exact (Ends.run_bind _ _ _).symm

end Call

/-- What steps may have led to: tables, and values that calls have given, with all those that are
lent. -/
structure GenerationState.StepsTo (setting : Setting) (frames : List ModuleFrame)
    (before after : Elaboration) (values gained : List Value) : Prop where
  leads : Leads setting ⟨before, frames, values⟩ ⟨after, frames, gained⟩
  keeps : values ⊆ gained
  lent : ∀ value, .value value ∈ after.holdings.map (·.2) → value ∈ gained

/-- Elaborations are sequences of steps, whichever modules are under construction, and leave what
they have elaborated. -/
def Elaboration.ElaboratesBySteps (setting : Setting)
    (elaborate : String → Elaborating ModuleId) : Prop :=
  ∀ name (shared : Elaboration) frames values, shared.Consistent setting.library.services →
    (∀ value, .value value ∈ shared.holdings.map (·.2) → value ∈ values) →
    Ends (elaborate name) shared
      (fun id after => after.finished? name = some id ∧
        ∃ gained, GenerationState.StepsTo setting frames shared after values gained)
      fun error after => ¬ error.Stale ∧
        ∃ gained, GenerationState.StepsTo setting frames shared after values gained

namespace Call

open Construction

theorem revisited (bySteps : Elaboration.ElaboratesBySteps setting elaborate) (call : Call)
    {builder : Builder} (consistent : builder.shared.Consistent setting.library.services)
    (frames : List ModuleFrame) {values : List Value}
    (lent : ∀ value, .value value ∈ builder.shared.holdings.map (·.2) → value ∈ values) :
    ∃ refusal shared gained, (∀ error, refusal = some error → ¬ error.Stale) ∧
      GenerationState.StepsTo setting frames builder.shared shared values gained ∧
      (call.run setting elaborate).run.run builder =
        (call.run setting (Elaboration.revisit refusal)).run.run
          { builder with shared := shared } := by
  have idle : GenerationState.StepsTo setting frames builder.shared builder.shared values values :=
    ⟨.refl, fun _ member => member, lent⟩
  cases call with
  | instantiate child appId connections =>
      rcases (ends_reserve appId builder).cases_run with
        ⟨_, _, ran, free, rfl⟩ | ⟨error, _, ran, refused, rfl⟩
      swap
      · refine ⟨none, _, values, nofun, idle, ?_⟩
        rw [run_instantiate, run_instantiate, ran]
      have same {refusal : Option BuildError} {outcome : Except BuildError ModuleId}
          {shared : Elaboration}
          (elaborated : (elaborate child).run.run builder.shared = (outcome, shared))
          (revisited : (Elaboration.revisit refusal child).run.run shared = (outcome, shared)) :
          (Call.run setting elaborate (.instantiate child appId connections)).run.run builder =
            (Call.run setting (Elaboration.revisit refusal)
              (.instantiate child appId connections)).run.run
                { builder with shared := shared } := by
        rw [run_instantiate, run_instantiate, run_reserve_share appId builder shared, ran]
        dsimp only
        rw [elaborated, revisited]
      rcases (bySteps child builder.shared frames values consistent lent).cases_run with
        ⟨id, shared, elaborated, finished, gained, stepsTo⟩ |
          ⟨error, shared, elaborated, fresh, gained, stepsTo⟩
      · refine ⟨none, shared, gained, nofun, stepsTo, same elaborated ?_⟩
        unfold Elaboration.revisit
        dsimp only
        rw [Ends.run_get_bind, finished]
        rfl
      · exact ⟨some error, shared, gained, fun _ known => Option.some.inj known ▸ fresh, stepsTo,
          same elaborated rfl⟩
  | _ => exact ⟨none, _, values, nofun, idle, rfl⟩

end Call

/-- The assembly of a module stands in the state of the generation, with what is within its reach.
-/
structure Assembly.Stands (setting : Setting) (base : GenerationState) (name : String)
    (start : Elaboration) (hand : List Holding) (assembly : Assembly) : Prop where
  allLive : assembly.AllLive setting.library.services start hand
  name : assembly.builder.name = name
  stepsTo : ∃ unused values,
    GenerationState.Leads setting base
      ⟨assembly.builder.shared, assembly.builder.frame unused :: base.frames, values⟩ ∧
    base.values ⊆ values ∧
    (∀ token : Token, token.scope = start.nextScope →
      (assembly.reach hand).count token ≤ unused.count token) ∧
    ∀ value, .value value ∈ hand ++ assembly.holdings.map (·.2) ++
      assembly.builder.shared.holdings.map (·.2) → value ∈ values

theorem Assembly.AllLive.lentScopes {services : List Service} {start : Elaboration}
    {hand : List Holding} {assembly : Assembly} (allLive : assembly.AllLive services start hand) :
    ∀ token ∈ assembly.builder.shared.holdings.tokens,
      token.scope < assembly.builder.shared.nextScope :=
  allLive.handles.1.sound.shared.scopes

namespace Assembly

variable {base : GenerationState} {name : String} {start : Elaboration} {hand : List Holding}
  {assembly : Assembly}

theorem count_reach_le {results hand' : List Holding} {after : Builder} {token : Token}
    (fewer : hand'.Sublist hand)
    (custody : after.shared.holdings.tokens.count token ≤
      assembly.builder.shared.holdings.tokens.count token) :
    (reach { assembly with builder := after } (results ++ hand')).count token ≤
      (Holding.allTokens results ++ assembly.reach hand).count token := by
  have less := (fewer.flatMap Holding.tokens).count_le token
  simp only [reach, tokens, Holding.allTokens, List.flatMap_append, List.count_append]
  omega

theorem stands_led {after : Builder} {results hand' : List Holding} {gained : List Value}
    (allLive : AllLive setting.library.services start (results ++ hand')
      { assembly with builder := after })
    (named : after.name = name) (fewer : hand'.Sublist hand)
    (custody : ∀ token : Token, token.scope = start.nextScope →
      after.shared.holdings.tokens.count token ≤
        assembly.builder.shared.holdings.tokens.count token)
    (keeps : base.values ⊆ gained)
    (near : ∀ value, .value value ∈ hand ++ assembly.holdings.map (·.2) → value ∈ gained)
    (lent : ∀ value, .value value ∈ after.shared.holdings.map (·.2) → value ∈ gained)
    (path : GenerationState.Leads setting base ⟨after.shared,
      after.frame (Holding.allTokens results ++ assembly.reach hand) :: base.frames,
      results.filterMap Holding.value? ++ gained⟩) :
    Stands setting base name start (results ++ hand') { assembly with builder := after } := by
  refine ⟨allLive, named, _, _, path, fun value member => List.mem_append_right _ (keeps member),
    fun token own => count_reach_le fewer (custody token own), fun value member => ?_⟩
  rcases List.mem_append.1 member with within | shared
  · rcases List.mem_append.1 within with inHand | stored
    · rcases List.mem_append.1 inHand with new | former
      · exact List.mem_append_left _ (List.mem_filterMap.2 ⟨_, new, rfl⟩)
      · exact List.mem_append_right _ (near value (List.mem_append_left _ (fewer.subset former)))
    · exact List.mem_append_right _ (near value (List.mem_append_right _ stored))
  · exact List.mem_append_right _ (lent value shared)

theorem Stands.leads_call (bySteps : Elaboration.ElaboratesBySteps setting elaborate) (call : Call)
    (stands : assembly.Stands setting base name start (call.given ++ hand)) :
    ∃ gained, base.values ⊆ gained ∧
      (∀ value, .value value ∈ hand ++ assembly.holdings.map (·.2) → value ∈ gained) ∧
      (assembly.builder.after (call.run setting elaborate)).name = name ∧
      (∀ value, .value value ∈
        (assembly.builder.after (call.run setting elaborate)).shared.holdings.map (·.2) →
          value ∈ gained) ∧
      GenerationState.Leads setting base
        ⟨(assembly.builder.after (call.run setting elaborate)).shared,
          (assembly.builder.after (call.run setting elaborate)).frame
            (Call.issued (assembly.builder.ask (call.run setting elaborate)) ++
              assembly.reach hand) :: base.frames,
          Call.gained (assembly.builder.ask (call.run setting elaborate)) ++ gained⟩ := by
  obtain ⟨allLive, named, unused, values, leads, keeps, counts, inReach⟩ := stands
  have kept := allLive.handles.1
  obtain ⟨refusal, shared, gained, fresh, stepsTo, same⟩ := call.revisited bySteps
    ⟨kept.sound.shared, allLive.distinct⟩ (assembly.builder.frame unused :: base.frames)
    fun value lent => inReach value (List.mem_append_right _ lent)
  have aloof :=
    (((builderInvariant_aloof refusal name shared.holdings).run setting call (fun _ _ => trivial)
      fun token _ => by cases token <;> trivial).maintains).after
        (show ({ assembly.builder with shared := shared } : Builder).name = name ∧
          _ from ⟨named, rfl⟩)
  rw [← same] at aloof
  have affords : ({ assembly.builder with shared := shared } : Builder).Affords unused
      (Holding.allTokens call.given ++ assembly.reach hand) := by
    intro token own
    have fewer := counts token (own.trans kept.scope)
    simp only [reach, tokens, Holding.allTokens_append, List.count_append] at fewer ⊢
    omega
  have given : ∀ value, .value value ∈ call.given → value ∈ gained := fun value member =>
    stepsTo.keeps (inReach value (List.mem_append_left _ (List.mem_append_left _
      (List.mem_append_left _ member))))
  have lent := stepsTo.lent
  rw [← aloof.2] at lent
  refine ⟨gained, fun _ member => stepsTo.keeps (keeps member), fun value member => ?_, aloof.1,
    lent, (leads.trans stepsTo.leads).tail (.call fresh affords given same.symm)⟩
  refine stepsTo.keeps (inReach value (List.mem_append_left _ ?_))
  rcases List.mem_append.1 member with inHand | stored
  · exact List.mem_append_left _ (List.mem_append_right _ inHand)
  · exact List.mem_append_right _ stored

theorem Stands.call (elaborates : Construction.Elaborates False setting elaborate)
    (keepsConsistent : Construction.KeepsConsistent setting elaborate)
    (bySteps : Elaboration.ElaboratesBySteps setting elaborate) (call : Call)
    (stands : assembly.Stands setting base name start (call.given ++ hand)) :
    Ends (call.run setting elaborate) assembly.builder
      (fun results after => Stands setting base name start (results ++ hand)
        { assembly with builder := after })
      fun error after => Stands setting base name start [] { assembly with builder := after } ∧
        ¬ error.Stale := by
  obtain ⟨gained, keeps, near, named, lent, path⟩ := stands.leads_call bySteps call
  have allLive := stands.allLive
  have kept := allLive.handles.1
  have early (token : Token) (own : token.scope = start.nextScope) :
      token.scope < assembly.builder.shared.nextScope := own.trans_lt kept.later
  have ends := ((stepInvariant_allLive elaborates keepsConsistent start).call call allLive).and
    (call.spares elaborates keepsConsistent kept.sound allLive.distinct allLive.spends)
  refine (ends.and (.asked _ _)).mono (fun results after facts => ?_) fun error after facts => ?_
  · obtain ⟨⟨allLive, spares, -⟩, asked, rfl⟩ := facts
    rw [asked] at path
    exact stands_led allLive named (.refl _)
      (fun token own => spares.leads.grows.shared.custody token (early token own)) keeps near lent
      path
  · obtain ⟨⟨⟨allLive, stale⟩, spares, -⟩, asked, rfl⟩ := facts
    rw [asked] at path
    have stands : Stands setting base name start ([] ++ []) _ :=
      stands_led allLive named (List.nil_sublist _)
        (fun token own => spares.leads.grows.shared.custody token (early token own)) keeps near lent
        path
    exact ⟨stands, stale⟩

end Assembly

theorem stepInvariant_stands (elaborates : Construction.Elaborates False setting elaborate)
    (keepsConsistent : Construction.KeepsConsistent setting elaborate)
    (bySteps : Elaboration.ElaboratesBySteps setting elaborate) (base : GenerationState)
    (name : String) (start : Elaboration) :
    StepInvariant False setting elaborate (Assembly.Stands setting base name start)
      fun error => ¬ error.Stale where
  move holdings lent stands fewer owned values := by
    obtain ⟨allLive, named, unused, known, leads, keeps, counts, inReach⟩ := stands
    have moved := (stepInvariant_allLive elaborates keepsConsistent start).move holdings lent
      allLive fewer owned values
    refine ⟨moved, named, unused, known, leads.tail (.aside _ lent moved.lentScopes), keeps, ?_, ?_⟩
    · exact fun token own => Nat.le_trans (fewer token) (counts token own)
    · exact fun value member => inReach value (values value member)
  note note stands := by
    obtain ⟨allLive, named, unused, known, leads, keeps, counts, inReach⟩ := stands
    have noted := (stepInvariant_allLive elaborates keepsConsistent start).note note allLive
    exact ⟨noted, named, unused, known, leads.tail (.aside _ _ noted.lentScopes), keeps, counts,
      inReach⟩
  call call stands := stands.call elaborates keepsConsistent bySteps call
  nothing := (stepInvariant_allLive elaborates keepsConsistent start).nothing
  role _ _ := id

namespace Elaboration

variable {shared : Elaboration}

theorem finished?_finish (shared : Elaboration) (name : String) (module : Module) :
    (shared.finish name module).finished? name = some shared.modules.size := by
  simp [finished?, finish]

theorem holdings_declarePorts (module : String) (ports : List (String × Ty)) (holdings : Holdings) :
    Maintains (fun shared : Elaboration => shared.holdings = holdings)
      (declarePorts module ports) := by
  induction ports with
  | nil => exact .pure _
  | cons port rest induction =>
      exact .ite (.throw_bind _) (.bind (.modifyGet fun _ same => same) fun _ =>
        induction.bind fun _ => .pure _)

theorem stands_begun {first : Elaboration} {decl : ModuleDecl} {ports : List Port}
    {frames : List ModuleFrame} {values : List Value}
    (consistent : first.Consistent setting.library.services)
    (known : ∀ port ∈ ports, port.ty < first.types.size)
    (declared : (declarePorts decl.name decl.ports).run.run shared = (.ok ports, first))
    (lent : ∀ value, .value value ∈ first.holdings.map (·.2) → value ∈ values) :
      (first.begun decl ports).Stands setting ⟨shared, frames, values⟩ decl.name
        { first with names := (first.names.intern decl.name).2 } [] := by
  have absent (token : Token) (own : token.scope = first.nextScope) :
      token ∉ (first.begun decl ports).reach [] := fun member =>
    absurd own (Nat.ne_of_lt (consistent.sound.scopes token member))
  refine ⟨allLive_begun consistent decl known, rfl, [], values, .single (.begin declared),
    fun _ member => member, fun token own => ?_, lent⟩
  rw [List.count_eq_zero_of_not_mem (absent token own)]
  exact Nat.zero_le _

theorem stepsTo_constructModule (elaborates : Construction.Elaborates False setting elaborate)
    (keepsConsistent : Construction.KeepsConsistent setting elaborate)
    (bySteps : ElaboratesBySteps setting elaborate) (decl : ModuleDecl)
    (consistent : shared.Consistent setting.library.services) (frames : List ModuleFrame)
    {values : List Value} (lent : ∀ value, .value value ∈ shared.holdings.map (·.2) →
      value ∈ values) :
    Ends (constructModule setting elaborate decl) shared
      (fun id after => after.finished? decl.name = some id ∧
        ∃ gained, GenerationState.StepsTo setting frames shared after values gained)
      fun error after => ¬ error.Stale ∧
        ∃ gained, GenerationState.StepsTo setting frames shared after values gained := by
  have declares := (((keepsConsistent_declarePorts decl.name decl.ports shared consistent).and
    (endsSound_declarePorts decl.name decl.ports shared consistent.sound)).and
    (holdings_declarePorts decl.name decl.ports shared.holdings shared rfl)).and
    (.ran (declarePorts decl.name decl.ports) shared)
  refine ends_constructModule (declares.mono (fun _ _ ends => ends) fun error after ends => ?_) ?_
  · obtain ⟨⟨⟨⟨-, fresh⟩, -⟩, same⟩, ran⟩ := ends
    exact ⟨fresh, values, .single (.refuse ran), fun _ member => member, same ▸ lent⟩
  intro ports first facts
  obtain ⟨⟨⟨consistent, -, known⟩, same⟩, ran⟩ := facts
  have begun : (first.begun decl ports).Stands setting ⟨shared, frames, values⟩ decl.name _ [] :=
    stands_begun consistent known ran (same ▸ lent)
  refine ((stepInvariant_stands elaborates keepsConsistent bySteps _ _ _).recipe decl.recipe
    False.elim _ begun).mono ?_ ?_
  · intro _ after stands
    obtain ⟨-, named, unused, gained, leads, keeps, -, inReach⟩ := stands
    refine ⟨finished?_finish _ _ _, gained, ?_, keeps, fun value member => ?_⟩
    · rw [← named]
      exact leads.tail .finish
    · exact inReach value (List.mem_append_right _ member)
  · intro error after ends
    obtain ⟨⟨-, -, unused, gained, leads, keeps, -, inReach⟩, fresh⟩ := ends
    exact ⟨fresh, gained, leads.tail .abandon, keeps, fun value member =>
      inReach value (List.mem_append_right _ member)⟩

theorem bySteps_open {fuel : Nat} {running : List String}
    (below : ∀ inner, fuel = inner + 1 → ∀ running,
      ElaboratesBySteps setting (Elaboration.elaborate setting inner running)) :
    ElaboratesBySteps setting (Elaboration.elaborate setting fuel running) := by
  intro name shared frames values consistent lent
  have idle : GenerationState.StepsTo setting frames shared shared values values :=
    ⟨.refl, fun _ member => member, lent⟩
  cases found : shared.finished? name with
  | some id =>
      unfold Elaboration.elaborate
      refine Ends.get_bind ?_
      rw [found]
      exact Ends.pure_iff.2 ⟨found, values, idle⟩
  | none =>
      refine ends_open (fun id member => ?_) (fun _ fresh => ⟨fresh, values, idle⟩)
        fun inner same decl declared _ _ => ?_
      · have absent := List.find?_eq_none.1 (Option.map_eq_none_iff.1 found) _ member
        exact absurd (decide_eq_true rfl) absent
      · have titled := List.find?_some declared
        obtain rfl : decl.name = name := of_decide_eq_true titled
        exact stepsTo_constructModule (elaborates_unowned inner _)
          (keepsConsistent_elaborate inner _) (below inner same _) decl consistent frames lent

/-- Every elaboration is a sequence of steps. -/
theorem bySteps_elaborate (fuel : Nat) (running : List String) :
    ElaboratesBySteps setting (Elaboration.elaborate setting fuel running) := by
  induction fuel generalizing running with
  | zero => exact bySteps_open nofun
  | succ fuel induction =>
      exact bySteps_open fun inner same => Nat.succ.inj same ▸ induction

/-- What a generation comes to is reached by steps from the empty state, whether it succeeds or not.
-/
theorem stepsTo_elaborateTop (setting : Setting) (top : String) :
    ∃ gained, GenerationState.Leads setting {}
      ⟨((elaborateTop setting top).run.run {}).2, [], gained⟩ := by
  have bySteps : ElaboratesBySteps setting
    (elaborate setting (setting.library.modules.length + 1) []) :=
    bySteps_elaborate _ _
  have stepsTo := bySteps top {} [] [] (consistent_empty _) nofun
  rcases stepsTo.cases_run with ⟨_, _, ran, -, gained, stepsTo⟩ | ⟨_, _, ran, -, gained, stepsTo⟩
  · exact ⟨gained, by rw [elaborateTop, ran]; exact stepsTo.leads⟩
  · exact ⟨gained, by rw [elaborateTop, ran]; exact stepsTo.leads⟩

end Elaboration

namespace TyPool

variable {pool later : TyPool} {ty : Ty}

/-- In all later tables, an interned type is the one and only type that has its number. -/
theorem intern_eq_iff (distinct : later.Distinct) (grows : (pool.intern ty).2.Grows later)
    (other : Ty) : (later.intern other).1 = (pool.intern ty).1 ↔ other = ty := by
  have known := grows.get? (pool.get?_intern ty)
  constructor
  · intro same
    have asked := later.get?_intern other
    rw [same, (later.grows_intern other).get? known] at asked
    exact (Option.some.inj asked).symm
  · rintro rfl
    rw [intern, distinct.find?_eq_some known]

end TyPool

/-- In whatever order the modules of a generation intern types, begin, make calls, fail and finish:
the table never holds a type twice. A number keeps its type in all later states. An interned type
has a number of its own, which no other type is ever given. And every call of every module under
construction, with values that calls have given and handles that it has not used before, comes to
what its review says, which compares the types themselves. What a generation leaves is reached in
this way, with the table of its graph. -/
theorem GenerationState.numbers_tell_types {state : GenerationState}
    (reached : Leads setting {} state) : state.shared.types.Distinct ∧
    (∀ later, Leads setting state later → ∀ id ty, state.shared.types.get? id = some ty →
      later.shared.types.get? id = some ty) ∧
    (∀ ty later, Leads setting (state.interned ty) later →
      later.shared.types.get? (state.shared.types.intern ty).1 = some ty ∧
      ∀ other, (later.shared.types.intern other).1 = (state.shared.types.intern ty).1 ↔
        other = ty) ∧
    (∀ frame ∈ state.frames, ∀ (call : Call) (fuel : Nat) (running : List String),
      (frame.builder state.shared).Affords frame.unused (Holding.allTokens call.given) →
      (∀ value, .value value ∈ call.given → value ∈ state.values) →
      ((frame.builder state.shared).ask
          (call.run setting (Elaboration.elaborate setting fuel running))).map (fun _ => ()) =
        call.review setting (Elaboration.elaborate setting fuel running)
          (frame.builder state.shared)) ∧
    ∀ top, ∃ final, Leads setting {} final ∧ final.frames = [] ∧
      final.shared = ((Elaboration.elaborateTop setting top).run.run {}).2 ∧
      ∀ graph, (generate setting top).outcome = .ok graph → graph.types = final.shared.types := by
  obtain ⟨orderly, -⟩ := reached.orderly (orderly_empty _)
  refine ⟨orderly.consistent.distinct, fun later leads id ty known => ?_, fun ty later leads => ?_,
    fun frame member call fuel running affords given => ?_, fun top => ?_⟩
  · exact (leads.orderly orderly).2.types.get? known
  · obtain ⟨interned, -⟩ := (Step.intern state ty : Step setting _ _).orderly orderly
    obtain ⟨orderly, grows⟩ := leads.orderly interned
    exact ⟨grows.types.get? (state.shared.types.get?_intern ty),
      TyPool.intern_eq_iff orderly.consistent.distinct grows.types⟩
  · have tracked := orderly.frames frame member
    rw [← List.append_nil (Holding.allTokens call.given)] at affords
    exact (call.endsAs_review (Elaboration.elaborates_unowned fuel running)
      (Elaboration.keepsConsistent_elaborate fuel running) tracked.sound tracked.distinct
      (tracked.spends affords) fun value inside =>
        orderly.values value (given value inside)).map_ask
  · obtain ⟨gained, leads⟩ := Elaboration.stepsTo_elaborateTop setting top
    refine ⟨_, leads, rfl, rfl, fun graph generated => ?_⟩
    obtain ⟨id, shared, ran, -, rfl⟩ := elaborated_of_generate (.ran _ _) generated
    rw [ran]
    rfl

/-- Once a bit has been declared, its number stands for the type of bits, and no word can be wrapped
out of it. -/
theorem GenerationState.declared_bit_tells_its_type :
    ∃ state frame, Leads .bare {} state ∧ state.frames = [frame] ∧ state.values = [⟨0, 0⟩] ∧
      (∀ later, Leads .bare state later → later.shared.types.get? 0 = some .bit) ∧
      ((frame.builder state.shared).ask ((Call.wrap (.bits 8) ⟨0, 0⟩ ⟨0, 0⟩).run .bare
          (Elaboration.elaborate .bare 0 []))).map (fun _ => ()) =
        .error (.typeMismatch "Top" "wrapped value" (Ty.bits 8).text Ty.bit.text) := by
  have declared : (Elaboration.declarePorts "Top" []).run.run {} = (.ok [], {}) := rfl
  have begun : Leads .bare {} ⟨(Elaboration.begun {} { name := "Top" } []).builder.shared,
      [(Elaboration.begun {} { name := "Top" } []).builder.frame []], []⟩ :=
    .single (.begin declared)
  have affords (frame : ModuleFrame) (shared : Elaboration) :
      (frame.builder shared).Affords frame.unused [] :=
    Builder.affords_of_count (fun _ member => absurd member List.not_mem_nil) _
  have given (values : List Value) : ∀ value, .value value ∈ (Call.bool true).given →
      value ∈ values := fun _ member => absurd member List.not_mem_nil
  have fresh (error : BuildError) : none = some error → ¬ error.Stale := nofun
  have reached := begun.tail (.call fresh (affords _ _) (given _)
    (Prod.eta (((Call.bool true).run .bare (Elaboration.revisit none)).run.run _)).symm)
  have told := numbers_tell_types reached
  refine ⟨_, _, reached, rfl, by decide +kernel, fun later leads => ?_, ?_⟩
  · exact told.2.1 later leads 0 .bit (by decide +kernel)
  · rw [told.2.2.2.1 _ List.mem_cons_self _ 0 [] (affords _ _) fun value member => ?_]
    · decide +kernel
    · obtain rfl : value = ⟨0, 0⟩ := by simpa [Call.given] using member
      decide +kernel

end Elastic
