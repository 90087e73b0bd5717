import Elastic.Proofs.Build.Reviews
import Mathlib.Logic.Relation

namespace Elastic

/-! A generation as a sequence of interns and calls. Modules are put together one inside the other,
on tables that all of them share, and calls may fail after they have added to the tables. -/

variable {setting : Setting} {elaborate : String → Elaborating ModuleId}

namespace Call

variable {builder : Builder}

abbrev Yields (operation : Construction α) (builder : Builder) (good : α → Builder → Prop) : Prop :=
  Ends operation builder good fun _ _ => True

abbrev Known (value : Value) (builder : Builder) : Prop := value.ty < builder.shared.types.size

section

open Construction

variable {operation : Construction α} {next : α → Construction β} {fact : α → Builder → Prop}
  {good : β → Builder → Prop}

theorem yields_bind (retables : Retables operation builder fact)
    (rest : ∀ value after, builder.Retabled after → fact value after →
      Yields (next value) after good) :
    Yields (operation >>= next) builder good :=
  Ends.bind retables (fun value after ends => rest value after ends.1 ends.2) fun _ _ _ => trivial

theorem yields_throw {error : BuildError} : Yields (throw error : Construction β) builder good :=
  Ends.throw_iff.2 trivial

theorem yields_interned (ty : Ty) (expr : Expr) :
    Yields (internTy ty >>= fun id => addExpr expr id) builder Known :=
  yields_bind (retables_internTy ty builder) fun _ _ _ interned =>
    Ends.modifyGet_iff.2 (TyPool.lt_size_of_find? interned)

theorem yields_port {services : List Service} (sound : builder.Sound False services)
    (name : String) : Yields (Construction.port name) builder Known := by
  unfold Construction.port
  refine Ends.get_bind ?_
  split
  · exact yields_throw
  · rename_i index found
    obtain ⟨ident, -, position⟩ := Option.bind_eq_some_iff.1 found
    obtain ⟨bound, -, -⟩ := List.findIdx?_eq_some_iff_getElem.1 position
    have stands := List.getElem?_eq_getElem bound
    dsimp only
    rw [stands]
    exact Ends.modifyGet_iff.2 (sound.module.placed.ports _ (List.mem_of_getElem? stands))

theorem yields_constant (ty : Ty) (value : UInt64) :
    Yields (Construction.constant ty value) builder Known := by
  unfold Construction.constant
  split
  · refine Ends.ite (fun _ => moduleName_bind (Ends.throw_bind trivial)) fun _ => ?_
    exact yields_interned _ _
  · exact moduleName_bind yields_throw

theorem yields_struct (ty : Ty) (fields : List (String × Value)) :
    Yields (Construction.struct ty fields) builder Known := by
  unfold Construction.struct
  split
  · refine yields_bind (retables_fillSlots _ _ _ _) fun _ _ _ _ => ?_
    exact yields_bind (retables_collectSlots _ _ _ _) fun _ _ _ _ => yields_interned _ _
  · exact moduleName_bind yields_throw

theorem yields_field (base : Value) (name : String) :
    Yields (Construction.field base name) builder Known := by
  unfold Construction.field
  refine Ends.get_bind ?_
  dsimp only
  split
  · split
    · exact moduleName_bind yields_throw
    · exact yields_interned _ _
  · exact moduleName_bind yields_throw

theorem yields_gate (first second : Value) (what : String) (expr : Expr) :
    Yields (do
      let bit ← internTy .bit
      expectTy first bit what
      expectTy second bit what
      addExpr expr bit) builder Known := by
  refine yields_bind (retables_internTy _ _) fun bit _ _ interned => ?_
  refine yields_bind (retables_expectTy _ _ _ _) fun _ _ retabled _ => ?_
  refine yields_bind (retables_expectTy _ _ _ _) fun _ _ still _ => ?_
  have known := (retabled.trans still).types.find? interned
  exact Ends.modifyGet_iff.2 (TyPool.lt_size_of_find? known)

theorem yields_not (operand : Value) : Yields (Construction.not operand) builder Known := by
  refine yields_bind (retables_internTy _ _) fun bit _ _ interned => ?_
  refine yields_bind (retables_expectTy _ _ _ _) fun _ _ retabled _ => ?_
  have known := retabled.types.find? interned
  exact Ends.modifyGet_iff.2 (TyPool.lt_size_of_find? known)

theorem yields_wrap (payload : Ty) (value valid : Value) :
    Yields (Construction.wrap payload value valid) builder fun result => Known result.2 := by
  refine Ends.ite (fun _ => ?_) fun _ => ?_
  · exact Ends.bind_iff.2 (moduleName_bind (Ends.throw_iff.2 trivial))
  refine yields_bind (retables_internTy _ _) fun ty _ _ _ => ?_
  refine yields_bind (retables_expectTy _ _ _ _) fun _ _ _ _ => ?_
  refine yields_bind (retables_internTy _ _) fun bit _ _ interned => ?_
  refine yields_bind (retables_expectTy _ _ _ _) fun _ _ retabled _ => ?_
  have known := retabled.types.find? interned
  refine Ends.bind_iff.2 (Ends.modifyGet_iff.2 (Ends.bind_iff.2 (Ends.modifyGet_iff.2 ?_)))
  exact Ends.pure_iff.2 (TyPool.lt_size_of_find? known)

theorem yields_unwrap {services : List Service} (sound : builder.Sound False services)
    (channel : ChannelHandle) (ready : Value)
    (live : channel.scope = builder.scope → builder.Live (.channel channel)) :
    Yields (Construction.unwrap channel ready) builder fun result after =>
      Known result.1 after ∧ Known result.2 after := by
  refine yields_bind (retables_checkScope _ _ _) fun _ first one own => ?_
  refine yields_bind (retables_internTy _ _) fun bit second two interned => ?_
  refine yields_bind (retables_expectTy _ _ _ _) fun _ third three _ => ?_
  obtain ⟨held, known, payload, -⟩ := live own
  have placed : channel.payload < builder.shared.types.size := by
    rw [← payload]
    exact sound.module.placed.channels _ _ known
  have carried : channel.payload < third.shared.types.size :=
    Nat.lt_of_lt_of_le placed ((one.trans two).trans three).types.size_le
  have signal := TyPool.lt_size_of_find? (three.types.find? interned)
  refine Ends.bind_iff.2 (Ends.get_bind (Ends.ite (fun _ => Ends.modify_iff.2 ?_) fun _ =>
    Ends.throw_iff.2 trivial))
  refine Ends.bind_iff.2 (Ends.modifyGet_iff.2 (Ends.bind_iff.2 (Ends.modifyGet_iff.2 ?_)))
  exact Ends.pure_iff.2 ⟨carried, signal⟩

theorem yields_addResults (builtin : Nat) (tys : List TyId) (position : Nat) (builder : Builder)
    (known : ∀ ty ∈ tys, ty < builder.shared.types.size) :
    Yields (addResults builtin tys position) builder fun values after =>
      after.shared = builder.shared ∧ ∀ value ∈ values, Known value builder := by
  induction tys generalizing position builder with
  | nil => exact Ends.pure_iff.2 ⟨rfl, nofun⟩
  | cons ty rest induction =>
      refine Ends.bind_iff.2 (Ends.modifyGet_iff.2 ?_)
      have remain : ∀ other ∈ rest, other < builder.shared.types.size :=
        fun other member => known other (List.mem_cons_of_mem _ member)
      refine Ends.bind (induction _ _ remain)
        (fun values after ends => Ends.pure_iff.2 ⟨ends.1, ?_⟩) fun _ _ _ => trivial
      exact List.forall_mem_cons.2 ⟨known ty List.mem_cons_self, ends.2⟩

theorem yields_builtin (service : Service) (appId : AppId) (tag : String) (results : List Ty)
    (inputs : List Value) :
    Yields (Construction.builtin setting service appId tag results inputs) builder
      fun values after => ∀ value ∈ values, Known value after := by
  refine yields_bind (retables_serviceIndex _ _ _) fun _ _ _ _ => moduleName_bind ?_
  refine Ends.ite (fun _ => Ends.throw_bind trivial) fun _ => ?_
  refine Ends.ite (fun _ => Ends.throw_bind trivial) fun _ => ?_
  refine yields_bind (retables_reserve _ _) fun _ _ _ _ => Ends.get_bind ?_
  refine yields_bind (retables_internTys _ _) fun tys _ _ known => ?_
  refine yields_bind (retables_internName _ _) fun _ after retabled _ => ?_
  refine Ends.bind_iff.2 (Ends.modify_iff.2 ?_)
  refine (yields_addResults _ tys 0 _ fun ty member => ?_).mono (fun values after ends => ?_)
    fun _ _ _ => trivial
  · exact Nat.lt_of_lt_of_le (known ty member) retabled.types.size_le
  · unfold Known
    rw [ends.1]
    exact ends.2

end

theorem numbered_value {value : Value} {types : TyPool} :
    Numbered [.value value] types ↔ value.ty < types.size := by
  simp [Numbered]

theorem yields_value {operation : Construction Value} (yields : Yields operation builder Known) :
    Yields (operation >>= fun value => pure [.value value]) builder fun results after =>
      Numbered results after.shared.types :=
  Ends.bind yields (fun _ _ known => Ends.pure_iff.2 (numbered_value.2 known)) fun _ _ _ => trivial

theorem yields_handles (operation : Construction α) {results : α → List Holding}
    (handles : ∀ given value, .value value ∉ results given) :
    Yields (operation >>= fun given => pure (results given)) builder fun results after =>
      Numbered results after.shared.types :=
  Ends.bind (.any operation builder)
    (fun given _ _ => Ends.pure_iff.2 fun value member => absurd member (handles given value))
    fun _ _ _ => trivial

theorem numbered_run {services : List Service} (sound : builder.Sound False services) (call : Call)
    (spends : Spends call.given builder) :
    Ends (call.run setting elaborate) builder
      (fun results after => Numbered results after.shared.types) fun _ _ => True := by
  cases call with
  | port name => exact yields_value (yields_port sound name)
  | constant ty value => exact yields_value (yields_constant ty value)
  | bool value => exact yields_value (yields_interned _ _)
  | struct ty fields => exact yields_value (yields_struct ty fields)
  | field base name => exact yields_value (yields_field base name)
  | and first second => exact yields_value (yields_gate first second "and" _)
  | or first second => exact yields_value (yields_gate first second "or" _)
  | not operand => exact yields_value (yields_not operand)
  | wrap payload value valid =>
      refine Ends.bind (yields_wrap payload value valid) (fun result after known => ?_)
        fun _ _ _ => trivial
      exact Ends.pure_iff.2 fun other member => by
        obtain rfl : other = result.2 := by simpa using member
        exact known
  | unwrap channel ready =>
      refine Ends.bind (yields_unwrap sound channel ready spends.channel)
        (fun result after known => ?_) fun _ _ _ => trivial
      exact Ends.pure_iff.2 fun other member => by
        rcases List.mem_cons.1 member with same | last
        · cases same
          exact known.1
        · cases List.mem_singleton.1 last
          exact known.2
  | builtin service appId tag results inputs =>
      refine Ends.bind (yields_builtin service appId tag results inputs)
        (fun values after known => ?_) fun _ _ _ => trivial
      exact Ends.pure_iff.2 fun other member => by
        obtain ⟨value, inside, same⟩ := List.mem_map.1 member
        cases same
        exact known _ inside
  | pack | unpack | call | request | instantiate =>
      exact yields_handles _ fun _ _ member => by simp at member

end Call

def Holding.value? : Holding → Option Value
  | .value held => some held
  | _ => none

theorem Holding.mem_of_value? {held : List Holding} {value : Value}
    (member : value ∈ held.filterMap value?) : .value value ∈ held := by
  obtain ⟨holding, inside, same⟩ := List.mem_filterMap.1 member
  cases holding with
  | value given =>
      cases same
      exact inside
  | _ => cases same

def Call.gained : Except BuildError (List Holding) → List Value
  | .ok results => results.filterMap Holding.value?
  | .error _ => []

/-- A call for a module whose elaboration is over: it was refused, or the module is finished. -/
def Elaboration.revisit (refusal : Option BuildError) (name : String) : Elaborating ModuleId :=
  match refusal with
  | some error => throw error
  | none => do
    match (← get).finished? name with
    | some id => return id
    | none => throw (.unknownModule name)

/-- A module under construction, apart from what it shares with the others, and the handles that it
has not used yet. -/
structure ModuleFrame where
  name : String
  scope : Nat
  module : Module
  appIds : List AppId
  unused : List Token

def ModuleFrame.builder (frame : ModuleFrame) (shared : Elaboration) : Builder :=
  ⟨shared, frame.name, frame.scope, frame.module, frame.appIds⟩

def Builder.frame (builder : Builder) (unused : List Token) : ModuleFrame :=
  ⟨builder.name, builder.scope, builder.module, builder.appIds, unused⟩

/-- A generation on its way: what the modules share, the modules under construction from the
innermost out, and all values that calls have given. -/
structure GenerationState where
  shared : Elaboration := {}
  frames : List ModuleFrame := []
  values : List Value := []

namespace GenerationState

def withShared (state : GenerationState) (shared : Elaboration) : GenerationState :=
  { state with shared := shared }

def interned (state : GenerationState) (ty : Ty) : GenerationState :=
  state.withShared { state.shared with types := (state.shared.types.intern ty).2 }

/-- Types are interned, and modules are begun one inside the other. The innermost makes calls, with
values that any module was given and with handles of its own at most once. A child is elaborated
before the call for it. A module ends when it is finished, or when it is abandoned for an error, and
in between notes and what is lent may change. -/
inductive Step (setting : Setting) : GenerationState → GenerationState → Prop
  | intern (state : GenerationState) (ty : Ty) : Step setting state (state.interned ty)
  | refuse {state : GenerationState} {decl : ModuleDecl} {error : BuildError} {shared : Elaboration}
    (declared : (Elaboration.declarePorts decl.name decl.ports).run.run state.shared =
      (.error error, shared)) :
    Step setting state (state.withShared shared)
  | begin {state : GenerationState} {decl : ModuleDecl} {ports : List Port} {shared : Elaboration}
    (declared : (Elaboration.declarePorts decl.name decl.ports).run.run state.shared =
      (.ok ports, shared)) :
    Step setting state
      { state with
        shared := (shared.begun decl ports).builder.shared
        frames := (shared.begun decl ports).builder.frame [] :: state.frames }
  | call {shared : Elaboration} {frame : ModuleFrame} {frames : List ModuleFrame}
    {values : List Value} {rest : List Token} {call : Call} {refusal : Option BuildError}
    {outcome : Except BuildError (List Holding)} {after : Builder}
    (fresh : ∀ error, refusal = some error → ¬ error.Stale)
    (affords : (frame.builder shared).Affords frame.unused (Holding.allTokens call.given ++ rest))
    (given : ∀ value, .value value ∈ call.given → value ∈ values)
    (ran : (call.run setting (Elaboration.revisit refusal)).run.run (frame.builder shared) =
      (outcome, after)) :
    Step setting ⟨shared, frame :: frames, values⟩
      ⟨after.shared, after.frame (Call.issued outcome ++ rest) :: frames,
        Call.gained outcome ++ values⟩
  | finish {shared : Elaboration} {frame : ModuleFrame} {frames : List ModuleFrame}
    {values : List Value} : Step setting ⟨shared, frame :: frames, values⟩
      ⟨shared.finish frame.name frame.module, frames, values⟩
  | abandon {shared : Elaboration} {frame : ModuleFrame} {frames : List ModuleFrame}
    {values : List Value} : Step setting ⟨shared, frame :: frames, values⟩ ⟨shared, frames, values⟩
  | aside {state : GenerationState} (notes : List Note) (holdings : Holdings)
    (lent : ∀ token ∈ holdings.tokens, token.scope < state.shared.nextScope) :
    Step setting state (state.withShared { state.shared with notes := notes, holdings := holdings })

abbrev Leads (setting : Setting) : GenerationState → GenerationState → Prop :=
  Relation.ReflTransGen (Step setting)

/-- Finished modules are sound, every module under construction keeps its handles in order, and all
values are known. -/
structure Orderly (services : List Service) (state : GenerationState) : Prop where
  consistent : state.shared.Consistent services
  frames : ∀ frame ∈ state.frames, (frame.builder state.shared).Tracked services frame.unused
  values : ∀ value ∈ state.values, value.ty < state.shared.types.size

structure Grows (before after : GenerationState) : Prop where
  types : before.shared.types.Grows after.shared.types
  modules : before.shared.modules.size ≤ after.shared.modules.size

theorem Grows.refl (state : GenerationState) : state.Grows state := ⟨.refl _, Nat.le_refl _⟩

theorem Grows.trans {first second third : GenerationState} (one : first.Grows second)
    (other : second.Grows third) : first.Grows third :=
  ⟨one.types.trans other.types, Nat.le_trans one.modules other.modules⟩

end GenerationState

namespace Elaboration

variable {refusal : Option BuildError}

theorem elaborates_revisit (refusal : Option BuildError) :
    Construction.Elaborates False setting (revisit refusal) := by
  intro name shared sound
  unfold revisit
  split
  · exact Ends.throw_iff.2 ⟨sound, .refl _⟩
  refine Ends.get_bind ?_
  split
  · rename_i id found
    exact Ends.pure_iff.2 ⟨⟨sound, .refl _⟩, sound.finished _ (mem_of_finished? found)⟩
  · exact Ends.throw_iff.2 ⟨sound, .refl _⟩

theorem keepsConsistent_revisit (fresh : ∀ error, refusal = some error → ¬ error.Stale) :
    Construction.KeepsConsistent setting (revisit refusal) := by
  intro name shared consistent
  unfold revisit
  split
  · rename_i error
    exact Ends.throw_iff.2 ⟨consistent, fresh error rfl⟩
  refine Ends.get_bind ?_
  split
  · exact Ends.pure_iff.2 consistent
  · exact Ends.throw_iff.2 ⟨consistent, id⟩

end Elaboration

namespace Builder

variable {services : List Service} {builder : Builder} {unused : List Token} {shared : Elaboration}

theorem Live.share {token : Token} (live : builder.Live token)
    (types : builder.shared.types.Grows shared.types) :
    ({ builder with shared := shared } : Builder).Live token := by
  cases token with
  | channel handle => exact live
  | bundle handle =>
      obtain ⟨bundle, ty, held, named, unbound, typed⟩ := live
      exact ⟨bundle, ty, held, named, unbound, types.get? typed⟩

theorem Tracked.share (tracked : builder.Tracked services unused)
    (consistent : shared.Consistent services) (types : builder.shared.types.Grows shared.types)
    (modules : builder.shared.modules.size ≤ shared.modules.size) :
    ({ builder with shared := shared } : Builder).Tracked services unused :=
  ⟨⟨tracked.sound.module.grow types modules, consistent.sound⟩, consistent.distinct,
    fun token member own => (tracked.live token member own).share types, tracked.once⟩

end Builder

namespace GenerationState

variable {services : List Service} {state next : GenerationState} {shared : Elaboration}

theorem Orderly.share (orderly : state.Orderly services) (consistent : shared.Consistent services)
    (grows : state.Grows (state.withShared shared)) : (state.withShared shared).Orderly services :=
  ⟨consistent, fun frame member =>
    (orderly.frames frame member).share consistent grows.types grows.modules, fun value member =>
      Nat.lt_of_lt_of_le (orderly.values value member) grows.types.size_le⟩

theorem Orderly.begin (orderly : state.Orderly services) {decl : ModuleDecl} {ports : List Port}
    (declared : (Elaboration.declarePorts decl.name decl.ports).run.run state.shared =
      (.ok ports, shared)) :
    Orderly services
        { state with
          shared := (shared.begun decl ports).builder.shared
          frames := (shared.begun decl ports).builder.frame [] :: state.frames } ∧
      state.Grows { state with
        shared := (shared.begun decl ports).builder.shared
        frames := (shared.begun decl ports).builder.frame [] :: state.frames } := by
  have begun := Builder.Tracked.begun orderly.consistent declared
  have endsSound := Elaboration.endsSound_declarePorts decl.name decl.ports state.shared
    orderly.consistent.sound
  have grows : state.Grows (state.withShared (shared.begun decl ports).builder.shared) := by
    obtain ⟨⟨-, grows⟩, -⟩ := Ends.of_run_ok endsSound declared
    exact ⟨grows.types, grows.modules.size_le⟩
  have shares := orderly.share ⟨begun.sound.shared, begun.distinct⟩ grows
  exact ⟨⟨shares.consistent, List.forall_mem_cons.2 ⟨begun, shares.frames⟩, shares.values⟩,
    ⟨grows.types, grows.modules⟩⟩

theorem Orderly.advance {frame : ModuleFrame} {frames : List ModuleFrame}
    {values gained : List Value} {unused : List Token} {after : Builder}
    (orderly : Orderly services ⟨shared, frame :: frames, values⟩)
    (leads : (frame.builder shared).Leads False services after)
    (tracked : after.Tracked services unused)
    (known : ∀ value ∈ gained, value.ty < after.shared.types.size) :
    Orderly services ⟨after.shared, after.frame unused :: frames, gained ++ values⟩ ∧
      Grows ⟨shared, frame :: frames, values⟩
        ⟨after.shared, after.frame unused :: frames, gained ++ values⟩ := by
  have grows : Grows ⟨shared, frame :: frames, values⟩ ⟨after.shared, frame :: frames, values⟩ :=
    ⟨leads.grows.shared.types, leads.grows.shared.modules.size_le⟩
  have shares := orderly.share ⟨leads.sound.shared, tracked.distinct⟩ grows
  refine ⟨⟨shares.consistent, List.forall_mem_cons.2 ⟨tracked, fun other member =>
    shares.frames other (List.mem_cons_of_mem _ member)⟩, fun value member => ?_⟩,
    ⟨grows.types, grows.modules⟩⟩
  rcases List.mem_append.1 member with new | old
  · exact known value new
  · exact shares.values value old

theorem Orderly.call {frame : ModuleFrame} {frames : List ModuleFrame} {values : List Value}
    {rest : List Token} {call : Call} {refusal : Option BuildError}
    {outcome : Except BuildError (List Holding)} {after : Builder}
    (orderly : Orderly setting.library.services ⟨shared, frame :: frames, values⟩)
    (fresh : ∀ error, refusal = some error → ¬ error.Stale)
    (affords : (frame.builder shared).Affords frame.unused (Holding.allTokens call.given ++ rest))
    (ran : (call.run setting (Elaboration.revisit refusal)).run.run (frame.builder shared) =
      (outcome, after)) :
    Orderly setting.library.services ⟨after.shared,
        after.frame (Call.issued outcome ++ rest) :: frames, Call.gained outcome ++ values⟩ ∧
      Grows ⟨shared, frame :: frames, values⟩ ⟨after.shared,
        after.frame (Call.issued outcome ++ rest) :: frames, Call.gained outcome ++ values⟩ := by
  have tracked := orderly.frames frame List.mem_cons_self
  have spends := tracked.spends affords
  have ends := (call.spares (Elaboration.elaborates_revisit refusal)
    (Elaboration.keepsConsistent_revisit fresh) tracked.sound tracked.distinct spends).and
    (Call.numbered_run tracked.sound call spends)
  cases outcome with
  | ok results =>
      obtain ⟨⟨spares, issued, live⟩, numbered⟩ := ends.of_run_ok ran
      refine orderly.advance spares.leads (tracked.spared affords spares issued live) ?_
      intro value member
      exact numbered value (Holding.mem_of_value? member)
  | error error =>
      obtain ⟨⟨spares, -⟩, -⟩ := ends.of_run_error ran
      exact orderly.advance spares.leads
        (tracked.spared affords spares (Builder.issued_nil _ _) nofun) nofun

theorem Step.orderly (step : Step setting state next)
    (orderly : state.Orderly setting.library.services) :
    next.Orderly setting.library.services ∧ state.Grows next := by
  have shares {shared : Elaboration} (consistent : shared.Consistent setting.library.services)
      (grows : state.Grows (state.withShared shared)) :
      (state.withShared shared).Orderly setting.library.services ∧
        state.Grows (state.withShared shared) := ⟨orderly.share consistent grows, grows⟩
  cases step with
  | intern _ ty =>
      exact shares (orderly.consistent.internTy state.shared.names ty)
        ⟨TyPool.grows_intern _ _, Nat.le_refl _⟩
  | @refuse _ decl error shared declared =>
      obtain ⟨⟨consistent, -⟩, -, grows⟩ := Ends.of_run_error
        ((Elaboration.keepsConsistent_declarePorts decl.name decl.ports state.shared
          orderly.consistent).and
            (Elaboration.endsSound_declarePorts decl.name decl.ports state.shared
              orderly.consistent.sound)) declared
      exact shares consistent ⟨grows.types, grows.modules.size_le⟩
  | begin declared => exact orderly.begin declared
  | call fresh affords given ran => exact orderly.call fresh affords ran
  | @finish shared frame frames values =>
      have tracked := orderly.frames frame List.mem_cons_self
      obtain ⟨sound, grows⟩ := tracked.sound.shared.finish frame.name tracked.sound.module
      have grown : Grows ⟨shared, frame :: frames, values⟩
          ⟨shared.finish frame.name frame.module, frame :: frames, values⟩ :=
        ⟨grows.types, grows.modules.size_le⟩
      have finished := orderly.share ⟨sound, tracked.distinct⟩ grown
      have remain : ∀ other ∈ frames, _ := fun other member =>
        finished.frames other (List.mem_cons_of_mem _ member)
      exact ⟨⟨finished.consistent, remain, finished.values⟩, ⟨grown.types, grown.modules⟩⟩
  | abandon =>
      exact
        ⟨⟨orderly.consistent, fun other member =>
          orderly.frames other (List.mem_cons_of_mem _ member), orderly.values⟩,
            ⟨.refl _, Nat.le_refl _⟩⟩
  | aside notes holdings lent =>
      have sound := orderly.consistent.sound
      exact shares ⟨⟨sound.modules, sound.finished, lent⟩, orderly.consistent.distinct⟩
        ⟨.refl _, Nat.le_refl _⟩

theorem Leads.orderly {later : GenerationState} (leads : Leads setting state later)
    (orderly : state.Orderly setting.library.services) :
    later.Orderly setting.library.services ∧ state.Grows later := by
  induction leads with
  | refl => exact ⟨orderly, .refl state⟩
  | tail _ step induction =>
      obtain ⟨next, more⟩ := step.orderly induction.1
      exact ⟨next, induction.2.trans more⟩

theorem orderly_empty (services : List Service) : ({} : GenerationState).Orderly services :=
  ⟨Elaboration.consistent_empty services, nofun, nofun⟩

end GenerationState

end Elastic
