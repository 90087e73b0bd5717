import Elastic.Proofs.Build.Provision
import Elastic.Proofs.Build.Invariants
import Mathlib.Data.List.Forall2

namespace Elastic

/-! What it takes for supplied channels to match the roles of a flow, and where channels then stand
in the slots of a bundle. Among open channels nothing but a mismatch is ever refused. -/

def Plays (types : TyPool) (ty : BundleTy) (flow : Flow) (entry : String × ChannelHandle)
    (position : Nat) : Prop :=
  ∃ role, BundleTy.role? entry.1 ty = some (position, role) ∧ role.flow = flow ∧
    types.get? entry.2.payload = some role.payload

/-- Each channel answers a role of its own, and no role of the flow is left out by name. -/
structure Matched (types : TyPool) (ty : BundleTy) (flow : Flow)
    (channels : List (String × ChannelHandle)) (positions : List Nat) : Prop where
  distinct : positions.Nodup
  answers : List.Forall₂ (Plays types ty flow) channels positions
  named : ∀ role ∈ BundleTy.rolesIn ty flow, ∃ entry ∈ channels, entry.1 = role.name

theorem TyPool.Grows.get?_of_lt {before after : TyPool} (grows : before.Grows after) {id : TyId}
    (bound : id < before.size) : after.get? id = before.get? id := by
  obtain ⟨ty, known⟩ := exists_get?_of_lt_size bound
  rw [known, grows.get? known]

/-- A channel that, if it is the builder's own, is open and has a payload of the table. -/
structure Available (types : TyPool) (builder : Builder) (channel : ChannelHandle) : Prop where
  isOpen : channel.scope = builder.scope → builder.module.isOpen channel.id = true
  payload : channel.scope = builder.scope → channel.payload < types.size

theorem Available.retabled {types : TyPool} {before after : Builder} {channel : ChannelHandle}
    (ready : Available types before channel) (retabled : before.Retabled after) :
    Available types after channel := by
  refine ⟨fun own => ?_, fun own => ready.payload (own.trans retabled.scope)⟩
  rw [retabled.module]
  exact ready.isOpen (own.trans retabled.scope)

/-- A check that leaves the builder as it is, but for tables that grow. What it refuses is not
right, and it never refuses because of a handle. -/
def Checks (right : Prop) (operation : Construction α) (builder : Builder)
    (fact : α → Builder → Prop) : Prop :=
  Ends operation builder (fun value after => builder.Retabled after ∧ fact value after)
    fun error after => builder.Retabled after ∧ ¬ error.Stale ∧ ¬ right

section

variable {right : Prop} {builder : Builder} {α β : Type} {operation : Construction α}
  {next : α → Construction β}

theorem Checks.bind {middle : α → Builder → Prop} {fact : β → Builder → Prop}
    (first : Checks right operation builder middle)
    (rest : ∀ value after, builder.Retabled after → middle value after →
      Checks right (next value) after fact) :
    Checks right (operation >>= next) builder fact := by
  refine Ends.bind first (fun value after ends => ?_) fun _ _ badly => badly
  exact (rest value after ends.1 ends.2).mono
    (fun _ _ last => ⟨ends.1.trans last.1, last.2⟩) fun _ _ last => ⟨ends.1.trans last.1, last.2⟩

theorem checks_pure {fact : α → Builder → Prop} {value : α} (held : fact value builder) :
    Checks right (pure value) builder fact :=
  Ends.pure_iff.2 ⟨.refl _, held⟩

theorem checks_throw {fact : α → Builder → Prop} {error : BuildError} (fresh : ¬ error.Stale)
    (wrong : ¬ right) : Checks right (throw error : Construction α) builder fact :=
  Ends.throw_iff.2 ⟨.refl _, fresh, wrong⟩

theorem checks_throw_bind {fact : β → Builder → Prop} {error : BuildError} (fresh : ¬ error.Stale)
    (wrong : ¬ right) : Checks right ((throw error : Construction α) >>= next) builder fact :=
  Ends.throw_bind ⟨.refl _, fresh, wrong⟩

theorem Checks.mono {right' : Prop} {fact later : α → Builder → Prop}
    (checks : Checks right operation builder fact) (wrong : ¬ right → ¬ right')
    (weaker : ∀ value after, builder.Retabled after → fact value after → later value after) :
    Checks right' operation builder later :=
  Ends.mono checks (fun value after ends => ⟨ends.1, weaker value after ends.1 ends.2⟩)
    fun _ _ ends => ⟨ends.1, ends.2.1, wrong ends.2.2⟩

end

namespace Construction

variable {right : Prop} {start : TyPool} (ty : BundleTy) (flow : Flow)

theorem ends_internTy (ty : Ty) (builder : Builder) :
    Ends (internTy ty) builder
      (fun id after => builder.Retabled after ∧ after.shared.types.find? ty = some id)
      fun _ _ => False :=
  Ends.modifyGet_iff.2 (Ends.modifyGet_iff.1 (retables_internTy ty builder))

theorem checks_internTy (ty : Ty) (builder : Builder) :
    Checks right (internTy ty) builder fun id after => after.shared.types.find? ty = some id :=
  (ends_internTy ty builder).mono (fun _ _ ends => ends) fun _ _ never => never.elim

theorem checks_checkScope {scope : Nat} (what : String) {builder : Builder}
    (own : right → scope = builder.scope) :
    Checks right (checkScope scope what) builder fun _ _ => scope = builder.scope := by
  unfold checkScope
  refine Ends.get_bind (Ends.ite (fun foreign => ?_) fun same => ?_)
  · exact checks_throw id fun holds => foreign (own holds)
  · exact checks_pure (Classical.not_not.1 same)

theorem payload_eq_iff {types : TyPool} {payload : Ty} {expected given : TyId}
    (distinct : start.Distinct) (grows : start.Grows types)
    (interned : types.find? payload = some expected) (bound : given < start.size) :
    given = expected ↔ start.get? given = some payload := by
  constructor
  · intro same
    rw [← grows.get?_of_lt bound, same]
    exact TyPool.get?_of_find? interned
  · intro known
    have found := grows.find? (distinct.find?_eq_some known)
    rw [interned] at found
    exact (Option.some.inj found).symm

theorem checks_matchRole {builder : Builder} (distinct : start.Distinct)
    (grows : start.Grows builder.shared.types) (taken : List Nat) (name : String)
    {channel : ChannelHandle} (ready : Available start builder channel) :
    Checks (channel.scope = builder.scope ∧
        ∃ index, Plays start ty flow (name, channel) index ∧ index ∉ taken)
      (matchRole ty flow taken name channel) builder fun index _ =>
        channel.scope = builder.scope ∧ Plays start ty flow (name, channel) index ∧
          index ∉ taken := by
  unfold matchRole
  refine (checks_checkScope "channel" And.left).bind fun _ after retabled own => ?_
  refine Ends.bind_iff.2 (Ends.get_bind (Ends.pure_iff.2 ?_))
  have ready := ready.retabled retabled
  have owned : channel.scope = after.scope := own.trans retabled.scope.symm
  split
  · rename_i absent
    apply checks_throw id
    intro right
    obtain ⟨-, index, ⟨role, found, -⟩, -⟩ := right
    rw [absent] at found
    cases found
  rename_i index role found
  refine Ends.ite (fun apart => checks_throw_bind id ?_) fun flows => ?_
  · intro right
    obtain ⟨-, other, ⟨held, known, flows, -⟩, -⟩ := right
    rw [found] at known
    cases known
    exact apart flows
  refine Ends.ite (fun again => checks_throw_bind id ?_) fun fresh => ?_
  · intro right
    obtain ⟨-, other, ⟨held, known, -⟩, new⟩ := right
    rw [found] at known
    cases known
    exact new (by simpa using again)
  refine (checks_internTy role.payload after).bind fun expected later still interned => ?_
  have known := payload_eq_iff distinct (grows.trans (retabled.types.trans still.types)) interned
    (ready.payload owned)
  refine Ends.ite (fun other => ?_) fun same => ?_
  · refine Ends.bind_iff.2 (Ends.get_bind (Ends.pure_iff.2 ?_))
    refine Ends.bind_iff.2 (Ends.get_bind (Ends.pure_iff.2 ?_))
    refine checks_throw_bind id fun right => ?_
    obtain ⟨-, place, ⟨held, first, -, payload⟩, -⟩ := right
    rw [found] at first
    cases first
    exact other (known.2 payload)
  · have isOpen := (ready.retabled still).isOpen (owned.trans still.scope.symm)
    refine Ends.get_bind (Ends.ite (fun closed => ?_) fun _ => ?_)
    · rw [isOpen] at closed
      cases closed
    · refine checks_pure ⟨own, ⟨role, found, Classical.not_not.1 flows, ?_⟩, by simpa using fresh⟩
      exact known.1 (Classical.not_not.1 same)

theorem checks_matchEach (distinct : start.Distinct) (channels : List (String × ChannelHandle))
    (taken : List Nat) (builder : Builder) (grows : start.Grows builder.shared.types)
    (apart : taken.Nodup) (ready : ∀ entry ∈ channels, Available start builder entry.2) :
    Checks ((∀ entry ∈ channels, entry.2.scope = builder.scope) ∧
        ∃ more, List.Forall₂ (Plays start ty flow) channels more ∧ (taken ++ more).Nodup)
      (matchEach ty flow channels taken) builder fun positions _ =>
        (∀ entry ∈ channels, entry.2.scope = builder.scope) ∧
        ∃ more, positions = taken ++ more ∧
          List.Forall₂ (Plays start ty flow) channels more ∧ (taken ++ more).Nodup := by
  induction channels generalizing taken builder with
  | nil => exact checks_pure ⟨nofun, [], by simp, .nil, by simpa using apart⟩
  | cons entry rest induction =>
      obtain ⟨name, channel⟩ := entry
      have first := checks_matchRole ty flow distinct grows taken name
        (ready _ List.mem_cons_self)
      refine Checks.bind (first.mono (fun wrong right => ?_) fun _ _ _ found => found)
        fun index after retabled found => ?_
      · obtain ⟨own, more, answers, nodup⟩ := right
        cases answers with
        | cons head tail =>
            refine wrong ⟨own _ List.mem_cons_self, _, head, ?_⟩
            exact fun again => (List.nodup_append.1 nodup).2.2 _ again _ List.mem_cons_self rfl
      obtain ⟨own, answer, fresh⟩ := found
      have grown : start.Grows after.shared.types := grows.trans retabled.types
      have extended : (taken ++ [index]).Nodup := by
        rw [List.nodup_append]
        refine ⟨apart, by simp, fun position member other single same => fresh ?_⟩
        rw [← List.mem_singleton.1 single, ← same]
        exact member
      have rest := induction (taken ++ [index]) after grown extended fun entry member =>
        (ready entry (List.mem_cons_of_mem _ member)).retabled retabled
      refine rest.mono (fun wrong right => wrong ?_) fun positions last _ ends => ?_
      · obtain ⟨own, more, answers, nodup⟩ := right
        refine ⟨fun entry member => (own entry (List.mem_cons_of_mem _ member)).trans
          retabled.scope.symm, ?_⟩
        cases answers with
        | cons head tail =>
            obtain ⟨role, found, -⟩ := head
            obtain ⟨role', found', -⟩ := answer
            rw [found] at found'
            cases found'
            exact ⟨_, tail, by simpa using nodup⟩
      · obtain ⟨others, more, equal, answers, nodup⟩ := ends
        refine ⟨?_, index :: more, by simp [equal], .cons answer answers, by simpa using nodup⟩
        intro entry member
        rcases List.mem_cons.1 member with rfl | inside
        · exact own
        · exact (others entry inside).trans retabled.scope

theorem checks_matchRoles {builder : Builder} (distinct : start.Distinct)
    (grows : start.Grows builder.shared.types) {channels : List (String × ChannelHandle)}
    (ready : ∀ entry ∈ channels, Available start builder entry.2) :
    Checks ((∀ entry ∈ channels, entry.2.scope = builder.scope) ∧
        ∃ positions, Matched start ty flow channels positions)
      (matchRoles ty flow channels) builder fun positions _ =>
        (∀ entry ∈ channels, entry.2.scope = builder.scope) ∧
          Matched start ty flow channels positions := by
  have each := checks_matchEach ty flow distinct channels [] builder grows .nil ready
  refine Checks.bind (each.mono (fun wrong right => wrong ?_) fun _ _ _ ends => ends)
    fun positions after retabled ends => ?_
  · obtain ⟨own, positions, matched⟩ := right
    exact ⟨own, positions, matched.answers, matched.distinct⟩
  obtain ⟨own, more, rfl, answers, nodup⟩ := ends
  split
  · rename_i role missing
    refine Ends.bind_iff.2 (Ends.get_bind (Ends.pure_iff.2 (checks_throw id fun right => ?_)))
    obtain ⟨-, positions, matched⟩ := right
    obtain ⟨entry, member, same⟩ := matched.named role (List.mem_of_find?_eq_some missing)
    have absent := List.find?_some missing
    simp only [Bool.not_eq_true', List.any_eq_false, decide_eq_true_eq] at absent
    exact absent entry member same
  · rename_i complete
    refine checks_pure ⟨own, nodup, answers, fun role member => ?_⟩
    have given := List.find?_eq_none.1 complete role member
    simp only [Bool.not_eq_true', Bool.not_eq_false, List.any_eq_true, decide_eq_true_eq] at given
    exact given

end Construction

end Elastic
