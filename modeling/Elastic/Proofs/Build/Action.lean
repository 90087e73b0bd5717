import Elastic.Build.Elaborate

namespace Elastic

/-! Actions that end with a value or with an error, and in both cases in a state. -/

variable {ε σ α β : Type} {state : σ} {good : β → σ → Prop} {bad : ε → σ → Prop}

/-- An action started in a state ends well in `good` or fails in `bad`. -/
def Ends (action : ExceptT ε (StateM σ) α) (state : σ) (good : α → σ → Prop)
    (bad : ε → σ → Prop) : Prop :=
  match action.run.run state with
  | (.ok value, after) => good value after
  | (.error error, after) => bad error after

namespace Ends

theorem pure_iff {value : β} :
    Ends (pure value : ExceptT ε (StateM σ) β) state good bad ↔ good value state :=
  Iff.rfl

theorem throw_iff {error : ε} :
    Ends (throw error : ExceptT ε (StateM σ) β) state good bad ↔ bad error state :=
  Iff.rfl

theorem run_bind (action : ExceptT ε (StateM σ) α) (next : α → ExceptT ε (StateM σ) β) (state : σ) :
    (action >>= next).run.run state =
      match action.run.run state with
      | (.ok value, after) => (next value).run.run after
      | (.error error, after) => (.error error, after) := by
  simp only [ExceptT.run_bind, StateT.run_bind]
  rcases action.run.run state with ⟨outcome, after⟩
  cases outcome <;> rfl

theorem run_get_bind (next : σ → ExceptT ε (StateM σ) β) (state : σ) :
    (get >>= next).run.run state = (next state).run.run state := rfl

theorem run_modifyGet_bind (change : σ → α × σ) (next : α → ExceptT ε (StateM σ) β) (state : σ) :
    (modifyGet change >>= next).run.run state =
      (next (change state).1).run.run (change state).2 := rfl

theorem bind_iff {action : ExceptT ε (StateM σ) α} {next : α → ExceptT ε (StateM σ) β} :
    Ends (action >>= next) state good bad ↔
      Ends action state (fun value after => Ends (next value) after good bad) bad := by
  unfold Ends
  rw [run_bind]
  rcases action.run.run state with ⟨outcome, after⟩
  cases outcome <;> rfl

theorem set_iff {good : PUnit → σ → Prop} {after : σ} :
    Ends (set after : ExceptT ε (StateM σ) PUnit) state good bad ↔ good ⟨⟩ after :=
  Iff.rfl

theorem modify_iff {good : PUnit → σ → Prop} {change : σ → σ} :
    Ends (modify change : ExceptT ε (StateM σ) PUnit) state good bad ↔ good ⟨⟩ (change state) :=
  Iff.rfl

theorem modifyGet_iff {change : σ → β × σ} :
    Ends (modifyGet change : ExceptT ε (StateM σ) β) state good bad ↔
      good (change state).1 (change state).2 :=
  Iff.rfl

theorem ite_iff {condition : Prop} [Decidable condition] {first second : ExceptT ε (StateM σ) β} :
    Ends (if condition then first else second) state good bad ↔
      (condition → Ends first state good bad) ∧ (¬ condition → Ends second state good bad) := by
  by_cases holds : condition <;> simp [holds]

theorem get_bind {next : σ → ExceptT ε (StateM σ) β} (rest : Ends (next state) state good bad) :
    Ends (get >>= next) state good bad :=
  bind_iff.2 rest

theorem throw_bind {error : ε} {next : α → ExceptT ε (StateM σ) β} (badly : bad error state) :
    Ends (throw error >>= next) state good bad :=
  bind_iff.2 badly

theorem ite {condition : Prop} [Decidable condition] {first second : ExceptT ε (StateM σ) β}
    (yes : condition → Ends first state good bad) (no : ¬ condition → Ends second state good bad) :
    Ends (if condition then first else second) state good bad :=
  ite_iff.2 ⟨yes, no⟩

theorem discard_iff {action : ExceptT ε (StateM σ) α} {good : PUnit → σ → Prop} :
    Ends (discard action) state good bad ↔
      Ends action state (fun _ after => good ⟨⟩ after) bad := by
  have same : discard action = action >>= fun _ => pure ⟨⟩ := by
    simp only [Functor.discard, map_const, Function.comp_apply, map_eq_pure_bind, Function.const]
  rw [same]
  exact bind_iff

theorem discard {action : ExceptT ε (StateM σ) α} {good : σ → Prop}
    (ends : Ends action state (fun _ after => good after) bad) :
    Ends (discard action) state (fun _ after => good after) bad :=
  discard_iff.2 ends

theorem mono {action : ExceptT ε (StateM σ) β} {good' : β → σ → Prop} {bad' : ε → σ → Prop}
    (ends : Ends action state good bad) (well : ∀ value after, good value after → good' value after)
    (badly : ∀ error after, bad error after → bad' error after) :
    Ends action state good' bad' := by
  unfold Ends at ends ⊢
  split at ends
  · exact well _ _ ends
  · exact badly _ _ ends

theorem bind {action : ExceptT ε (StateM σ) α} {next : α → ExceptT ε (StateM σ) β}
    {middle : α → σ → Prop} {failed : ε → σ → Prop} (first : Ends action state middle failed)
    (rest : ∀ value after, middle value after → Ends (next value) after good bad)
    (badly : ∀ error after, failed error after → bad error after) :
    Ends (action >>= next) state good bad :=
  bind_iff.2 (first.mono rest badly)

theorem and {action : ExceptT ε (StateM σ) β} {good' : β → σ → Prop} {bad' : ε → σ → Prop}
    (one : Ends action state good bad) (other : Ends action state good' bad') :
    Ends action state (fun value after => good value after ∧ good' value after)
      fun error after => bad error after ∧ bad' error after := by
  unfold Ends at one other ⊢
  revert one other
  rcases action.run.run state with ⟨outcome, after⟩
  cases outcome <;> exact fun one other => ⟨one, other⟩

theorem all {index : Sort u} {action : ExceptT ε (StateM σ) β} {good : index → β → σ → Prop}
    {bad : index → ε → σ → Prop} (each : ∀ i, Ends action state (good i) (bad i)) :
    Ends action state (fun value after => ∀ i, good i value after)
      fun error after => ∀ i, bad i error after := by
  unfold Ends at each ⊢
  split <;> rename_i equal <;> simpa only [equal] using each

theorem cases_run {action : ExceptT ε (StateM σ) β} (ends : Ends action state good bad) :
    (∃ value after, action.run.run state = (.ok value, after) ∧ good value after) ∨
      ∃ error after, action.run.run state = (.error error, after) ∧ bad error after := by
  unfold Ends at ends
  revert ends
  rcases action.run.run state with ⟨outcome, after⟩
  cases outcome with
  | ok value => exact fun well => .inl ⟨value, after, rfl, well⟩
  | error error => exact fun badly => .inr ⟨error, after, rfl, badly⟩

theorem any (action : ExceptT ε (StateM σ) β) (state : σ) :
    Ends action state (fun _ _ => True) fun _ _ => True := by
  unfold Ends
  split <;> trivial

theorem of_run_ok {action : ExceptT ε (StateM σ) β} {value : β} {after : σ}
    (ends : Ends action state good bad) (ran : action.run.run state = (.ok value, after)) :
    good value after := by
  rcases ends.cases_run with ⟨_, _, ended, holds⟩ | ⟨_, _, ended, -⟩
  · cases ended.symm.trans ran
    exact holds
  · cases ended.symm.trans ran

theorem focus {τ : Type} {action : ExceptT ε (StateM σ) β} {work : ExceptT ε (StateM τ) β}
    {part : τ} (put : τ → σ)
    (ends : Ends work part (fun value after => good value (put after))
      fun error after => bad error (put after))
    (run : action.run.run state = ((work.run.run part).1, put (work.run.run part).2)) :
    Ends action state good bad := by
  unfold Ends at ends ⊢
  rw [run]
  revert ends
  rcases work.run.run part with ⟨outcome, after⟩
  cases outcome <;> exact id

theorem of_run_error {action : ExceptT ε (StateM σ) β} {error : ε} {after : σ}
    (ends : Ends action state good bad) (ran : action.run.run state = (.error error, after)) :
    bad error after := by
  rcases ends.cases_run with ⟨_, _, ended, -⟩ | ⟨_, _, ended, holds⟩
  · cases ended.symm.trans ran
  · cases ended.symm.trans ran
    exact holds

theorem run_eq {action : ExceptT ε (StateM σ) β} {result : Except ε β × σ}
    (ends : Ends action state (fun value after => (.ok value, after) = result)
      fun error after => (.error error, after) = result) : action.run.run state = result := by
  rcases ends.cases_run with ⟨value, after, ran, same⟩ | ⟨error, after, ran, same⟩
  · exact ran.trans same
  · exact ran.trans same

theorem lift_iff {action : ExceptT ε (StateM σ) α} {good : Except ε α → σ → Prop} :
    Ends (ExceptT.lift action.run : ExceptT ε (StateM σ) (Except ε α)) state good bad ↔
      Ends action state (fun value after => good (.ok value) after)
        (fun error after => good (.error error) after) := by
  have run : (ExceptT.lift action.run : ExceptT ε (StateM σ) (Except ε α)).run.run state =
      (.ok (action.run.run state).1, (action.run.run state).2) := rfl
  unfold Ends
  rw [run]
  rcases action.run.run state with ⟨outcome, after⟩
  cases outcome <;> exact Iff.rfl

end Ends

-- A goal about how an action ends is never to be settled by running the action.
attribute [irreducible] Ends

def Maintains (invariant : σ → Prop) (action : ExceptT ε (StateM σ) α) : Prop :=
  ∀ state, invariant state →
    Ends action state (fun _ after => invariant after) fun _ after => invariant after

namespace Maintains

variable {invariant : σ → Prop} {action : ExceptT ε (StateM σ) α}

theorem pure (value : α) : Maintains invariant (pure value : ExceptT ε (StateM σ) α) :=
  fun _ holds => Ends.pure_iff.2 holds

theorem throw (error : ε) : Maintains invariant (throw error : ExceptT ε (StateM σ) α) :=
  fun _ holds => Ends.throw_iff.2 holds

theorem bind {next : α → ExceptT ε (StateM σ) β} (first : Maintains invariant action)
    (rest : ∀ value, Maintains invariant (next value)) : Maintains invariant (action >>= next) :=
  fun state holds => Ends.bind (first state holds) (fun value after holds => rest value after holds)
    fun _ _ holds => holds

theorem throw_bind (error : ε) {next : α → ExceptT ε (StateM σ) β} :
    Maintains invariant (MonadExcept.throw error >>= next) :=
  fun _ holds => Ends.throw_bind holds

theorem get_bind {next : σ → ExceptT ε (StateM σ) β}
    (rest : ∀ held, Maintains invariant (next held)) : Maintains invariant (get >>= next) :=
  fun state holds => Ends.get_bind (rest state state holds)

theorem modify {change : σ → σ} (kept : ∀ state, invariant state → invariant (change state)) :
    Maintains invariant (modify change : ExceptT ε (StateM σ) PUnit) :=
  fun state holds => Ends.modify_iff.2 (kept state holds)

theorem modifyGet {change : σ → β × σ}
    (kept : ∀ state, invariant state → invariant (change state).2) :
    Maintains invariant (modifyGet change : ExceptT ε (StateM σ) β) :=
  fun state holds => Ends.modifyGet_iff.2 (kept state holds)

theorem ite {condition : Prop} [Decidable condition] {first second : ExceptT ε (StateM σ) β}
    (yes : Maintains invariant first) (no : Maintains invariant second) :
    Maintains invariant (if condition then first else second) :=
  fun state holds => Ends.ite (fun _ => yes state holds) fun _ => no state holds

theorem discard (maintains : Maintains invariant action) :
    Maintains invariant (discard action) :=
  fun state holds => Ends.discard_iff.2 (maintains state holds)

theorem lift (maintains : Maintains invariant action) :
    Maintains invariant (ExceptT.lift action.run : ExceptT ε (StateM σ) (Except ε α)) :=
  fun state holds => Ends.lift_iff.2 (maintains state holds)

theorem ends_bind {next : α → ExceptT ε (StateM σ) β} {middle : α → σ → Prop}
    {failed : ε → σ → Prop} (maintains : Maintains invariant action) (holds : invariant state)
    (first : Ends action state middle failed)
    (rest : ∀ value after, invariant after → middle value after → Ends (next value) after good bad)
    (badly : ∀ error after, failed error after → bad error after) :
    Ends (action >>= next) state good bad :=
  Ends.bind ((maintains state holds).and first)
    (fun value after both => rest value after both.1 both.2)
    fun error after both => badly error after both.2

theorem after (maintains : Maintains invariant action) {state : σ} (holds : invariant state) :
    invariant (action.run.run state).2 := by
  rcases (maintains state holds).cases_run with ⟨_, _, ran, kept⟩ | ⟨_, _, ran, kept⟩
  · exact ran ▸ kept
  · exact ran ▸ kept

end Maintains

end Elastic
