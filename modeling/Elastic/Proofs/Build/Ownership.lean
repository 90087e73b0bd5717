import Elastic.Proofs.Build.Provision

namespace Elastic

/-! Who holds the handles while a recipe runs. A handle stands at one place only, among the holdings
of a recipe, among what is lent, or in the hand of the step that is running. -/

def Holding.Fits (exprs : Nat) : Holding → Prop
  | .value held => held.expr < exprs
  | .channel _ | .bundle _ | .roles _ => True

theorem Holding.Fits.grow {held : Holding} {before after : Nat} (fits : held.Fits before)
    (grows : before ≤ after) : held.Fits after := by
  cases held with
  | value value => exact Nat.lt_of_lt_of_le fits grows
  | channel handle => trivial
  | bundle handle => trivial
  | roles held => trivial

namespace Holdings

theorem tokens_cons (label : Label) (held : Holding) (holdings : Holdings) :
    Holdings.tokens ((label, held) :: holdings) = held.tokens ++ holdings.tokens := by
  simp [Holdings.tokens]

theorem erase_cons (name label : Label) (held : Holding) (rest : Holdings) :
    Holdings.erase ((name, held) :: rest) label =
      if name = label then Holdings.erase rest label else
        (name, held) :: Holdings.erase rest label := by
  unfold Holdings.erase
  rw [List.filter_cons]
  by_cases same : name = label <;> simp [same]

theorem find?_cons (name label : Label) (held : Holding) (rest : Holdings) :
    Holdings.find? ((name, held) :: rest) label =
      if name = label then some held else Holdings.find? rest label := by
  unfold Holdings.find?
  rw [List.find?_cons]
  by_cases same : name = label <;> simp [same]

theorem count_erase_le (holdings : Holdings) (label : Label) (token : Token) :
    (holdings.erase label).tokens.count token ≤ holdings.tokens.count token := by
  induction holdings with
  | nil => exact Nat.le_refl _
  | cons entry rest induction =>
      obtain ⟨name, held⟩ := entry
      rw [erase_cons, tokens_cons, List.count_append]
      split
      · omega
      · rw [tokens_cons, List.count_append]
        omega

theorem count_erase_of_find? {holdings : Holdings} {label : Label} {held : Holding}
    (found : holdings.find? label = some held) (token : Token) :
    (holdings.erase label).tokens.count token + held.tokens.count token ≤
      holdings.tokens.count token := by
  induction holdings with
  | nil => cases found
  | cons entry rest induction =>
      obtain ⟨name, first⟩ := entry
      rw [find?_cons] at found
      rw [erase_cons, tokens_cons, List.count_append]
      split at found
      · rename_i same
        cases found
        rw [if_pos same]
        have erased := count_erase_le rest label token
        omega
      · rename_i apart
        rw [if_neg apart, tokens_cons, List.count_append]
        have inner := induction found
        omega

theorem count_put_le (holdings : Holdings) (label : Label) (held : Holding) (token : Token) :
    (holdings.put label held).tokens.count token ≤
      held.tokens.count token + holdings.tokens.count token := by
  unfold Holdings.put
  rw [tokens_cons, List.count_append]
  have erased := count_erase_le holdings label token
  omega

theorem held_of_find? {holdings : Holdings} {label : Label} {held : Holding}
    (found : holdings.find? label = some held) : held ∈ holdings.map (·.2) := by
  obtain ⟨entry, inside, rfl⟩ := Option.map_eq_some_iff.1 found
  exact List.mem_map_of_mem (List.mem_of_find?_eq_some inside)

theorem held_of_erase {holdings : Holdings} {label : Label} {held : Holding}
    (member : held ∈ (holdings.erase label).map (·.2)) : held ∈ holdings.map (·.2) := by
  obtain ⟨entry, inside, equal⟩ := List.mem_map.1 member
  exact List.mem_map.2 ⟨entry, (List.mem_filter.1 inside).1, equal⟩

theorem held_of_put {holdings : Holdings} {label : Label} {held other : Holding}
    (member : other ∈ (holdings.put label held).map (·.2)) :
    other = held ∨ other ∈ holdings.map (·.2) := by
  rcases List.mem_cons.1 member with same | before
  · exact .inl same
  · exact .inr (held_of_erase before)

end Holdings

namespace Assembly

variable {own : Prop} {services : List Service} {start : Elaboration} {hand : List Token}
  {assembly : Assembly}

def tokens (assembly : Assembly) (hand : List Token) : List Token :=
  hand ++ assembly.holdings.tokens ++ assembly.builder.shared.holdings.tokens

/-- The builder is sound, no handle is copied, and the handles of the module's own are in order. -/
structure Kept (own : Prop) (services : List Service) (start : Elaboration) (hand : List Token)
    (assembly : Assembly) : Prop where
  sound : assembly.builder.Sound own services
  scope : assembly.builder.scope = start.nextScope
  types : start.types.Grows assembly.builder.shared.types
  modules : start.modules.Grows assembly.builder.shared.modules
  later : start.nextScope < assembly.builder.shared.nextScope
  given : ∀ token ∈ assembly.tokens hand, token.scope < assembly.builder.shared.nextScope
  known : ∀ token ∈ assembly.tokens hand, token.scope = start.nextScope →
    assembly.builder.module.Knows token
  once : ∀ token : Token, token.scope = start.nextScope → (assembly.tokens hand).count token ≤ 1
  foreign : ∀ token : Token, token.scope < start.nextScope →
    (assembly.tokens hand).count token ≤ start.holdings.tokens.count token
  values : own → ∀ entry ∈ assembly.holdings, entry.2.Fits assembly.builder.module.exprs.size

def withHoldings (assembly : Assembly) (holdings lent : Holdings) : Assembly :=
  { builder := { assembly.builder with shared := { assembly.builder.shared with holdings := lent } }
    holdings := holdings }

theorem Kept.move (kept : assembly.Kept own services start hand) (holdings lent : Holdings)
    {hand' : List Token}
    (fewer : ∀ token, ((assembly.withHoldings holdings lent).tokens hand').count token ≤
      (assembly.tokens hand).count token)
    (values : own → ∀ entry ∈ holdings, entry.2.Fits assembly.builder.module.exprs.size) :
    (assembly.withHoldings holdings lent).Kept own services start hand' := by
  have within : ∀ token ∈ (assembly.withHoldings holdings lent).tokens hand',
      token ∈ assembly.tokens hand := fun token member =>
    List.count_pos_iff.1 (Nat.lt_of_lt_of_le (List.count_pos_iff.2 member) (fewer token))
  have shared := kept.sound.shared
  refine { kept with
    sound := ⟨kept.sound.module, shared.modules, shared.finished, ?_⟩
    given := fun token member => kept.given token (within token member)
    known := fun token member => kept.known token (within token member)
    once := fun token scope => Nat.le_trans (fewer token) (kept.once token scope)
    foreign := fun token scope => Nat.le_trans (fewer token) (kept.foreign token scope)
    values := values }
  intro token member
  exact kept.given token (within token (List.mem_append_right _ member))

theorem Kept.lead (kept : assembly.Kept own services start hand) {after : Builder}
    {issued : List Token} (leads : assembly.builder.Leads own services after)
    (fresh : assembly.builder.Issued after issued) :
    Kept own services start (issued ++ hand) { assembly with builder := after } := by
  have scope : after.scope = start.nextScope := leads.grows.scope.trans kept.scope
  have own_scope : ∀ token ∈ issued, token.scope = start.nextScope :=
    fun token member => (fresh.scope token member).trans kept.scope
  have custody : ∀ token : Token, token.scope < assembly.builder.shared.nextScope →
      (Assembly.tokens { assembly with builder := after } (issued ++ hand)).count token ≤
        issued.count token + (assembly.tokens hand).count token := by
    intro token earlier
    have lent := leads.grows.shared.custody token earlier
    simp only [tokens, List.count_append]
    omega
  have old : ∀ token ∈ Assembly.tokens { assembly with builder := after } (issued ++ hand),
      token ∉ issued → token.scope < assembly.builder.shared.nextScope →
      token ∈ assembly.tokens hand := by
    intro token member outside earlier
    have positive := List.count_pos_iff.2 member
    have bound := custody token earlier
    rw [List.count_eq_zero_of_not_mem outside] at bound
    exact List.count_pos_iff.1 (by omega)
  have later : start.nextScope < after.shared.nextScope :=
    Nat.lt_of_lt_of_le kept.later leads.grows.shared.scopes
  refine ⟨leads.sound, scope, kept.types.trans leads.grows.shared.types, ?_, later, ?_, ?_, ?_, ?_,
    ?_⟩
  · exact fun id item held => leads.grows.shared.modules id item (kept.modules id item held)
  · intro token member
    rcases List.mem_append.1 member with near | lent
    · rcases List.mem_append.1 near with inHand | stored
      · rcases List.mem_append.1 inHand with new | former
        · rw [own_scope token new]
          exact later
        · exact Nat.lt_of_lt_of_le (kept.given token
            (List.mem_append_left _ (List.mem_append_left _ former))) leads.grows.shared.scopes
      · exact Nat.lt_of_lt_of_le (kept.given token
          (List.mem_append_left _ (List.mem_append_right _ stored))) leads.grows.shared.scopes
    · exact leads.sound.shared.scopes token lent
  · intro token member scope
    by_cases new : token ∈ issued
    · exact fresh.known token new
    · exact leads.grows.knows (kept.known token
        (old token member new (scope ▸ kept.later)) scope)
  · intro token scope
    have bound := custody token (scope ▸ kept.later)
    by_cases new : token ∈ issued
    · have absent : token ∉ assembly.tokens hand := fun inside =>
        fresh.new token new (kept.known token inside scope)
      rw [List.count_eq_zero_of_not_mem absent] at bound
      exact Nat.le_trans bound (List.nodup_iff_count.1 fresh.distinct token)
    · rw [List.count_eq_zero_of_not_mem new, Nat.zero_add] at bound
      exact Nat.le_trans bound (kept.once token scope)
  · intro token scope
    have bound := custody token (Nat.lt_trans scope kept.later)
    have absent : token ∉ issued := fun new => Nat.ne_of_lt scope (own_scope token new)
    rw [List.count_eq_zero_of_not_mem absent, Nat.zero_add] at bound
    exact Nat.le_trans bound (kept.foreign token scope)
  · exact fun values entry member => (kept.values values entry member).grow leads.grows.exprs

theorem Kept.drop (kept : assembly.Kept own services start hand) {fewer : List Token}
    (sublist : fewer.Sublist hand) : assembly.Kept own services start fewer :=
  kept.move assembly.holdings assembly.builder.shared.holdings
    (fun token => by
      have less := sublist.count_le token
      simp only [tokens, withHoldings, List.count_append]
      omega) kept.values

end Assembly

end Elastic
