import Elastic.Proofs.Build.Calls
import Elastic.Proofs.Build.Provision

namespace Elastic

/-! One call leads to a sound builder and gives new handles only, so a recipe keeps the assembly in
order. -/

namespace Builder

variable {before after : Builder}

theorem issued_nil (before after : Builder) : before.Issued after [] :=
  ⟨.nil, nofun, nofun, nofun⟩

theorem Issued.perm {tokens tokens' : List Token} (issued : before.Issued after tokens)
    (perm : tokens.Perm tokens') : before.Issued after tokens' :=
  ⟨perm.nodup_iff.1 issued.distinct, fun token member => issued.scope token (perm.mem_iff.2 member),
    fun token member => issued.new token (perm.mem_iff.2 member),
    fun token member => issued.known token (perm.mem_iff.2 member)⟩

end Builder

namespace Call

variable {own : Prop} {setting : Setting} {elaborate : String → Elaborating ModuleId}
  {builder : Builder}

def Reads (held : List Holding) (builder : Builder) : Prop :=
  ∀ value, .value value ∈ held → value.expr < builder.module.exprs.size

/-- The handles among holdings are known to the builder that they belong to, and none is there
twice. -/
structure Owns (held : List Holding) (builder : Builder) : Prop where
  known : ∀ token ∈ Holding.allTokens held, token.scope = builder.scope → builder.module.Knows token
  once : ∀ token : Token, token.scope = builder.scope → (Holding.allTokens held).count token ≤ 1

theorem Owns.channels {channels : List (String × ChannelHandle)}
    (owns : Owns (channels.map fun entry => .channel entry.2) builder) :
    (∀ channel ∈ channels.map (·.2), channel.scope = builder.scope →
      builder.module.Knows (.channel channel)) ∧
    ∀ channel : ChannelHandle, channel.scope = builder.scope →
      (channels.map (·.2)).count channel ≤ 1 := by
  have tokens : Holding.allTokens (channels.map fun entry => .channel entry.2) =
      (channels.map (·.2)).map .channel := by
    rw [Holding.allTokens_channels, List.map_map]
    rfl
  obtain ⟨known, once⟩ := owns
  rw [tokens] at known once
  refine ⟨fun channel member => known _ (List.mem_map_of_mem member), fun channel scope => ?_⟩
  exact Nat.le_trans List.count_le_count_map (once (.channel channel) scope)

theorem Owns.rest {first : Holding} {rest : List Holding} (owns : Owns (first :: rest) builder) :
    Owns rest builder := by
  refine ⟨fun token member => owns.known token ?_, fun token scope => ?_⟩
  · rw [Holding.allTokens_cons]
    exact List.mem_append_right _ member
  · have once := owns.once token scope
    rw [Holding.allTokens_cons, List.count_append] at once
    omega

theorem Owns.bundle {handle : BundleHandle} {rest : List Holding}
    (owns : Owns (.bundle handle :: rest) builder) (scope : handle.scope = builder.scope) :
    builder.module.Knows (.bundle handle) :=
  owns.known (.bundle handle) (by simp [Holding.tokens]) scope

def Gives (before : Builder) (results : List Holding) (after : Builder) : Prop :=
  before.Issued after (Holding.allTokens results) ∧ Reads results after

theorem gives_values {before after : Builder} (values : List Value)
    (reads : ∀ value ∈ values, value.expr < after.module.exprs.size) :
    Gives before (values.map .value) after := by
  refine ⟨?_, fun value member => ?_⟩
  · rw [Holding.allTokens_values]
    exact Builder.issued_nil _ _
  · obtain ⟨other, inside, equal⟩ := List.mem_map.1 member
    cases equal
    exact reads _ inside

theorem gives_handles {before after : Builder} {results : List Holding}
    (issued : before.Issued after (Holding.allTokens results))
    (handles : ∀ value, .value value ∉ results) : Gives before results after :=
  ⟨issued, fun value member => absurd member (handles value)⟩

theorem endsSound_results {services : List Service} {operation : Construction α}
    {results : α → List Holding} {fact : α → Builder → Prop}
    {good : List Holding → Builder → Prop}
    (endsSound : EndsSound own services operation builder fact)
    (gives : ∀ value after, fact value after → good (results value) after) :
    EndsSound own services (operation >>= fun value => pure (results value)) builder good :=
  Ends.bind endsSound (fun value after ends => Ends.pure_iff.2 ⟨ends.1, gives value after ends.2⟩)
    fun _ _ leads => leads

theorem endsSound_valued {services : List Service} {operation : Construction Value}
    (endsSound : EndsSound own services operation builder fun value after =>
      value.expr < after.module.exprs.size) :
    EndsSound own services (operation >>= fun value => pure [.value value]) builder
      (Gives builder) :=
  endsSound_results endsSound fun value after bound =>
    gives_values [value] fun other member => by
      rw [List.mem_singleton.1 member]
      exact bound

theorem endsSound (elaborates : Construction.Elaborates own setting elaborate)
    (sound : builder.Sound own setting.library.services) (call : Call)
    (reads : own → Reads call.given builder) (owns : Owns call.given builder) :
    EndsSound own setting.library.services (call.run setting elaborate) builder
      (Gives builder) := by
  open Construction in
  cases call with
  | port name => exact endsSound_valued (endsSound_port sound name)
  | constant ty value => exact endsSound_valued (endsSound_constant sound ty value)
  | bool value => exact endsSound_valued (endsSound_bool sound value)
  | struct ty fields =>
      exact endsSound_valued (endsSound_struct sound ty fields fun values entry member =>
        reads values entry.2 (List.mem_map.2 ⟨entry, member, rfl⟩))
  | field base name =>
      exact endsSound_valued (endsSound_field sound base name fun values =>
        reads values base List.mem_cons_self)
  | and first second =>
      exact endsSound_valued (endsSound_and sound first second fun values =>
        ⟨reads values first (by simp [given]), reads values second (by simp [given])⟩)
  | or first second =>
      exact endsSound_valued (endsSound_or sound first second fun values =>
        ⟨reads values first (by simp [given]), reads values second (by simp [given])⟩)
  | not operand =>
      exact endsSound_valued (endsSound_not sound operand fun values =>
        reads values operand List.mem_cons_self)
  | wrap payload data valid =>
      refine endsSound_results (endsSound_wrap sound payload data valid fun values =>
        ⟨reads values data (by simp [given]), reads values valid (by simp [given])⟩) ?_
      intro result after facts
      refine ⟨facts.1, fun value member => ?_⟩
      obtain rfl : value = result.2 := by simpa using member
      exact facts.2
  | unwrap channel ready =>
      refine endsSound_results (endsSound_unwrap sound channel ready fun values =>
        reads values ready (by simp [given])) ?_
      intro result after facts
      apply gives_values [result.1, result.2]
      intro value member
      rcases List.mem_cons.1 member with rfl | last
      · exact facts.1
      · rw [List.mem_singleton.1 last]
        exact facts.2
  | pack ty channels =>
      refine endsSound_results (endsSound_pack sound ty channels owns.channels.1 owns.channels.2) ?_
      intro result after issued
      refine gives_handles (issued.perm ?_) (by simp)
      rw [Holding.allTokens_cons, Holding.allTokens_cons, Holding.allTokens_nil, List.append_nil]
      exact List.perm_append_comm
  | unpack handle channels =>
      refine endsSound_results (endsSound_unpack sound handle channels owns.bundle
        owns.rest.channels.1 owns.rest.channels.2) ?_
      intro back after issued
      exact gives_handles (by simpa [Holding.allTokens] using issued) (by simp)
  | call service operation handle appId =>
      exact endsSound_results (endsSound_call sound service operation handle appId owns.bundle)
        fun _ after _ => gives_values [] fun _ member => absurd member List.not_mem_nil
  | request service operation appId =>
      exact endsSound_results (endsSound_request sound service operation appId)
        fun _ after issued => gives_handles issued (by simp)
  | builtin service appId tag results inputs =>
      exact endsSound_results (endsSound_builtin sound service appId tag results inputs
        fun values input member => reads values input (List.mem_map_of_mem member))
        fun _ after fits => gives_values _ fits
  | instantiate child appId connections =>
      exact endsSound_results (endsSound_instantiate elaborates sound child appId connections
        fun values entry member => reads values entry.2 (List.mem_map.2 ⟨entry, member, rfl⟩))
        fun _ after _ => gives_values [] fun _ member => absurd member List.not_mem_nil

end Call

abbrev Keeps (own : Prop) (services : List Service) (start : Elaboration) (action : Assembling α)
    (assembly : Assembly) (fact : α → Assembly → Prop) : Prop :=
  Ends action assembly fact fun _ after => after.Kept own services start []

namespace Assembling

variable {own : Prop} {services : List Service} {start : Elaboration} {hand : List Token}
  {assembly : Assembly}

theorem keeps_note (kept : assembly.Kept own services start hand) (noted : Note) :
    Keeps own services start (note noted) assembly fun _ after =>
      after.Kept own services start hand := by
  have retabled : assembly.builder.Retabled { assembly.builder with shared :=
      { assembly.builder.shared with notes := assembly.builder.shared.notes ++ [noted] } } :=
    ⟨rfl, rfl, .refl _, rfl, rfl, rfl, rfl, .refl _, fun _ member => member⟩
  exact Ends.modify_iff.2 (kept.lead (kept.sound.leads retabled) (Builder.issued_nil _ _))

end Assembling

variable {own : Prop} {setting : Setting} {start : Elaboration} {assembly : Assembly}
  {elaborate : String → Elaborating ModuleId}

theorem Assembly.Kept.owns {services : List Service} {given hand : List Holding}
    (kept : assembly.Kept own services start (Holding.allTokens (given ++ hand))) :
    Call.Owns given assembly.builder := by
  rw [Holding.allTokens_append] at kept
  constructor
  · intro token member scope
    refine kept.known token ?_ (scope.trans kept.scope)
    exact List.mem_append_left _ (List.mem_append_left _ (List.mem_append_left _ member))
  · intro token scope
    have once := kept.once token (scope.trans kept.scope)
    simp only [Assembly.tokens, List.count_append] at once
    omega

def Assembly.Handles (own : Prop) (services : List Service) (start : Elaboration)
    (hand : List Holding) (assembly : Assembly) : Prop :=
  assembly.Kept own services start (Holding.allTokens hand) ∧
    (own → Call.Reads hand assembly.builder)

theorem Assembly.Handles.readable {services : List Service} {hand : List Holding}
    (handles : assembly.Handles own services start hand) (owned : own) (value : Value)
    (held : .value value ∈ hand ++ assembly.holdings.map (·.2)) :
    value.expr < assembly.builder.module.exprs.size := by
  obtain ⟨kept, reads⟩ := handles
  rcases List.mem_append.1 held with inHand | stored
  · exact reads owned value inHand
  · obtain ⟨entry, inside, equal⟩ := List.mem_map.1 stored
    have fits := kept.values owned entry inside
    rw [equal] at fits
    exact fits

theorem stepInvariant_kept (elaborates : Construction.Elaborates own setting elaborate)
    (start : Elaboration) :
    StepInvariant own setting elaborate (Assembly.Handles own setting.library.services start)
      fun _ => True where
  move holdings lent handles fewer values _ := by
    have readable := handles.readable
    obtain ⟨kept, reads⟩ := handles
    refine ⟨kept.move holdings lent fewer fun owned entry member => ?_, fun owned value member =>
      readable owned value (values owned value (List.mem_append_left _ member))⟩
    cases held : entry.2 with
    | value value =>
        exact readable owned value (values owned value
          (List.mem_append_right _ (List.mem_map.2 ⟨entry, member, held⟩)))
    | channel handle => trivial
    | bundle handle => trivial
    | roles held => trivial
  note note handles := by
    obtain ⟨kept, reads⟩ := handles
    exact ⟨Ends.modify_iff.1 (Assembling.keeps_note kept note), reads⟩
  call call handles := by
    obtain ⟨kept, reads⟩ := handles
    have endsSound := call.endsSound elaborates kept.sound
      (fun owned value member => reads owned value (List.mem_append_left _ member)) kept.owns
    refine Ends.mono endsSound (fun results after ends => ?_) fun _ after leads => ?_
    · obtain ⟨leads, issued, readable⟩ := ends
      have lead := kept.lead leads issued
      refine ⟨lead.drop ?_, fun owned value member => ?_⟩
      · rw [Holding.allTokens_append, Holding.allTokens_append]
        exact (List.sublist_append_right _ _).append_left _
      · rcases List.mem_append.1 member with given | before
        · exact readable value given
        · exact Nat.lt_of_lt_of_le (reads owned value (List.mem_append_right _ before))
            leads.grows.exprs
    · exact ⟨⟨(kept.lead leads (Builder.issued_nil _ _)).drop (List.nil_sublist _), fun _ => nofun⟩,
        trivial⟩
  nothing _ := trivial
  role _ _ := trivial

namespace Recipe

theorem keeps (elaborates : Construction.Elaborates own setting elaborate) (recipe : Recipe)
    (assembly : Assembly) (kept : assembly.Kept own setting.library.services start [])
    (owned : own → recipe.borrows = false) :
    Keeps own setting.library.services start (recipe.run setting elaborate) assembly
      fun _ after => after.Kept own setting.library.services start [] :=
  ((stepInvariant_kept elaborates start).recipe recipe owned assembly ⟨kept, fun _ => nofun⟩).mono
    (fun _ _ ends => ends.1) fun _ _ ends => ends.1.1

end Recipe

end Elastic
