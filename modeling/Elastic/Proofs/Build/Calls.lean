import Elastic.Proofs.Build.Ownership
import Mathlib.Data.List.Flatten

namespace Elastic

/-! Recipes as sequences of calls. A step takes what it needs into its hand, makes at most one call,
and puts away what the call gives; what holdings in hand are followed through a step and through
every call is followed through a recipe. -/

def Step.borrows : Step → Bool
  | .borrow _ => true
  | _ => false

/-- Whether a recipe takes what another one has lent. -/
def Recipe.borrows : Recipe → Bool
  | .done => false
  | .step first rest => first.borrows || borrows rest
  | .ifHost yes no rest => borrows yes || borrows no || borrows rest
  | .attempt body rest => borrows body || borrows rest

/-- A call of a construction, with everything that it is given. -/
inductive Call
  | port (name : String)
  | constant (ty : Ty) (value : UInt64)
  | bool (value : Bool)
  | struct (ty : Ty) (fields : List (String × Value))
  | field (value : Value) (name : String)
  | and (first second : Value)
  | or (first second : Value)
  | not (operand : Value)
  | wrap (payload : Ty) (value valid : Value)
  | unwrap (channel : ChannelHandle) (ready : Value)
  | pack (ty : BundleTy) (channels : List (String × ChannelHandle))
  | unpack (bundle : BundleHandle) (channels : List (String × ChannelHandle))
  | call (service : Service) (operation : String) (bundle : BundleHandle) (appId : AppId)
  | request (service : Service) (operation : String) (appId : AppId)
  | builtin (service : Service) (appId : AppId) (tag : String) (results : List Ty)
      (inputs : List Value)
  | instantiate (child : String) (appId : AppId) (connections : List (String × Value))

namespace Call

def run (setting : Setting) (elaborate : String → Elaborating ModuleId) :
    Call → Construction (List Holding)
  | .port name => Construction.port name >>= fun value => pure [.value value]
  | .constant ty value => Construction.constant ty value >>= fun value => pure [.value value]
  | .bool value => Construction.bool value >>= fun value => pure [.value value]
  | .struct ty fields => Construction.struct ty fields >>= fun value => pure [.value value]
  | .field value name => Construction.field value name >>= fun value => pure [.value value]
  | .and first second => Construction.and first second >>= fun value => pure [.value value]
  | .or first second => Construction.or first second >>= fun value => pure [.value value]
  | .not operand => Construction.not operand >>= fun value => pure [.value value]
  | .wrap payload value valid =>
    Construction.wrap payload value valid >>= fun result =>
      pure [.channel result.1, .value result.2]
  | .unwrap channel ready =>
    Construction.unwrap channel ready >>= fun result => pure [.value result.1, .value result.2]
  | .pack ty channels =>
    Construction.pack ty channels >>= fun result => pure [.bundle result.1, .roles result.2]
  | .unpack bundle channels =>
    Construction.unpack bundle channels >>= fun returned => pure [.roles returned]
  | .call service operation bundle appId =>
    Construction.call setting service operation bundle appId >>= fun _ => pure []
  | .request service operation appId =>
    Construction.request setting service operation appId >>= fun bundle => pure [.bundle bundle]
  | .builtin service appId tag results inputs =>
    Construction.builtin setting service appId tag results inputs >>= fun values =>
      pure (values.map .value)
  | .instantiate child appId connections =>
    Construction.instantiate elaborate child appId connections >>= fun _ => pure []

/-- The values and handles that a call is given. The handles are used up by it. -/
def given : Call → List Holding
  | .struct _ fields => fields.map fun field => .value field.2
  | .field value _ => [.value value]
  | .and first second | .or first second => [.value first, .value second]
  | .not operand => [.value operand]
  | .wrap _ value valid => [.value value, .value valid]
  | .unwrap channel ready => [.channel channel, .value ready]
  | .pack _ channels => channels.map fun entry => .channel entry.2
  | .unpack bundle channels => .bundle bundle :: channels.map fun entry => .channel entry.2
  | .call _ _ bundle _ => [.bundle bundle]
  | .builtin _ _ _ _ inputs => inputs.map .value
  | .instantiate _ _ connections => connections.map fun connection => .value connection.2
  | .port _ | .constant _ _ | .bool _ | .request _ _ _ => []

end Call

namespace Holding

def allTokens (held : List Holding) : List Token := held.flatMap tokens

@[simp] theorem allTokens_nil : allTokens [] = [] := rfl

@[simp] theorem allTokens_cons (first : Holding) (rest : List Holding) :
    allTokens (first :: rest) = first.tokens ++ allTokens rest := by
  simp [allTokens]

@[simp] theorem allTokens_append (first second : List Holding) :
    allTokens (first ++ second) = allTokens first ++ allTokens second := by
  simp [allTokens]

@[simp] theorem allTokens_values (values : List Value) : allTokens (values.map .value) = [] := by
  induction values with
  | nil => rfl
  | cons value rest induction => rw [List.map_cons, allTokens_cons, induction]; rfl

@[simp] theorem allTokens_channels (channels : List (String × ChannelHandle)) :
    allTokens (channels.map fun entry => .channel entry.2) =
      channels.map fun entry => .channel entry.2 := by
  induction channels with
  | nil => rfl
  | cons entry rest induction => rw [List.map_cons, allTokens_cons, induction]; rfl

end Holding

namespace Assembly

def reach (assembly : Assembly) (hand : List Holding) : List Token :=
  assembly.tokens (Holding.allTokens hand)

def noted (assembly : Assembly) (note : Note) : Assembly :=
  { assembly with builder := { assembly.builder with shared :=
    { assembly.builder.shared with notes := assembly.builder.shared.notes ++ [note] } } }

end Assembly

/-- A property of assemblies, and of what the running step has in hand, that holds on when holdings
are put elsewhere or dropped, and that every call keeps. A step fails with a `fault` only. -/
structure StepInvariant (own : Prop) (setting : Setting) (elaborate : String → Elaborating ModuleId)
    (keeps : List Holding → Assembly → Prop) (fault : BuildError → Prop) : Prop where
  move : ∀ {hand hand' : List Holding} {assembly : Assembly} (holdings lent : Holdings),
    keeps hand assembly →
    (∀ token, ((assembly.withHoldings holdings lent).reach hand').count token ≤
      (assembly.reach hand).count token) →
    (own → ∀ value, .value value ∈ hand' ++ holdings.map (·.2) →
      .value value ∈ hand ++ assembly.holdings.map (·.2)) →
    (∀ value, .value value ∈ hand' ++ holdings.map (·.2) ++ lent.map (·.2) →
      .value value ∈ hand ++ assembly.holdings.map (·.2) ++
        assembly.builder.shared.holdings.map (·.2)) →
    keeps hand' (assembly.withHoldings holdings lent)
  note : ∀ {hand : List Holding} {assembly : Assembly} (note : Note), keeps hand assembly →
    keeps hand (assembly.noted note)
  call : ∀ {hand : List Holding} {assembly : Assembly} (call : Call),
    keeps (call.given ++ hand) assembly →
    Ends (call.run setting elaborate) assembly.builder
      (fun results after => keeps (results ++ hand) { assembly with builder := after })
      fun error after => keeps [] { assembly with builder := after } ∧ fault error
  nothing : ∀ label, fault (.internal ("nothing to use under '" ++ label ++ "'"))
  role : ∀ module role, fault (.missingRole module role)

namespace StepInvariant

open Assembling

variable {own : Prop} {setting : Setting} {elaborate : String → Elaborating ModuleId}
  {keeps : List Holding → Assembly → Prop} {fault : BuildError → Prop} {hand : List Holding}
  {assembly : Assembly}

/-- An action that keeps what is in hand with what it gives, and puts it all away if it fails. -/
abbrev Does (keeps : List Holding → Assembly → Prop) (fault : BuildError → Prop)
    (action : Assembling α) (assembly : Assembly) (good : α → Assembly → Prop) : Prop :=
  Ends action assembly good fun error after => keeps [] after ∧ fault error

theorem Does.bind {action : Assembling α} {next : α → Assembling β} {good : β → Assembly → Prop}
    {middle : α → Assembly → Prop} (first : Does keeps fault action assembly middle)
    (rest : ∀ value after, middle value after → Does keeps fault (next value) after good) :
    Does keeps fault (action >>= next) assembly good :=
  Ends.bind first rest fun _ _ badly => badly

theorem rearrange (stepInvariant : StepInvariant own setting elaborate keeps fault)
    (holdings : Holdings) (kept : keeps hand assembly) {hand' : List Holding}
    (fewer : ∀ token,
      ((assembly.withHoldings holdings assembly.builder.shared.holdings).reach hand').count token ≤
        (assembly.reach hand).count token)
    (values : ∀ value, .value value ∈ hand' ++ holdings.map (·.2) →
      .value value ∈ hand ++ assembly.holdings.map (·.2)) :
    keeps hand' (assembly.withHoldings holdings assembly.builder.shared.holdings) := by
  refine stepInvariant.move holdings _ kept fewer (fun _ => values) fun value member => ?_
  rcases List.mem_append.1 member with near | lent
  · exact List.mem_append_left _ (values value near)
  · exact List.mem_append_right _ lent

theorem drop (stepInvariant : StepInvariant own setting elaborate keeps fault)
    (kept : keeps hand assembly) {fewer : List Holding} (sublist : fewer.Sublist hand) :
    keeps fewer assembly := by
  apply stepInvariant.rearrange assembly.holdings kept
  · intro token
    have less := (sublist.flatMap Holding.tokens).count_le token
    simp only [Assembly.reach, Assembly.tokens, Assembly.withHoldings, Holding.allTokens,
      List.count_append]
    omega
  · intro value member
    rcases List.mem_append.1 member with inHand | stored
    · exact List.mem_append_left _ (sublist.subset inHand)
    · exact List.mem_append_right _ stored

theorem perm (stepInvariant : StepInvariant own setting elaborate keeps fault)
    (kept : keeps hand assembly) {hand' : List Holding} (perm : hand'.Perm hand) :
    keeps hand' assembly := by
  apply stepInvariant.rearrange assembly.holdings kept
  · intro token
    have same := (perm.flatMap_right Holding.tokens).count_eq token
    simp only [Assembly.reach, Assembly.tokens, Assembly.withHoldings, Holding.allTokens,
      List.count_append]
    omega
  · intro value member
    rcases List.mem_append.1 member with inHand | stored
    · exact List.mem_append_left _ (perm.mem_iff.1 inHand)
    · exact List.mem_append_right _ stored

theorem missing (stepInvariant : StepInvariant own setting elaborate keeps fault)
    (kept : keeps hand assembly) (label : Label) {good : α → Assembly → Prop} :
    Does keeps fault (Assembling.missing label) assembly good :=
  Ends.throw_iff.2 ⟨stepInvariant.drop kept (List.nil_sublist _), stepInvariant.nothing label⟩

theorem value (stepInvariant : StepInvariant own setting elaborate keeps fault)
    (kept : keeps hand assembly) (label : Label) :
    Does keeps fault (Assembling.value label) assembly fun found after =>
      after = assembly ∧ keeps (.value found :: hand) assembly := by
  unfold Assembling.value
  apply Ends.get_bind
  split
  · rename_i found held
    apply Ends.pure_iff.2
    refine ⟨rfl, stepInvariant.rearrange assembly.holdings kept (fun token => ?_) ?_⟩
    · exact Nat.le_refl _
    · intro other member
      rcases List.mem_cons.1 member with read | before
      · exact List.mem_append_right _ (read ▸ Holdings.held_of_find? held)
      · exact before
  · exact stepInvariant.missing kept label

theorem value_bind (stepInvariant : StepInvariant own setting elaborate keeps fault)
    (kept : keeps hand assembly) (label : Label) {next : Value → Assembling α}
    {good : α → Assembly → Prop}
    (rest : ∀ found, keeps (.value found :: hand) assembly →
      Does keeps fault (next found) assembly good) :
    Does keeps fault (Assembling.value label >>= next) assembly good := by
  refine (stepInvariant.value kept label).bind fun found after ends => ?_
  obtain ⟨rfl, kept⟩ := ends
  exact rest found kept

theorem values (stepInvariant : StepInvariant own setting elaborate keeps fault)
    (kept : keeps hand assembly) (labels : List Label) :
    Does keeps fault (Assembling.values labels) assembly fun found after =>
      after = assembly ∧ keeps (found.map .value ++ hand) assembly := by
  induction labels generalizing hand with
  | nil => exact Ends.pure_iff.2 ⟨rfl, kept⟩
  | cons label rest induction =>
      refine stepInvariant.value_bind kept label fun first kept => ?_
      refine (induction kept).bind fun others after ends => ?_
      obtain ⟨rfl, kept⟩ := ends
      exact Ends.pure_iff.2 ⟨rfl, stepInvariant.perm kept List.perm_middle.symm⟩

theorem namedValues (stepInvariant : StepInvariant own setting elaborate keeps fault)
    (kept : keeps hand assembly) (labels : List (String × Label)) :
    Does keeps fault (Assembling.namedValues labels) assembly fun found after =>
      after = assembly ∧ keeps ((found.map fun entry => .value entry.2) ++ hand) assembly := by
  induction labels generalizing hand with
  | nil => exact Ends.pure_iff.2 ⟨rfl, kept⟩
  | cons label rest induction =>
      refine stepInvariant.value_bind kept label.2 fun first kept => ?_
      refine (induction kept).bind fun others after ends => ?_
      obtain ⟨rfl, kept⟩ := ends
      exact Ends.pure_iff.2 ⟨rfl, stepInvariant.perm kept List.perm_middle.symm⟩

theorem release (stepInvariant : StepInvariant own setting elaborate keeps fault)
    (kept : keeps hand assembly) {label : Label} {held : Holding}
    (found : assembly.holdings.find? label = some held) :
    keeps (held :: hand) { assembly with holdings := assembly.holdings.erase label } := by
  apply stepInvariant.rearrange (assembly.holdings.erase label) kept
  · intro token
    have erased := Holdings.count_erase_of_find? found token
    simp only [Assembly.reach, Assembly.tokens, Assembly.withHoldings, Holding.allTokens_cons,
      List.count_append]
    omega
  · intro value member
    rcases List.mem_append.1 member with inHand | stored
    · rcases List.mem_cons.1 inHand with same | before
      · exact List.mem_append_right _ (same ▸ Holdings.held_of_find? found)
      · exact List.mem_append_left _ before
    · exact List.mem_append_right _ (Holdings.held_of_erase stored)

theorem takeChannel (stepInvariant : StepInvariant own setting elaborate keeps fault)
    (kept : keeps hand assembly) (label : Label) :
    Does keeps fault (Assembling.takeChannel label) assembly fun handle after =>
      keeps (.channel handle :: hand) after := by
  unfold Assembling.takeChannel
  apply Ends.get_bind
  split
  · rename_i handle found
    exact Ends.bind_iff.2 (Ends.modify_iff.2 (Ends.pure_iff.2 (stepInvariant.release kept found)))
  · exact stepInvariant.missing kept label

theorem takeBundle (stepInvariant : StepInvariant own setting elaborate keeps fault)
    (kept : keeps hand assembly) (label : Label) :
    Does keeps fault (Assembling.takeBundle label) assembly fun handle after =>
      keeps (.bundle handle :: hand) after := by
  unfold Assembling.takeBundle
  apply Ends.get_bind
  split
  · rename_i handle found
    exact Ends.bind_iff.2 (Ends.modify_iff.2 (Ends.pure_iff.2 (stepInvariant.release kept found)))
  · exact stepInvariant.missing kept label

theorem takeChannels (stepInvariant : StepInvariant own setting elaborate keeps fault)
    (labels : List (String × Label)) (assembly : Assembly) (kept : keeps hand assembly) :
    Does keeps fault (Assembling.takeChannels labels) assembly fun channels after =>
      keeps ((channels.map fun entry => .channel entry.2) ++ hand) after := by
  induction labels generalizing assembly hand with
  | nil => exact Ends.pure_iff.2 kept
  | cons label rest induction =>
      refine (stepInvariant.takeChannel kept label.2).bind fun first middle kept => ?_
      refine (induction middle kept).bind fun others last kept => ?_
      exact Ends.pure_iff.2 (stepInvariant.perm kept List.perm_middle.symm)

theorem mem_hand_of_mem_put {held : Holding} {holdings : Holdings} {label : Label} {value : Value}
    (member : .value value ∈ hand ++ (holdings.put label held).map (·.2)) :
    .value value ∈ held :: (hand ++ holdings.map (·.2)) := by
  rw [← List.cons_append]
  rcases List.mem_append.1 member with inHand | stored
  · exact List.mem_append_left _ (List.mem_cons_of_mem _ inHand)
  · rcases Holdings.held_of_put stored with same | before
    · exact List.mem_append_left _ (same ▸ List.mem_cons_self)
    · exact List.mem_append_right _ before

theorem hold (stepInvariant : StepInvariant own setting elaborate keeps fault) (held : Holding)
    (kept : keeps (held :: hand) assembly) (label : Option Label) :
    Does keeps fault (Assembling.hold label held) assembly fun _ after => keeps hand after := by
  unfold Assembling.hold
  cases label with
  | none => exact Ends.pure_iff.2 (stepInvariant.drop kept (List.sublist_cons_self _ _))
  | some label =>
      apply Ends.modify_iff.2
      apply stepInvariant.rearrange (assembly.holdings.put label held) kept
      · intro token
        have put := assembly.holdings.count_put_le label held token
        simp only [Assembly.reach, Assembly.tokens, Assembly.withHoldings, Holding.allTokens_cons,
          List.count_append]
        omega
      · exact fun value member => mem_hand_of_mem_put member

theorem last (stepInvariant : StepInvariant own setting elaborate keeps fault) (held : Holding)
    (kept : keeps (held :: hand) assembly) (label : Option Label) :
    Does keeps fault (Assembling.hold label held) assembly fun _ after => keeps [] after :=
  (stepInvariant.hold held kept label).mono
    (fun _ _ kept => stepInvariant.drop kept (List.nil_sublist _)) fun _ _ badly => badly

theorem holdValues (stepInvariant : StepInvariant own setting elaborate keeps fault)
    (labels : List (Option Label)) (values : List Value) (assembly : Assembly)
    (kept : keeps (values.map .value ++ hand) assembly) :
    Does keeps fault (Assembling.holdValues labels values) assembly fun _ after =>
      keeps [] after := by
  have dropped {values : List Value} {assembly : Assembly}
      (kept : keeps (values.map .value ++ hand) assembly) : keeps [] assembly :=
    stepInvariant.drop kept (List.nil_sublist _)
  induction values generalizing labels assembly with
  | nil => cases labels <;> exact Ends.pure_iff.2 (dropped kept)
  | cons value rest induction =>
      cases labels with
      | nil => exact Ends.pure_iff.2 (dropped kept)
      | cons label labels =>
          refine (stepInvariant.hold (.value value) kept label).bind fun _ after kept => ?_
          exact induction labels after kept

theorem ends_onBuilder {operation : Construction α} {good : α → Assembly → Prop}
    {bad : BuildError → Assembly → Prop}
    (ends : Ends operation assembly.builder
      (fun value after => good value { assembly with builder := after })
      fun error after => bad error { assembly with builder := after }) :
    Ends (onBuilder operation) assembly good bad :=
  ends.focus (fun builder => { assembly with builder := builder }) rfl

theorem onBuilder (stepInvariant : StepInvariant own setting elaborate keeps fault) (call : Call)
    {operation : Construction α} {results : α → List Holding}
    (same : call.run setting elaborate = operation >>= fun value => pure (results value))
    (kept : keeps (call.given ++ hand) assembly) :
    Does keeps fault (Assembling.onBuilder operation) assembly fun value after =>
      keeps (results value ++ hand) after := by
  have ends := stepInvariant.call call kept
  rw [same] at ends
  apply ends_onBuilder
  refine (Ends.bind_iff.1 ends).mono (fun value after ends => ?_) fun _ _ badly => badly
  have held := Ends.pure_iff.1 ends
  exact held

theorem valued (stepInvariant : StepInvariant own setting elaborate keeps fault) (call : Call)
    {operation : Construction Value}
    (same : call.run setting elaborate = operation >>= fun value => pure [.value value])
    (kept : keeps (call.given ++ hand) assembly) (result : Option Label) :
    Does keeps fault (Assembling.onBuilder operation >>= fun value =>
      Assembling.hold result (.value value)) assembly fun _ after => keeps [] after :=
  (stepInvariant.onBuilder call same kept).bind fun value _ kept =>
    stepInvariant.last (.value value) kept result

theorem roles (stepInvariant : StepInvariant own setting elaborate keeps fault)
    (kept : keeps hand assembly) (label : Label) :
    Does keeps fault (Assembling.roles label) assembly fun held after =>
      after = assembly ∧ assembly.holdings.find? label = some (.roles held) := by
  unfold Assembling.roles
  apply Ends.get_bind
  split
  · rename_i held found
    exact Ends.pure_iff.2 ⟨rfl, found⟩
  · exact stepInvariant.missing kept label

theorem takeFirst?_perm {role : String} {channels rest : List (String × ChannelHandle)}
    {taken : ChannelHandle} (found : RoleChannels.takeFirst? role channels = some (taken, rest)) :
    (channels.map (·.2)).Perm (taken :: rest.map (·.2)) := by
  induction channels generalizing rest with
  | nil => cases found
  | cons entry others induction =>
      obtain ⟨name, channel⟩ := entry
      unfold RoleChannels.takeFirst? at found
      split at found
      · cases found
        exact .refl _
      · obtain ⟨⟨first, later⟩, inner, equal⟩ := Option.map_eq_some_iff.1 found
        cases equal
        exact ((induction inner).cons channel).trans (.swap _ _ _)

theorem pick (stepInvariant : StepInvariant own setting elaborate keeps fault)
    (kept : keeps hand assembly) {label : Label} {role : String} {held : RoleChannels}
    {picked : ChannelHandle × List (String × ChannelHandle)}
    (found : assembly.holdings.find? label = some (.roles held))
    (taken : RoleChannels.takeFirst? role held.channels = some picked) :
    keeps (.channel picked.1 :: hand) { assembly with
      holdings := assembly.holdings.put label (.roles { held with channels := picked.2 }) } := by
  apply stepInvariant.rearrange
    (assembly.holdings.put label (.roles { held with channels := picked.2 })) kept
  · intro token
    have erased := Holdings.count_erase_of_find? found token
    have split := ((takeFirst?_perm taken).map Token.channel).count_eq token
    have put : (assembly.holdings.put label (.roles { held with channels := picked.2 })).tokens =
        (Holding.roles { held with channels := picked.2 }).tokens ++
          (assembly.holdings.erase label).tokens := Holdings.tokens_cons _ _ _
    rw [List.map_cons, List.map_map, List.map_map, List.count_cons] at split
    simp only [Assembly.reach, Assembly.tokens, Assembly.withHoldings, Holding.allTokens_cons, put,
      List.count_append]
    simp only [Holding.tokens, List.count_cons, List.count_nil] at erased ⊢
    simp only [Function.comp_def] at split
    omega
  · intro value member
    have inside := mem_hand_of_mem_put
      ((List.mem_cons.1 member).resolve_left Holding.noConfusion)
    exact (List.mem_cons.1 inside).resolve_left Holding.noConfusion

theorem putNote (stepInvariant : StepInvariant own setting elaborate keeps fault)
    (kept : keeps hand assembly) (noted : Note) :
    Does keeps fault (Assembling.note noted) assembly fun _ after => keeps hand after :=
  Ends.modify_iff.2 (stepInvariant.note noted kept)

/-- A step begins and ends with nothing in hand. -/
theorem step (stepInvariant : StepInvariant own setting elaborate keeps fault) (step : Step)
    (owned : own → step.borrows = false) (kept : keeps [] assembly) :
    Does keeps fault (step.run setting elaborate) assembly fun _ after => keeps [] after := by
  cases step with
  | port name result => exact stepInvariant.valued (.port name) rfl kept result
  | constant ty value result => exact stepInvariant.valued (.constant ty value) rfl kept result
  | bool value result => exact stepInvariant.valued (.bool value) rfl kept result
  | struct ty fields result =>
      refine (stepInvariant.namedValues kept fields).bind fun fields _ ends => ?_
      obtain ⟨rfl, kept⟩ := ends
      exact stepInvariant.valued (.struct ty fields) rfl kept result
  | field base name result =>
      refine stepInvariant.value_bind kept base fun base kept => ?_
      exact stepInvariant.valued (.field base name) rfl kept result
  | and first second result =>
      refine stepInvariant.value_bind kept first fun first kept => ?_
      refine stepInvariant.value_bind kept second fun second kept => ?_
      exact stepInvariant.valued (.and first second) rfl
        (stepInvariant.perm kept (.swap _ _ _)) result
  | or first second result =>
      refine stepInvariant.value_bind kept first fun first kept => ?_
      refine stepInvariant.value_bind kept second fun second kept => ?_
      exact stepInvariant.valued (.or first second) rfl
        (stepInvariant.perm kept (.swap _ _ _)) result
  | not operand result =>
      refine stepInvariant.value_bind kept operand fun operand kept => ?_
      exact stepInvariant.valued (.not operand) rfl kept result
  | wrap payload data valid channel ready =>
      refine stepInvariant.value_bind kept data fun data kept => ?_
      refine stepInvariant.value_bind kept valid fun valid kept => ?_
      refine (stepInvariant.onBuilder (.wrap payload data valid) rfl
        (stepInvariant.perm kept (.swap _ _ _))).bind fun result _ kept => ?_
      refine (stepInvariant.hold (.channel result.1) kept channel).bind fun _ _ kept => ?_
      exact stepInvariant.last (.value result.2) kept ready
  | unwrap channel ready data valid =>
      refine (stepInvariant.takeChannel kept channel).bind fun channel _ kept => ?_
      refine stepInvariant.value_bind kept ready fun ready kept => ?_
      refine (stepInvariant.onBuilder (.unwrap channel ready) rfl
        (stepInvariant.perm kept (.swap _ _ _))).bind fun result _ kept => ?_
      refine (stepInvariant.hold (.value result.1) kept data).bind fun _ _ kept => ?_
      exact stepInvariant.last (.value result.2) kept valid
  | pack ty channels bundle returned =>
      refine (stepInvariant.takeChannels channels assembly kept).bind fun channels _ kept => ?_
      refine (stepInvariant.onBuilder (.pack ty channels) rfl kept).bind fun result _ kept => ?_
      refine (stepInvariant.hold (.bundle result.1) kept bundle).bind fun _ _ kept => ?_
      exact stepInvariant.last (.roles result.2) kept returned
  | unpack bundle channels returned =>
      refine (stepInvariant.takeBundle kept bundle).bind fun handle middle kept => ?_
      refine (stepInvariant.takeChannels channels middle kept).bind fun channels _ kept => ?_
      refine (stepInvariant.onBuilder (.unpack handle channels) rfl
        (stepInvariant.perm kept List.perm_middle.symm)).bind fun back _ kept => ?_
      exact stepInvariant.last (.roles back) kept returned
  | take returned role channel =>
      refine (stepInvariant.roles kept returned).bind fun held _ ends => ?_
      obtain ⟨rfl, found⟩ := ends
      unfold RoleChannels.take
      split
      · rename_i error refused
        refine Ends.throw_iff.2 ⟨kept, ?_⟩
        split at refused
        · cases refused
        · cases refused
          exact stepInvariant.role _ _
      · rename_i taken split
        cases picked : RoleChannels.takeFirst? role held.channels with
        | none =>
            rw [picked] at split
            cases split
        | some entry =>
            rw [picked] at split
            cases split
            refine Ends.bind_iff.2 (Ends.modify_iff.2 ?_)
            exact stepInvariant.last (.channel entry.1)
              (stepInvariant.pick kept found picked) channel
  | call service operation bundle appId =>
      refine (stepInvariant.takeBundle kept bundle).bind fun handle _ kept => ?_
      exact stepInvariant.onBuilder (.call service operation handle appId) rfl kept
  | request service operation appId bundle =>
      refine (stepInvariant.onBuilder (.request service operation appId) rfl kept).bind
        fun handle _ kept => ?_
      exact stepInvariant.last (.bundle handle) kept bundle
  | builtin service appId tag results inputs labels =>
      refine (stepInvariant.values kept inputs).bind fun inputs _ ends => ?_
      obtain ⟨rfl, kept⟩ := ends
      refine (stepInvariant.onBuilder (.builtin service appId tag results inputs) rfl kept).bind
        fun values after kept => ?_
      exact stepInvariant.holdValues labels values after kept
  | instantiate module appId connections =>
      refine (stepInvariant.namedValues kept connections).bind fun connections _ ends => ?_
      obtain ⟨rfl, kept⟩ := ends
      exact stepInvariant.onBuilder (.instantiate module appId connections) rfl kept
  | noteCapabilities => exact Ends.get_bind (stepInvariant.putNote kept _)
  | noteHolding label => exact Ends.get_bind (stepInvariant.putNote kept _)
  | lend label =>
      apply Ends.get_bind
      split
      · exact stepInvariant.missing kept label
      · rename_i held found
        refine Ends.bind_iff.2 (Ends.modify_iff.2 (Ends.modify_iff.2 ?_))
        apply stepInvariant.move (assembly.holdings.erase label)
          (assembly.builder.shared.holdings.put label held) kept
        · intro token
          have erased := Holdings.count_erase_of_find? found token
          have put := assembly.builder.shared.holdings.count_put_le label held token
          simp only [Assembly.reach, Assembly.tokens, Assembly.withHoldings, List.count_append]
          omega
        · exact fun _ value member => Holdings.held_of_erase member
        · intro value member
          rcases List.mem_append.1 member with stored | given
          · exact List.mem_append_left _ (Holdings.held_of_erase stored)
          · rcases Holdings.held_of_put given with same | before
            · exact List.mem_append_left _ (same ▸ Holdings.held_of_find? found)
            · exact List.mem_append_right _ before
  | borrow label =>
      apply Ends.get_bind
      split
      · exact stepInvariant.missing kept label
      · rename_i held found
        refine Ends.bind_iff.2 (Ends.modify_iff.2 (Ends.modify_iff.2 ?_))
        apply stepInvariant.move (assembly.holdings.put label held)
          (assembly.builder.shared.holdings.erase label) kept
        · intro token
          have erased := Holdings.count_erase_of_find? found token
          have put := assembly.holdings.count_put_le label held token
          simp only [Assembly.reach, Assembly.tokens, Assembly.withHoldings, List.count_append]
          omega
        · exact fun values => Bool.noConfusion (owned values)
        · intro value member
          rcases List.mem_append.1 member with stored | left
          · rcases Holdings.held_of_put stored with same | before
            · exact List.mem_append_right _ (same ▸ Holdings.held_of_find? found)
            · exact List.mem_append_left _ before
          · exact List.mem_append_right _ (Holdings.held_of_erase left)

theorem recipe (stepInvariant : StepInvariant own setting elaborate keeps fault) (recipe : Recipe)
    (owned : own → recipe.borrows = false) (assembly : Assembly) (kept : keeps [] assembly) :
    Does keeps fault (recipe.run setting elaborate) assembly fun _ after => keeps [] after := by
  induction recipe generalizing assembly with
  | done => exact Ends.pure_iff.2 kept
  | step first rest induction =>
      have both : own → first.borrows = false ∧ rest.borrows = false := fun values =>
        Bool.or_eq_false_iff.1 (owned values)
      refine (stepInvariant.step first (fun values => (both values).1) kept).bind
        fun _ after kept => ?_
      exact induction (fun values => (both values).2) after kept
  | ifHost yes no rest induction induction' last =>
      have all : own → (yes.borrows = false ∧ no.borrows = false) ∧ rest.borrows = false :=
        fun values => by simpa [Recipe.borrows, Bool.or_eq_false_iff] using owned values
      have goesOn (after : Assembly) (kept : keeps [] after) :=
        last (fun values => (all values).2) after kept
      apply Ends.ite
      · intro _
        exact (induction (fun values => (all values).1.1) assembly kept).bind
          fun _ after kept => goesOn after kept
      · intro _
        exact (induction' (fun values => (all values).1.2) assembly kept).bind
          fun _ after kept => goesOn after kept
  | attempt body rest induction last =>
      have both : own → body.borrows = false ∧ rest.borrows = false := fun values =>
        Bool.or_eq_false_iff.1 (owned values)
      have goesOn (noted : Note) (middle : Assembly) (kept : keeps [] middle) :
          Does keeps fault (Assembling.note noted >>= fun _ => rest.run setting elaborate) middle
            fun _ after => keeps [] after :=
        (stepInvariant.putNote kept noted).bind fun _ after kept =>
          last (fun values => (both values).2) after kept
      refine Ends.bind_iff.2 (Ends.lift_iff.2 ((induction (fun values => (both values).1) assembly
        kept).mono ?_ ?_))
      · exact fun _ middle kept => goesOn _ middle kept
      · exact fun _ middle badly => goesOn _ middle badly.1

end StepInvariant

end Elastic
