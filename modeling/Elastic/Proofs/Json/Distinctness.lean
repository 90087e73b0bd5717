import Elastic.Proofs.Json.Lexing

namespace Elastic.Json

open Text

/-! Different trees have different compact texts. The first character of a value tells its kind, a
number ends before the first character that no number has, a string at its closing quote, and a
structure at its closing bracket. -/

theorem numeric_append_inj {first second rest rest' : List Char}
    (numeric : first.all isNumeric = true) (numeric' : second.all isNumeric = true)
    (stops : Stops rest) (stops' : Stops rest') (same : first ++ rest = second ++ rest') :
    first = second ∧ rest = rest' := by
  have front := (span_numeric numeric stops).1
  rw [same, (span_numeric numeric' stops').1] at front
  subst front
  exact ⟨rfl, List.append_cancel_left same⟩

theorem toDigits_inj {first second : Nat} (same : Nat.toDigits 10 first = Nat.toDigits 10 second) :
    first = second := by
  rw [← decimalValue_toDigits first, same, decimalValue_toDigits]

theorem intChars_injective : Function.Injective intChars := by
  have signed {first second : Nat} :
      Nat.toDigits 10 first ≠ '-' :: Nat.toDigits 10 (second + 1) := by
    intro same
    have digit : isDigit '-' = true :=
      isDigit_of_mem_toDigits (same ▸ List.mem_cons_self : '-' ∈ Nat.toDigits 10 first)
    cases digit
  intro first second same
  cases first with
  | ofNat first =>
      cases second with
      | ofNat second => exact congrArg Int.ofNat (toDigits_inj same)
      | negSucc second => exact absurd same signed
  | negSucc first =>
      cases second with
      | ofNat second => exact absurd same.symm signed
      | negSucc second =>
          exact congrArg Int.negSucc (Nat.succ.inj (toDigits_inj (List.cons.inj same).2))

theorem intChars_ne_real {value : Int} {literal : RealLiteral} : intChars value ≠ literal.text := by
  intro same
  obtain ⟨c, member, point⟩ := List.any_eq_true.1 literal.marked
  rw [← same] at member
  rcases isDigit_of_mem_intChars member with digit | rfl
  · simp only [Bool.or_eq_true, decide_eq_true_eq] at point
    rcases point with (rfl | rfl) | rfl <;> cases digit
  · cases point

theorem quoted_append_inj {first second : String} {rest rest' : List Char}
    (same : quoted first ++ rest = quoted second ++ rest') : first = second ∧ rest = rest' := by
  simp only [quoted, List.cons_append, List.append_assoc, List.cons.injEq, true_and] at same
  have read := congrArg readString? same
  simp only [List.nil_append, readString?_quoted, Option.some.injEq, Prod.mk.injEq] at read
  exact ⟨String.toList_injective read.1, read.2⟩

def lead : Json → Char
  | .null => 'n'
  | .bool true => 't'
  | .bool false => 'f'
  | .int _ | .real _ => '0'
  | .str _ => '"'
  | .arr _ => '['
  | .obj _ => '{'

def leadOf (c : Char) : Char := if isNumeric c then '0' else c

theorem compactChars_cons (tree : Json) :
    ∃ c chars, tree.compactChars = c :: chars ∧ leadOf c = tree.lead := by
  have numbers {chars : List Char} (some : chars ≠ []) (numeric : chars.all isNumeric = true) :
      ∃ c rest, chars = c :: rest ∧ leadOf c = '0' := by
    obtain ⟨c, rest, rfl⟩ := List.exists_cons_of_ne_nil some
    exact ⟨c, rest, rfl, if_pos (List.all_eq_true.1 numeric c List.mem_cons_self)⟩
  cases tree with
  | null => exact ⟨_, _, rfl, rfl⟩
  | bool value => cases value <;> exact ⟨_, _, rfl, rfl⟩
  | str value => exact ⟨_, _, rfl, rfl⟩
  | arr items => cases items <;> exact ⟨_, _, rfl, rfl⟩
  | obj members => rcases members with _ | ⟨⟨name, value⟩, members⟩ <;> exact ⟨_, _, rfl, rfl⟩
  | int value =>
      refine numbers ?_ (all_isNumeric_intChars value)
      obtain ⟨c, chars, same, -⟩ := intChars_cons value
      rw [compactChars, same]
      exact List.cons_ne_nil _ _
  | real literal =>
      refine numbers ?_ literal.numeric
      obtain ⟨c, member, -⟩ := List.any_eq_true.1 literal.marked
      exact List.ne_nil_of_mem member

theorem lead_eq {first second : Json} {rest rest' : List Char}
    (same : first.compactChars ++ rest = second.compactChars ++ rest') :
    first.lead = second.lead := by
  obtain ⟨c, chars, text, lead⟩ := first.compactChars_cons
  obtain ⟨c', chars', text', lead'⟩ := second.compactChars_cons
  rw [text, text'] at same
  rw [← lead, ← lead', (List.cons.inj same).1]

theorem lead_ne_close (tree : Json) : tree.lead ≠ ']' := by
  cases tree with
  | bool value => cases value <;> exact nofun
  | _ => exact nofun

theorem close_ne_compactChars {tree : Json} {rest rest' : List Char} :
    ']' :: rest ≠ tree.compactChars ++ rest' := by
  intro same
  obtain ⟨c, chars, text, lead⟩ := tree.compactChars_cons
  rw [text] at same
  obtain rfl := (List.cons.inj same).1
  exact tree.lead_ne_close lead.symm

theorem arr_of_lead {tree : Json} (lead : tree.lead = '[') : ∃ items, tree = .arr items := by
  cases tree with
  | arr items => exact ⟨items, rfl⟩
  | bool value => cases value <;> cases lead
  | _ => cases lead

theorem obj_of_lead {tree : Json} (lead : tree.lead = '{') : ∃ members, tree = .obj members := by
  cases tree with
  | obj members => exact ⟨members, rfl⟩
  | bool value => cases value <;> cases lead
  | _ => cases lead

theorem scalar_append_inj {first second : Json} {rest rest' : List Char} (stops : Stops rest)
    (stops' : Stops rest') (scalar : first.lead ≠ '[' ∧ first.lead ≠ '{')
    (same : first.compactChars ++ rest = second.compactChars ++ rest') :
    first = second ∧ rest = rest' := by
  have lead := lead_eq same
  have integers := all_isNumeric_intChars
  cases first with
  | null =>
      cases second with
      | null => exact ⟨rfl, List.append_cancel_left same⟩
      | bool value => cases value <;> cases lead
      | _ => cases lead
  | bool value =>
      cases second with
      | bool value' =>
          cases value <;> cases value' <;> first
          | exact ⟨rfl, List.append_cancel_left same⟩
          | cases lead
      | _ => cases value <;> cases lead
  | str value =>
      cases second with
      | str value' =>
          obtain ⟨rfl, rest⟩ := quoted_append_inj same
          exact ⟨rfl, rest⟩
      | bool value' => cases value' <;> cases lead
      | _ => cases lead
  | int value =>
      cases second with
      | int value' =>
          obtain ⟨chars, rest⟩ :=
            numeric_append_inj (integers value) (integers value') stops stops' same
          exact ⟨congrArg Json.int (intChars_injective chars), rest⟩
      | real literal =>
          have chars := numeric_append_inj (integers value) literal.numeric stops stops' same
          exact absurd chars.1 intChars_ne_real
      | bool value' => cases value' <;> cases lead
      | _ => cases lead
  | real literal =>
      cases second with
      | real literal' =>
          obtain ⟨chars, rest⟩ :=
            numeric_append_inj literal.numeric literal'.numeric stops stops' same
          exact ⟨congrArg Json.real (RealLiteral.ext chars), rest⟩
      | int value =>
          have chars := numeric_append_inj literal.numeric (integers value) stops stops' same
          exact absurd chars.1.symm intChars_ne_real
      | bool value => cases value <;> cases lead
      | _ => cases lead
  | arr items => exact absurd rfl scalar.1
  | obj members => exact absurd rfl scalar.2

mutual
theorem compactChars_append_inj : (first second : Json) → ∀ {rest rest' : List Char},
    Stops rest → Stops rest' → first.compactChars ++ rest = second.compactChars ++ rest' →
      first = second ∧ rest = rest'
  | .null, _, _, _, stops, stops', same
  | .int _, _, _, _, stops, stops', same
  | .real _, _, _, _, stops, stops', same
  | .str _, _, _, _, stops, stops', same => scalar_append_inj stops stops' ⟨nofun, nofun⟩ same
  | .bool value, _, _, _, stops, stops', same =>
      scalar_append_inj stops stops' (by cases value <;> exact ⟨nofun, nofun⟩) same
  | .arr items, second, _, _, _, _, same => by
      obtain ⟨items', rfl⟩ := arr_of_lead (lead_eq same).symm
      have all {rest rest' : List Char}
          (same : compactItems items ++ rest = compactItems items' ++ rest') :
          Json.arr items = .arr items' ∧ rest = rest' := by
        obtain ⟨rfl, rest⟩ := compactItems_append_inj items items' same
        exact ⟨rfl, rest⟩
      cases items with
      | nil =>
          cases items' with
          | nil => exact ⟨rfl, List.append_cancel_left same⟩
          | cons item' items' =>
              simp only [compactChars, List.cons_append, List.append_assoc] at same
              exact absurd (List.cons.inj same).2 close_ne_compactChars
      | cons item items =>
          cases items' with
          | nil =>
              simp only [compactChars, List.cons_append, List.append_assoc] at same
              exact absurd (List.cons.inj same).2.symm close_ne_compactChars
          | cons item' items' => exact all (congrArg (',' :: ·) (List.cons.inj same).2)
  | .obj members, second, _, _, _, _, same => by
      obtain ⟨members', rfl⟩ := obj_of_lead (lead_eq same).symm
      have all {rest rest' : List Char}
          (same : compactMembers members ++ rest = compactMembers members' ++ rest') :
          Json.obj members = .obj members' ∧ rest = rest' := by
        obtain ⟨rfl, rest⟩ := compactMembers_append_inj members members' same
        exact ⟨rfl, rest⟩
      rcases members with _ | ⟨⟨name, value⟩, members⟩
      · rcases members' with _ | ⟨⟨name', value'⟩, members'⟩
        · exact ⟨rfl, List.append_cancel_left same⟩
        · cases (List.cons.inj (List.cons.inj same).2).1
      · rcases members' with _ | ⟨⟨name', value'⟩, members'⟩
        · cases (List.cons.inj (List.cons.inj same).2).1
        · exact all (congrArg (',' :: ·) (List.cons.inj same).2)
termination_by structural tree => tree

theorem compactItems_append_inj : (first second : List Json) → ∀ {rest rest' : List Char},
    compactItems first ++ rest = compactItems second ++ rest' → first = second ∧ rest = rest'
  | [], second, _, _, same => by
      cases second with
      | nil => exact ⟨rfl, List.append_cancel_left same⟩
      | cons item items => cases (List.cons.inj same).1
  | item :: items, second, _, _, same => by
      cases second with
      | nil => cases (List.cons.inj same).1
      | cons item' items' =>
          simp only [compactItems, List.cons_append, List.append_assoc] at same
          obtain ⟨rfl, others⟩ := compactChars_append_inj item item' (stops_compactItems _ _)
            (stops_compactItems _ _) (List.cons.inj same).2
          obtain ⟨rfl, rest⟩ := compactItems_append_inj items items' others
          exact ⟨rfl, rest⟩
termination_by structural items => items

theorem compactMembers_append_inj : (first second : List (String × Json)) →
    ∀ {rest rest' : List Char}, compactMembers first ++ rest = compactMembers second ++ rest' →
      first = second ∧ rest = rest'
  | [], second, _, _, same => by
      cases second with
      | nil => exact ⟨rfl, List.append_cancel_left same⟩
      | cons member members => cases (List.cons.inj same).1
  | (name, value) :: members, second, _, _, same => by
      cases second with
      | nil => cases (List.cons.inj same).1
      | cons member' members' =>
          obtain ⟨name', value'⟩ := member'
          simp only [compactMembers, List.cons_append, List.append_assoc] at same
          obtain ⟨rfl, named⟩ := quoted_append_inj (List.cons.inj same).2
          obtain ⟨rfl, others⟩ := compactChars_append_inj value value' (stops_compactMembers _ _)
            (stops_compactMembers _ _) (List.cons.inj named).2
          obtain ⟨rfl, rest⟩ := compactMembers_append_inj members members' others
          exact ⟨rfl, rest⟩
termination_by structural members => members
end

end Elastic.Json
