import Elastic.Proofs.Json.Distinctness
import Elastic.Proofs.Json.RoundTrip

namespace Elastic.Json

open Text

/-! The indented form of a tree is its compact form with gaps outside of the strings. Different
trees therefore have different indented texts too. -/

/-- Where a character stands in a text: outside of its strings, inside of one, or behind a backslash
inside of one. -/
inductive Region
  | outside
  | inside
  | escaped
deriving DecidableEq

def Region.next : Region → Char → Region
  | .outside, c => if c = '"' then .inside else .outside
  | .inside, c => if c = '"' then .outside else if c = '\\' then .escaped else .inside
  | .escaped, _ => .inside

/-- A text without the gaps outside of its strings. -/
def condense : Region → List Char → List Char
  | _, [] => []
  | region, c :: rest =>
    if region = .outside ∧ isGap c = true then condense region rest
    else c :: condense (region.next c) rest

def isSolid (c : Char) : Bool := !isGap c && c ≠ '"'

variable {rest : List Char}

theorem condense_cons {c : Char} (solid : isSolid c = true) :
    condense .outside (c :: rest) = c :: condense .outside rest := by
  simp only [isSolid, Bool.and_eq_true, Bool.not_eq_true', decide_eq_true_eq] at solid
  simp [condense, Region.next, solid.1, solid.2]

theorem condense_append {chars : List Char} (solid : ∀ c ∈ chars, isSolid c = true) :
    condense .outside (chars ++ rest) = chars ++ condense .outside rest := by
  induction chars with
  | nil => rfl
  | cons c chars induction =>
      rw [List.cons_append, condense_cons (solid c List.mem_cons_self),
        induction fun other member => solid other (List.mem_cons_of_mem _ member), List.cons_append]

theorem condense_word (chars : List Char) (solid : chars.all isSolid = true) :
    condense .outside (chars ++ rest) = chars ++ condense .outside rest :=
  condense_append (List.all_eq_true.1 solid)

theorem condense_gaps {blank : List Char} (gaps : ∀ c ∈ blank, isGap c = true) :
    condense .outside (blank ++ rest) = condense .outside rest := by
  induction blank with
  | nil => rfl
  | cons c blank induction =>
      rw [List.cons_append, condense, if_pos ⟨rfl, gaps c List.mem_cons_self⟩,
        induction fun other member => gaps other (List.mem_cons_of_mem _ member)]

theorem condense_lineStart (level : Nat) :
    condense .outside (lineStart level ++ rest) = condense .outside rest :=
  condense_gaps fun _ => isGap_of_mem_lineStart

theorem condense_space : condense .outside (' ' :: rest) = condense .outside rest :=
  if_pos ⟨rfl, rfl⟩

theorem isSolid_of_isNumeric {c : Char} (numeric : isNumeric c = true) : isSolid c = true := by
  simp only [isSolid, isGap, Bool.and_eq_true, Bool.not_eq_true', Bool.or_eq_false_iff,
    decide_eq_false_iff_not, decide_eq_true_eq]
  refine ⟨⟨⟨⟨?_, ?_⟩, ?_⟩, ?_⟩, ?_⟩ <;> rintro rfl <;> exact absurd numeric (by decide)

def isInner (c : Char) : Bool := c ≠ '"' && c ≠ '\\'

theorem condense_inside_append {chars : List Char} (inner : ∀ c ∈ chars, isInner c = true) :
    condense .inside (chars ++ rest) = chars ++ condense .inside rest := by
  induction chars with
  | nil => rfl
  | cons c chars induction =>
      have here := inner c List.mem_cons_self
      simp only [isInner, Bool.and_eq_true, decide_eq_true_eq] at here
      have others := induction fun other member => inner other (List.mem_cons_of_mem _ member)
      simp [condense, Region.next, here.1, here.2, others]

theorem isInner_hexDigit {value : Nat} (bound : value < 16) : isInner (hexDigit value) = true := by
  have each : ∀ value < 16, isInner (hexDigit value) = true := by decide
  exact each value bound

theorem condense_escapeChar (c : Char) :
    condense .inside (escapeChar c ++ rest) = escapeChar c ++ condense .inside rest := by
  have escape (second : Char) {chars : List Char} (inner : ∀ c ∈ chars, isInner c = true) :
      condense .inside ('\\' :: second :: chars ++ rest) =
        '\\' :: second :: chars ++ condense .inside rest := by
    simp [condense, Region.next, condense_inside_append inner]
  have hex {value : Nat} (bound : value < 16) := isInner_hexDigit bound
  unfold escapeChar
  split_ifs with quote backslash newline carriage tab back form control
  · exact escape _ nofun
  · exact escape _ nofun
  · exact escape _ nofun
  · exact escape _ nofun
  · exact escape _ nofun
  · exact escape _ nofun
  · exact escape _ nofun
  · refine escape _ fun other member => ?_
    simp only [List.mem_cons, List.not_mem_nil, or_false] at member
    rcases member with rfl | rfl | rfl | rfl
    · rfl
    · rfl
    · exact hex (by omega)
    · exact hex (by omega)
  · exact condense_inside_append (by simp [isInner, quote, backslash])

theorem condense_quoted (text : String) :
    condense .outside (quoted text ++ rest) = quoted text ++ condense .outside rest := by
  have inside (chars : List Char) : condense .inside (chars.flatMap escapeChar ++ '"' :: rest) =
      chars.flatMap escapeChar ++ '"' :: condense .outside rest := by
    induction chars with
    | nil => rfl
    | cons c chars induction =>
        rw [List.flatMap_cons, List.append_assoc, condense_escapeChar, induction,
          List.append_assoc]
  have opened := inside text.toList
  simp only [quoted, List.cons_append, List.append_assoc, List.nil_append] at opened ⊢
  exact congrArg ('"' :: ·) opened

mutual
theorem condense_prettyChars : (tree : Json) → ∀ (level : Nat) {rest},
    condense .outside (tree.prettyChars level ++ rest) =
      tree.compactChars ++ condense .outside rest
  | .null, _, _ => condense_word "null".toList rfl
  | .bool true, _, _ => condense_word "true".toList rfl
  | .bool false, _, _ => condense_word "false".toList rfl
  | .int _, _, _ =>
      condense_append fun c member =>
        isSolid_of_isNumeric (List.all_eq_true.1 (all_isNumeric_intChars _) c member)
  | .real literal, _, _ =>
      condense_append fun c member =>
        isSolid_of_isNumeric (List.all_eq_true.1 literal.numeric c member)
  | .str value, _, _ => condense_quoted value
  | .arr [], _, _ => condense_word ['[', ']'] rfl
  | .arr (item :: items), level, _ => by
      simp only [prettyChars, compactChars, List.cons_append, List.append_assoc]
      rw [condense_cons rfl, condense_lineStart, condense_prettyChars item,
        condense_prettyItems items]
  | .obj [], _, _ => condense_word ['{', '}'] rfl
  | .obj ((name, value) :: members), level, _ => by
      simp only [prettyChars, compactChars, List.cons_append, List.append_assoc]
      rw [condense_cons rfl, condense_lineStart, condense_quoted, condense_cons rfl,
        condense_space, condense_prettyChars value, condense_prettyMembers members]
termination_by structural tree => tree

theorem condense_prettyItems : (items : List Json) →
    ∀ (level : Nat) {rest}, condense .outside (prettyItems level items ++ rest) =
      compactItems items ++ condense .outside rest
  | [], level, _ => by
      simp only [prettyItems, compactItems, List.append_assoc, List.cons_append, List.nil_append]
      rw [condense_lineStart, condense_cons rfl]
  | item :: items, level, _ => by
      simp only [prettyItems, compactItems, List.cons_append, List.append_assoc]
      rw [condense_cons rfl, condense_lineStart, condense_prettyChars item,
        condense_prettyItems items]
termination_by structural items => items

theorem condense_prettyMembers : (members : List (String × Json)) → ∀ (level : Nat) {rest},
      condense .outside (prettyMembers level members ++ rest) =
        compactMembers members ++ condense .outside rest
  | [], level, _ => by
      simp only [prettyMembers, compactMembers, List.append_assoc, List.cons_append,
        List.nil_append]
      rw [condense_lineStart, condense_cons rfl]
  | (name, value) :: members, level, _ => by
      simp only [prettyMembers, compactMembers, List.cons_append, List.append_assoc]
      rw [condense_cons rfl, condense_lineStart, condense_quoted, condense_cons rfl,
        condense_space, condense_prettyChars value, condense_prettyMembers members]
termination_by structural members => members
end

end Elastic.Json
