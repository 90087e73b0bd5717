import Elastic.Json.Printer
import Elastic.Json.Reader
import Mathlib.Data.List.TakeWhile
import Mathlib.Data.Nat.Digits.Defs

namespace Elastic.Json

open Text

/-! The tokens of a printed tree. A number ends where no character goes on with it, and a string at
its closing quote, whatever stands behind them. -/

def Stops (text : List Char) : Prop :=
  ∀ c ∈ text.head?, isNumeric c = false

theorem stops_nil : Stops [] := by
  simp [Stops]

theorem stops_cons {c : Char} {rest : List Char} (solid : isNumeric c = false) :
    Stops (c :: rest) := by
  simp [Stops, solid]

theorem stops_compactItems (items : List Json) (rest : List Char) :
    Stops (compactItems items ++ rest) := by
  cases items <;> exact stops_cons rfl

theorem stops_compactMembers (members : List (String × Json)) (rest : List Char) :
    Stops (compactMembers members ++ rest) := by
  cases members <;> exact stops_cons rfl

theorem span_numeric {chars rest : List Char} (numeric : chars.all isNumeric = true)
    (stops : Stops rest) : (chars ++ rest).takeWhile isNumeric = chars ∧
      (chars ++ rest).dropWhile isNumeric = rest := by
  have all : ∀ c ∈ chars, isNumeric c = true := List.all_eq_true.1 numeric
  rw [List.takeWhile_append_of_pos all, List.dropWhile_append_of_pos all]
  cases rest with
  | nil => simp
  | cons c rest => simp [stops c rfl]

theorem isDigit_of_mem_toDigits {number : Nat} {c : Char} (member : c ∈ Nat.toDigits 10 number) :
    isDigit c = true := by
  have digit := Nat.isDigit_of_mem_toDigits (by decide) (by decide) member
  simpa [Char.isDigit, isDigit, Char.le_def] using digit

theorem decimalValue_toDigits (number : Nat) : decimalValue (Nat.toDigits 10 number) = number := by
  have same : decimalValue (Nat.toDigits 10 number) =
      Nat.ofDigitChars 10 (Nat.toDigits 10 number) 0 := by
    unfold decimalValue Nat.ofDigitChars
    congr 1
    funext value digit
    rw [Nat.mul_comm]
    rfl
  rw [same, Nat.ofDigitChars_toDigits (by decide) (by decide)]

theorem head_toDigits {number : Nat} (positive : 0 < number) :
    (Nat.toDigits 10 number).head? ≠ some '0' := by
  induction number using Nat.strongRecOn with
  | ind number induction =>
      by_cases small : number < 10
      · have each : ∀ number < 10, 0 < number → (Nat.toDigits 10 number).head? ≠ some '0' := by
          decide
        exact each number small positive
      · have front : 0 < number / 10 := Nat.div_pos (Nat.not_lt.1 small) (by decide)
        have first := induction _ (Nat.div_lt_self positive (by decide)) front
        obtain ⟨c, rest, digits⟩ := List.exists_cons_of_ne_nil (l := Nat.toDigits 10 (number / 10))
          Nat.toDigits_ne_nil
        rw [Nat.toDigits_of_base_le (by decide) (Nat.not_lt.1 small), digits]
        rwa [digits] at first

theorem readWhole?_toDigits (number : Nat) :
    readWhole? (Nat.toDigits 10 number) = some (Nat.toDigits 10 number, []) := by
  have digits : ∀ c ∈ Nat.toDigits 10 number, isDigit c = true :=
    fun _ => isDigit_of_mem_toDigits
  have span : spanDigits (Nat.toDigits 10 number) = (Nat.toDigits 10 number, []) :=
    Prod.ext (List.takeWhile_eq_self_iff.2 digits) (List.dropWhile_eq_nil_iff.2 digits)
  unfold readWhole?
  rw [span]
  split
  · rename_i empty
    exact absurd (Prod.mk.inj empty).1 Nat.toDigits_ne_nil
  · rename_i zeros
    have digits := (Prod.mk.inj zeros).1
    rcases Nat.eq_zero_or_pos number with rfl | positive
    · simp at digits
    · have head := head_toDigits positive
      simp [digits] at head
  · rename_i same
    exact congrArg some same.symm

def isWord (value : Int) : Bool :=
  -2 ^ 63 ≤ value && value < 2 ^ 64

theorem toDigits_append (number : Nat) (rest : List Char) :
    ∃ c digits, Nat.toDigits 10 number ++ rest = c :: digits ∧ isDigit c = true := by
  obtain ⟨c, digits, same⟩ := List.exists_cons_of_ne_nil (l := Nat.toDigits 10 number)
    Nat.toDigits_ne_nil
  have first : c ∈ Nat.toDigits 10 number := by simp [same]
  exact ⟨c, digits ++ rest, by rw [same, List.cons_append], isDigit_of_mem_toDigits first⟩

theorem isNumeric_of_isDigit {c : Char} (digit : isDigit c = true) : isNumeric c = true := by
  simp [isNumeric, digit]

theorem isDigit_of_mem_intChars {value : Int} {c : Char} (member : c ∈ intChars value) :
    isDigit c = true ∨ c = '-' := by
  cases value with
  | ofNat number => exact .inl (isDigit_of_mem_toDigits member)
  | negSucc number =>
      rcases List.mem_cons.1 member with rfl | digits
      · exact .inr rfl
      · exact .inl (isDigit_of_mem_toDigits digits)

theorem all_isNumeric_intChars (value : Int) : (intChars value).all isNumeric = true := by
  refine List.all_eq_true.2 fun c member => ?_
  rcases isDigit_of_mem_intChars member with digit | rfl
  · exact isNumeric_of_isDigit digit
  · rfl

theorem splitSign_intChars (value : Int) :
    splitSign (intChars value) = (decide (value < 0), Nat.toDigits 10 value.natAbs) := by
  cases value with
  | negSucc number => simp [intChars, splitSign, Int.negSucc_lt_zero]
  | ofNat number =>
      obtain ⟨c, digits, same, digit⟩ := toDigits_append number []
      rw [List.append_nil] at same
      simp only [intChars, same, splitSign]
      split
      · rename_i negative
        rw [(List.cons.inj negative).1] at digit
        cases digit
      · simp [same]

theorem readLiteral?_intChars {value : Int} (word : isWord value = true)
    (numeric : (intChars value).all isNumeric = true) :
    (readLiteral? (intChars value) numeric).bind Literal.value? = some (.int value) := by
  simp only [isWord, Bool.and_eq_true, decide_eq_true_eq] at word
  have read : readLiteral? (intChars value) numeric = some ⟨intChars value, numeric,
      decide (value < 0), Nat.toDigits 10 value.natAbs, [], none⟩ := by
    simp [readLiteral?, splitSign_intChars, readWhole?_toDigits, readFraction?, readExponent?]
  rw [read, Option.bind_some]
  simp only [Literal.value?, decimalValue_toDigits, List.isEmpty_nil, Option.isNone_none,
    Bool.and_self, if_true, decide_eq_true_eq]
  split
  · rw [if_pos (by omega), show -(value.natAbs : Int) = value by omega]
  · rw [if_pos (by simp [UInt64.size]; omega), show (value.natAbs : Int) = value by omega]

theorem readNumber?_intChars {value : Int} (word : isWord value = true) {rest : List Char}
    (stops : Stops rest) : readNumber? (intChars value ++ rest) = some (.int value, rest) := by
  obtain ⟨front, behind⟩ := span_numeric (all_isNumeric_intChars value) stops
  obtain ⟨literal, read, integer⟩ :=
    Option.bind_eq_some_iff.1 (readLiteral?_intChars word (all_isNumeric_intChars value))
  unfold readNumber?
  simp only [front, behind, read]
  simp [integer]

theorem digitValue?_hexDigit {value : Nat} (bound : value < 16) :
    digitValue? 16 (hexDigit value) = some value := by
  have each : ∀ value < 16, digitValue? 16 (hexDigit value) = some value := by decide
  exact each value bound

theorem codeUnit?_control {c : Char} (control : c.toNat < 32) :
    codeUnit? '0' '0' (hexDigit (c.toNat / 16)) (hexDigit (c.toNat % 16)) = some c.toNat := by
  have zero : digitValue? 16 '0' = some 0 := by decide
  have high := digitValue?_hexDigit (show c.toNat / 16 < 16 by omega)
  have low := digitValue?_hexDigit (show c.toNat % 16 < 16 by omega)
  simp only [codeUnit?, zero, high, low, Option.bind_eq_bind, Option.bind_some, Option.pure_def]
  congr 1
  omega

theorem readString?_escapeChar (c : Char) (rest : List Char) :
    readString? (escapeChar c ++ rest) =
      (readString? rest).map fun (chars, rest) => (c :: chars, rest) := by
  unfold escapeChar
  split
  · subst c
    simp [readString?, escaped?]
  split
  · subst c
    simp [readString?, escaped?]
  split
  · subst c
    simp [readString?, escaped?]
  split
  · subst c
    simp [readString?, escaped?]
  split
  · subst c
    simp [readString?, escaped?]
  split
  · rename_i back
    have same : c = Char.ofNat 8 := by rw [← back, Char.ofNat_toNat]
    subst same
    simp [readString?, escaped?]
  split
  · rename_i feed
    have same : c = Char.ofNat 12 := by rw [← feed, Char.ofNat_toNat]
    subst same
    simp [readString?, escaped?]
  split
  · rename_i control
    have low : isLowSurrogate c.toNat = false := by simp [isLowSurrogate]; omega
    have high : isHighSurrogate c.toNat = false := by simp [isHighSurrogate]; omega
    simp [readString?, codeUnit?_control control, low, high, Char.ofNat_toNat]
  · rename_i quote slash _ _ _ _ _ plain
    rw [List.singleton_append, readString?.eq_def]
    split <;> simp_all

theorem readString?_quoted (chars rest : List Char) :
    readString? (chars.flatMap escapeChar ++ '"' :: rest) = some (chars, rest) := by
  induction chars with
  | nil => simp [readString?]
  | cons c chars induction =>
      rw [List.flatMap_cons, List.append_assoc, readString?_escapeChar, induction]
      rfl

mutual
/-- Whether all numbers of a tree are integers that are read as such. -/
def isPlain : Json → Bool
  | .null | .bool _ | .str _ => true
  | .int value => isWord value
  | .real _ => false
  | .arr items => arePlain items
  | .obj members => membersPlain members
termination_by structural tree => tree

def arePlain : List Json → Bool
  | [] => true
  | item :: rest => item.isPlain && arePlain rest
termination_by structural items => items

def membersPlain : List (String × Json) → Bool
  | [] => true
  | (_, value) :: rest => value.isPlain && membersPlain rest
termination_by structural members => members
end

mutual
def tokens : Json → List Token
  | .null => [.scalar .null]
  | .bool value => [.scalar (.bool value)]
  | .int value => [.scalar (.int value)]
  | .real literal => [.scalar (.real literal)]
  | .str value => [.scalar (.str value)]
  | .arr [] => [.openArray, .closeArray]
  | .arr (item :: rest) => .openArray :: (item.tokens ++ itemTokens rest)
  | .obj [] => [.openObject, .closeObject]
  | .obj ((name, value) :: rest) =>
    .openObject :: .scalar (.str name) :: .colon :: (value.tokens ++ memberTokens rest)
termination_by structural tree => tree

def itemTokens : List Json → List Token
  | [] => [.closeArray]
  | item :: rest => .comma :: (item.tokens ++ itemTokens rest)
termination_by structural items => items

def memberTokens : List (String × Json) → List Token
  | [] => [.closeObject]
  | (name, value) :: rest =>
    .comma :: .scalar (.str name) :: .colon :: (value.tokens ++ memberTokens rest)
termination_by structural members => members
end

theorem intChars_cons (value : Int) :
    ∃ c chars, intChars value = c :: chars ∧ (isDigit c = true ∨ c = '-') := by
  cases value with
  | ofNat number =>
      obtain ⟨c, digits, same, digit⟩ := toDigits_append number []
      rw [List.append_nil] at same
      exact ⟨c, digits, same, .inl digit⟩
  | negSucc number => exact ⟨'-', _, rfl, .inr rfl⟩

theorem isGap_of_isDigit {c : Char} (digit : isDigit c = true) : isGap c = false := by
  unfold isGap
  by_contra gap
  simp only [Bool.or_eq_false_iff, decide_eq_false_iff_not, not_and_or, not_not] at gap
  rcases gap with ((rfl | rfl) | rfl) | rfl <;> cases digit

theorem readToken?_of_number {c : Char} {text : List Char} (first : isDigit c = true ∨ c = '-') :
    readToken? (c :: text) =
      (readNumber? (c :: text)).map fun (value, rest) => (.scalar value, rest) := by
  unfold readToken?
  split <;> simp_all [isDigit]

/-- A text is cut into tokens, with gaps in front of each of them and at the end. -/
inductive Lexes : List Char → List Token → Prop
  | done {text : List Char} (blank : text.dropWhile isGap = []) : Lexes text []
  | token {text start rest : List Char} {token : Token} {tokens : List Token}
      (skipped : text.dropWhile isGap = start) (read : readToken? start = some (token, rest))
      (shorter : rest.length < start.length) (lexes : Lexes rest tokens) :
      Lexes text (token :: tokens)

/-- The number of its characters is fuel enough for a text. -/
theorem readTokens?_of_lexes {text : List Char} {tokens : List Token} (lexes : Lexes text tokens)
    {fuel : Nat} (enough : text.length ≤ fuel) : readTokens? fuel text = some tokens := by
  induction lexes generalizing fuel with
  | done blank => simp [readTokens?, blank]
  | @token text start rest token tokens skipped read shorter _ induction =>
      have suffix : start.length ≤ text.length := by
        rw [← skipped]
        exact (List.dropWhile_suffix _).length_le
      cases start with
      | nil => cases read
      | cons c start =>
          cases fuel with
          | zero => simp at suffix; omega
          | succ fuel =>
              have rest := induction (show rest.length ≤ fuel by omega)
              simp [readTokens?, skipped, read, rest]

namespace Lexes

variable {rest : List Char} {more : List Token}

theorem gap {blank : List Char} (all : ∀ c ∈ blank, isGap c = true) (lexes : Lexes rest more) :
    Lexes (blank ++ rest) more := by
  cases lexes with
  | done none => exact .done (by rw [List.dropWhile_append_of_pos all, none])
  | token skipped read shorter lexes =>
      exact .token (by rw [List.dropWhile_append_of_pos all, skipped]) read shorter lexes

theorem front {c : Char} {text : List Char} {token : Token} (solid : isGap c = false)
    (read : readToken? (c :: (text ++ rest)) = some (token, rest)) (lexes : Lexes rest more) :
    Lexes (c :: (text ++ rest)) (token :: more) :=
  have shorter : rest.length < (c :: (text ++ rest)).length := by
    rw [List.length_cons, List.length_append]
    omega
  .token (List.dropWhile_cons_of_neg (by simp [solid])) read shorter lexes

theorem mark {c : Char} {token : Token} (solid : isGap c = false)
    (read : ∀ rest, readToken? (c :: rest) = some (token, rest)) (lexes : Lexes rest more) :
    Lexes (c :: rest) (token :: more) :=
  @front rest more c [] token solid (read rest) lexes

theorem quoted (name : String) (lexes : Lexes rest more) :
    Lexes (quoted name ++ rest) (.scalar (.str name) :: more) := by
  have read : readToken? ('"' :: (name.toList.flatMap escapeChar ++ ['"'] ++ rest)) =
      some (.scalar (.str name), rest) := by
    simp [readToken?, readString?_quoted, String.ofList_toList]
  exact front rfl read lexes

theorem int {value : Int} (word : isWord value = true) (stops : Stops rest)
    (lexes : Lexes rest more) :
    Lexes (intChars value ++ rest) (.scalar (.int value) :: more) := by
  have number := readNumber?_intChars word stops
  obtain ⟨c, chars, same, first⟩ := intChars_cons value
  rw [same, List.cons_append] at number ⊢
  refine front ?_ ?_ lexes
  · obtain digit | rfl := first
    · exact isGap_of_isDigit digit
    · rfl
  · rw [readToken?_of_number first, number, Option.map_some]

end Lexes

end Elastic.Json
