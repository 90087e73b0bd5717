import Elastic.Text.Blank
import Elastic.Text.Numeral
import Mathlib.Data.List.Basic

namespace Elastic.Text

/-! Words as they are written. A numeral is read from its first digit on, and its value only grows
on the way; so it is read if the number is below the limit, whatever zeros stand in front. -/

/-- A text of digits of a base, and the number that it stands for. -/
inductive IsNumeral (base : Nat) : List Char → Nat → Prop
  | digit {c : Char} {value : Nat} (known : digitValue? base c = some value) :
      IsNumeral base [c] value
  | snoc {digits : List Char} {high low : Nat} {c : Char} (front : IsNumeral base digits high)
      (known : digitValue? base c = some low) : IsNumeral base (digits ++ [c]) (high * base + low)

/-- The ways to write a word: in decimal, or in hexadecimal after `0x`. -/
inductive WritesWord (word : UInt64) : List Char → Prop
  | decimal {digits : List Char} (numeral : IsNumeral 10 digits word.toNat) : WritesWord word digits
  | hexadecimal {digits : List Char} (numeral : IsNumeral 16 digits word.toNat) :
      WritesWord word ('0' :: 'x' :: digits)

variable {base limit value : Nat} {c : Char} {digits text : List Char} {word : UInt64}

def IsDigit (c : Char) : Prop :=
  48 ≤ c.toNat ∧ c.toNat ≤ 57 ∨ 65 ≤ c.toNat ∧ c.toNat ≤ 70 ∨ 97 ≤ c.toNat ∧ c.toNat ≤ 102

theorem isDigit_of_value (known : digitValue? base c = some value) : IsDigit c := by
  obtain ⟨known, -⟩ := Option.filter_eq_some_iff.1 known
  simp only [Char.le_def] at known
  unfold IsDigit
  split at known
  · rename_i range
    exact .inl range
  · split at known
    · rename_i range
      exact .inr (.inr range)
    · split at known
      · rename_i range
        exact .inr (.inl range)
      · cases known

theorem IsDigit.not_blank (digit : IsDigit c) : isBlank c = false := by
  simp only [IsDigit] at digit
  simp only [isBlank, Bool.or_eq_false_iff, Bool.and_eq_false_iff, decide_eq_false_iff_not,
    beq_eq_false_iff_ne]
  omega

theorem digitValue?_digitChar (small : base ≤ 16) (bound : value < base) :
    digitValue? base value.digitChar = some value := by
  have each : ∀ base ≤ 16, ∀ value < base, digitValue? base value.digitChar = some value := by
    decide
  exact each base small value bound

namespace IsNumeral

theorem nonempty (numeral : IsNumeral base digits value) : digits ≠ [] := by
  cases numeral <;> simp

theorem known (numeral : IsNumeral base digits value) :
    ∀ c ∈ digits, ∃ digit, digitValue? base c = some digit := by
  induction numeral with
  | digit known => exact List.forall_mem_singleton.2 ⟨_, known⟩
  | snoc front known induction =>
      exact List.forall_mem_append.2 ⟨induction, List.forall_mem_singleton.2 ⟨_, known⟩⟩

theorem isDigit (numeral : IsNumeral base digits value) : ∀ c ∈ digits, IsDigit c := by
  intro c member
  obtain ⟨digit, known⟩ := numeral.known c member
  exact isDigit_of_value known

theorem toDigits (large : 1 < base) (small : base ≤ 16) (number : Nat) :
    IsNumeral base (Nat.toDigits base number) number := by
  induction number using Nat.strongRecOn with
  | ind number induction =>
      by_cases single : number < base
      · rw [Nat.toDigits_of_lt_base single]
        exact .digit (digitValue?_digitChar small single)
      · have more : base ≤ number := Nat.not_lt.1 single
        have front := induction (number / base) (Nat.div_lt_self (by omega) large)
        have last : number % base < base := Nat.mod_lt _ (by omega)
        have whole := front.snoc (digitValue?_digitChar small last)
        rwa [← Nat.toDigits_of_base_le large more, Nat.div_add_mod'] at whole

end IsNumeral

theorem readDigits_append (base limit read : Nat) (front rest : List Char) :
    readDigits base limit read (front ++ rest) =
      readDigits base limit read front >>= fun value => readDigits base limit value rest := by
  induction front generalizing read with
  | nil => rfl
  | cons c front induction =>
      simp only [List.cons_append, readDigits]
      split
      · rfl
      · split
        · exact induction _
        · rfl

theorem readDigits_of_isNumeral (positive : 0 < base) (numeral : IsNumeral base digits value)
    (bound : value < limit) : readDigits base limit 0 digits = .ok value := by
  induction numeral with
  | digit known => simp [readDigits, known, bound]
  | @snoc digits high low c front known induction =>
      have smaller : high ≤ high * base := Nat.le_mul_of_pos_right high positive
      rw [readDigits_append, induction (by omega)]
      change readDigits base limit high [c] = _
      simp [readDigits, known, bound]

theorem readNumeral_of_isNumeral (positive : 0 < base) (numeral : IsNumeral base digits value)
    (bound : value < limit) : readNumeral base limit digits = .ok value := by
  have unsigned : '+' ∉ digits := fun member =>
    absurd (numeral.isDigit '+' member) (by unfold IsDigit; decide)
  unfold readNumeral
  split
  · exact absurd rfl numeral.nonempty
  · exact absurd List.mem_cons_self unsigned
  · exact absurd List.mem_cons_self unsigned
  · exact readDigits_of_isNumeral positive numeral bound

/-- However a word is written, it is read. -/
theorem readWord_of_writes (writes : WritesWord word text) : readWord text = .ok word := by
  have bound : word.toNat < wordLimit := word.toNat_lt_size
  unfold readWord
  cases writes with
  | decimal numeral =>
      have plain : ∀ rest, text ≠ '0' :: 'x' :: rest := by
        rintro rest rfl
        obtain ⟨digit, known⟩ := numeral.known 'x' (by simp)
        cases known
      split
      · exact absurd rfl (plain _)
      · rw [readNumeral_of_isNumeral (by decide) numeral bound]
        exact congrArg Except.ok UInt64.ofNat_toNat
  | @hexadecimal digits numeral =>
      change (readNumeral 16 wordLimit digits).map UInt64.ofNat = _
      rw [readNumeral_of_isNumeral (by decide) numeral bound]
      exact congrArg Except.ok UInt64.ofNat_toNat

theorem WritesWord.solid (writes : WritesWord word text) : ∀ c ∈ text, isBlank c = false := by
  cases writes with
  | decimal numeral => exact fun c member => (numeral.isDigit c member).not_blank
  | hexadecimal numeral =>
      refine List.forall_mem_cons.2 ⟨rfl, List.forall_mem_cons.2 ⟨rfl, fun c member => ?_⟩⟩
      exact (numeral.isDigit c member).not_blank

theorem isDigit_of_readDigits {read : Nat} (done : readDigits base limit read digits = .ok value) :
    ∀ c ∈ digits, IsDigit c := by
  induction digits generalizing read with
  | nil => exact nofun
  | cons c rest induction =>
      unfold readDigits at done
      split at done
      · cases done
      · rename_i digit known
        dsimp only at done
        split at done
        · exact List.forall_mem_cons.2 ⟨isDigit_of_value known, induction done⟩
        · cases done

theorem isDigit_of_readNumeral (done : readNumeral base limit digits = .ok value) :
    ∀ c ∈ digits, c = '+' ∨ IsDigit c := by
  unfold readNumeral at done
  split at done
  · cases done
  · cases done
  · refine List.forall_mem_cons.2 ⟨.inl rfl, fun c member => .inr ?_⟩
    exact isDigit_of_readDigits done c member
  · exact fun c member => .inr (isDigit_of_readDigits done c member)

theorem unmarked_of_readWord {mark : Char} (done : readWord text = .ok word) (sign : mark ≠ '+')
    (letter : mark ≠ 'x') (digit : ¬ IsDigit mark) : mark ∉ text := by
  have unmarked {base : Nat} {digits : List Char} {outcome : Except NumeralError Nat}
      (same : readNumeral base wordLimit digits = outcome)
      (done : outcome.map UInt64.ofNat = .ok word) : mark ∉ digits := by
    intro member
    cases outcome with
    | error error => cases done
    | ok value => exact (isDigit_of_readNumeral same mark member).elim sign digit
  unfold readWord at done
  split at done
  · rename_i digits
    have zero : mark ≠ '0' := by
      rintro rfl
      exact digit (.inl (by decide))
    simp only [List.mem_cons, zero, letter, false_or]
    exact unmarked rfl done
  · exact unmarked rfl done

end Elastic.Text
