namespace Elastic.Text

/-! Blank characters: those with the Unicode property `White_Space`, and trimming by them. -/

/-- A character with the property `White_Space` of Unicode 15. -/
def isBlank (c : Char) : Bool :=
  let code := c.toNat
  (0x09 ≤ code && code ≤ 0x0D) || code == 0x20 || code == 0x85 || code == 0xA0 ||
    code == 0x1680 || (0x2000 ≤ code && code ≤ 0x200A) || code == 0x2028 ||
    code == 0x2029 || code == 0x202F || code == 0x205F || code == 0x3000

def trimChars (text : List Char) : List Char :=
  ((text.dropWhile isBlank).reverse.dropWhile isBlank).reverse

theorem trimChars_of_no_blank {text : List Char}
    (solid : ∀ c ∈ text, isBlank c = false) : trimChars text = text := by
  have keep : ∀ chars : List Char, (∀ c ∈ chars, isBlank c = false) →
      chars.dropWhile isBlank = chars := by
    intro chars clean
    cases chars with
    | nil => rfl
    | cons head tail => simp [clean head (by simp)]
  unfold trimChars
  rw [keep text solid, keep text.reverse (by simpa using solid), List.reverse_reverse]

end Elastic.Text
