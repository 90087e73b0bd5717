namespace Elastic.Text

/-! Numerals of unsigned words. Reading stops at the first digit that is no digit of the base or
that takes the value past the limit, and says which of the two it was. -/

inductive NumeralError
  | empty
  | invalidDigit
  | tooLarge
deriving DecidableEq, Repr

def NumeralError.message : NumeralError → String
  | .empty => "cannot parse integer from empty string"
  | .invalidDigit => "invalid digit found in string"
  | .tooLarge => "number too large to fit in target type"

def digitValue? (base : Nat) (c : Char) : Option Nat :=
  let value? :=
    if '0' ≤ c ∧ c ≤ '9' then some (c.toNat - 48)
    else if 'a' ≤ c ∧ c ≤ 'f' then some (c.toNat - 87)
    else if 'A' ≤ c ∧ c ≤ 'F' then some (c.toNat - 55)
    else none
  value?.filter (· < base)

/-- Reads the digits after the value `read` of those before them. The value stays below `limit`;
a character that is no digit is reported before an overflow at the same place. -/
def readDigits (base limit : Nat) (read : Nat) : List Char → Except NumeralError Nat
  | [] => .ok read
  | c :: rest =>
    match digitValue? base c with
    | none => .error .invalidDigit
    | some digit =>
      let value := read * base + digit
      if value < limit then readDigits base limit value rest else .error .tooLarge

def readNumeral (base limit : Nat) : List Char → Except NumeralError Nat
  | [] => .error .empty
  | '+' :: [] => .error .invalidDigit
  | '+' :: digits => readDigits base limit 0 digits
  | digits => readDigits base limit 0 digits

def wordLimit : Nat := UInt64.size

/-- A 64-bit word in decimal, or in hexadecimal after `0x`. -/
def readWord (text : List Char) : Except NumeralError UInt64 :=
  (match text with
    | '0' :: 'x' :: digits => readNumeral 16 wordLimit digits
    | digits => readNumeral 10 wordLimit digits).map UInt64.ofNat

def hexDigit (value : Nat) : Char :=
  if value < 10 then Char.ofNat (48 + value) else Char.ofNat (87 + value)

def padded (width number : Nat) : String :=
  let digits := (Nat.toDigits 10 number)
  String.ofList (List.replicate (width - digits.length) '0' ++ digits)

def padRight (width : Nat) (text : String) : String :=
  text ++ String.ofList (List.replicate (width - text.length) ' ')

def splitFirst? (mark : Char) : List Char → Option (List Char × List Char)
  | [] => none
  | c :: rest =>
    if c = mark then some ([], rest)
    else (splitFirst? mark rest).map fun (before, after) => (c :: before, after)

def splitLast? (mark : Char) (text : List Char) : Option (List Char × List Char) :=
  (splitFirst? mark text.reverse).map fun (after, before) => (before.reverse, after.reverse)

theorem splitFirst?_append {mark : Char} {before : List Char} (after : List Char)
    (absent : mark ∉ before) :
    splitFirst? mark (before ++ mark :: after) = some (before, after) := by
  induction before with
  | nil => simp [splitFirst?]
  | cons head tail induction =>
    have distinct : head ≠ mark := fun equality => absent (by simp [equality])
    have rest := induction (fun member => absent (by simp [member]))
    simp [splitFirst?, distinct, rest]

theorem splitLast?_append {mark : Char} {after : List Char} (before : List Char)
    (absent : mark ∉ after) :
    splitLast? mark (before ++ mark :: after) = some (before, after) := by
  have reversed : mark ∉ after.reverse := by simpa using absent
  simp [splitLast?, splitFirst?_append before.reverse reversed]

end Elastic.Text
