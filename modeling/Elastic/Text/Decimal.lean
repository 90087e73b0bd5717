import Elastic.Text.Numeral

namespace Elastic.Text

def isDigit (c : Char) : Bool := '0' ≤ c && c ≤ '9'

def isNumeric (c : Char) : Bool :=
  isDigit c || c = '-' || c = '+' || c = '.' || c = 'e' || c = 'E'

def spanDigits (text : List Char) : List Char × List Char :=
  (text.takeWhile isDigit, text.dropWhile isDigit)

def decimalValue (digits : List Char) : Nat :=
  digits.foldl (fun value digit => value * 10 + (digit.toNat - 48)) 0

/-- Whether digits times a power of ten lie beyond the largest binary64 number, so that the nearest
one is an infinity. -/
def overflowsBinary64 (digits : List Char) (scale : Int) : Bool :=
  let digits := digits.dropWhile (· = '0')
  let magnitude := scale + digits.length
  if digits.isEmpty then false
  else if 310 < magnitude then true
  else if magnitude < 300 then false
  else
    let limit := (1 <<< 1024) - (1 <<< 970)
    if 0 ≤ scale then limit ≤ decimalValue digits * Nat.pow 10 scale.toNat
    else limit * Nat.pow 10 (-scale).toNat ≤ decimalValue digits

/-- The nearest number of 53 significant bits; of two as near, the one whose last bit is zero. -/
def roundBinary64 (n : Nat) : Nat :=
  let unit := 1 <<< (n.log2 - 52)
  let twice := 2 * (n % unit)
  let count := n / unit
  let rounded := if unit < twice ∨ twice = unit ∧ count % 2 = 1 then count + 1 else count
  rounded * unit

def leadingWord (digits : List Char) : Nat × Nat :=
  digits.foldl
    (fun (word, omitted) digit =>
      let longer := word * 10 + (digit.toNat - 48)
      if omitted = 0 ∧ longer < UInt64.size then (longer, 0) else (word, omitted + 1))
    (0, 0)

/-- Whether digits times a power of ten lie beyond the largest binary64 number when a word of
leading digits and the power of ten that it lacks are rounded before they are multiplied. -/
def overflowsByParts (digits : List Char) (scale : Int) : Bool :=
  let (word, omitted) := leadingWord digits
  let power := scale + omitted
  if word = 0 || power < 0 then false
  else if 308 < power then true
  else (1 <<< 1024) - (1 <<< 970) ≤ roundBinary64 word * roundBinary64 (Nat.pow 10 power.toNat)

end Elastic.Text
