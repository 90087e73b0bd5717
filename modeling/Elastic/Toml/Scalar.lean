import Elastic.Text.Decimal
import Elastic.Toml.Value

namespace Elastic.Toml

open Text

def isDigitOf (base : Nat) (c : Char) : Bool := (digitValue? base c).isSome

def digits? (base : Nat) : List Char → Option (List Char)
  | [] => none
  | [c] => if isDigitOf base c then some [c] else none
  | c :: '_' :: rest =>
    if isDigitOf base c then (digits? base rest).map (c :: ·) else none
  | c :: rest => if isDigitOf base c then (digits? base rest).map (c :: ·) else none

def valueOf (base : Nat) (digits : List Char) : Nat :=
  digits.foldl (fun value c => value * base + (digitValue? base c).getD 0) 0

def wholeDigits? (text : List Char) : Option (List Char) :=
  (digits? 10 text).filter fun digits => digits.head? ≠ some '0' || digits.length = 1

def splitSign : List Char → Bool × List Char
  | '-' :: rest => (true, rest)
  | '+' :: rest => (false, rest)
  | rest => (false, rest)

def integerOf? (negative : Bool) (magnitude : Nat) : Option Toml :=
  if negative then if magnitude ≤ 1 <<< 63 then some (.integer (-(magnitude : Int))) else none
  else if magnitude < 1 <<< 63 then some (.integer magnitude) else none

def based? (base : Nat) (text : List Char) : Option Toml :=
  (digits? base text).bind fun digits => integerOf? false (valueOf base digits)

def integer? : List Char → Option Toml
  | '0' :: 'x' :: rest => based? 16 rest
  | '0' :: 'o' :: rest => based? 8 rest
  | '0' :: 'b' :: rest => based? 2 rest
  | text =>
    let (negative, rest) := splitSign text
    (wholeDigits? rest).bind fun digits => integerOf? negative (valueOf 10 digits)

def splitWhere (isMark : Char → Bool) (text : List Char) : List Char × Option (List Char) :=
  match text.dropWhile fun c => !isMark c with
  | [] => (text, none)
  | _ :: rest => (text.takeWhile fun c => !isMark c, some rest)

def isExponentMark (c : Char) : Bool := c = 'e' || c = 'E'

def exponent? : Option (List Char) → Option Int
  | none => some 0
  | some text =>
    let (negative, rest) := splitSign text
    (digits? 10 rest).map fun digits =>
      let size : Int := valueOf 10 digits
      if negative then -size else size

def fraction? : Option (List Char) → Option (List Char)
  | none => some []
  | some text => digits? 10 text

/-- Whether a text is a number with a fraction or an exponent that rounds to no positive
infinity. -/
def isDecimal (text : List Char) : Bool :=
  let (negative, rest) := splitSign text
  let (mantissa, scale) := splitWhere isExponentMark rest
  let (whole, part) := splitWhere (· = '.') mantissa
  if scale.isNone && part.isNone then false
  else
    match wholeDigits? whole, fraction? part, exponent? scale with
    | some whole, some part, some scale =>
      negative || !overflowsBinary64 (whole ++ part) (scale - part.length)
    | _, _, _ => false

def isSpecial (text : List Char) : Bool :=
  let word := (splitSign text).2
  word = "inf".toList || word = "nan".toList

def real? (text : List Char) : Option Toml :=
  if isDecimal text || isSpecial text then some (.real (String.ofList text)) else none

def fixed? (count : Nat) (text : List Char) : Option Nat :=
  if text.length = count && text.all isDigit then some (valueOf 10 text) else none

def isLeapYear (year : Nat) : Bool :=
  year % 4 = 0 && (year % 100 ≠ 0 || year % 400 = 0)

def daysOfMonth (year month : Nat) : Nat :=
  if month = 2 then if isLeapYear year then 29 else 28
  else if month = 4 || month = 6 || month = 9 || month = 11 then 30
  else 31

def isDate (text : List Char) : Bool :=
  match fixed? 4 (text.take 4), text.drop 4 with
  | some year, ['-', a, b, '-', c, d] =>
    match fixed? 2 [a, b], fixed? 2 [c, d] with
    | some month, some day =>
      1 ≤ month && month ≤ 12 && 1 ≤ day && day ≤ daysOfMonth year month
    | _, _ => false
  | _, _ => false

def isBelow (limit : Nat) (a b : Char) : Bool :=
  match fixed? 2 [a, b] with
  | some value => value < limit
  | none => false

def isSecondFraction : List Char → Bool
  | [] => true
  | '.' :: rest => !rest.isEmpty && rest.all isDigit
  | _ => false

/-- A time of day. The second may be a leap second. -/
def isTime : List Char → Bool
  | a :: b :: ':' :: c :: d :: ':' :: e :: f :: rest =>
    isBelow 24 a b && isBelow 60 c d && isBelow 61 e f && isSecondFraction rest
  | _ => false

def isOffset : List Char → Bool
  | [] => true
  | ['Z'] | ['z'] => true
  | [sign, a, b, ':', c, d] => (sign = '+' || sign = '-') && isBelow 24 a b && isBelow 60 c d
  | _ => false

def startsOffset (c : Char) : Bool := c = 'Z' || c = 'z' || c = '+' || c = '-'

def isZonedTime (text : List Char) : Bool :=
  isTime (text.takeWhile fun c => !startsOffset c) &&
    isOffset (text.dropWhile fun c => !startsOffset c)

def isMoment (text : List Char) : Bool :=
  isDate text || isTime text ||
    match text.drop 10 with
    | mark :: rest => (mark = 'T' || mark = 't') && isDate (text.take 10) && isZonedTime rest
    | [] => false

def moment? (text : List Char) : Option Toml :=
  if isMoment text then some (.moment (String.ofList text)) else none

def boolean? (text : List Char) : Option Toml :=
  if text = "true".toList then some (.boolean true)
  else if text = "false".toList then some (.boolean false)
  else none

def isWordChar (c : Char) : Bool :=
  c.isAlphanum || c = '+' || c = '-' || c = '_' || c = '.' || c = ':'

def word? (text : List Char) : Option Toml :=
  (boolean? text).or <| (integer? text).or <| (real? text).or (moment? text)

/-- The word in front of a text. A date and a time may be two words with a space between them. -/
def scalar? (text : List Char) : Option (Toml × List Char) :=
  let word := text.takeWhile isWordChar
  match text.dropWhile isWordChar with
  | ' ' :: c :: rest =>
    if isDate word && isWordChar c then
      let time := (c :: rest).takeWhile isWordChar
      if isZonedTime time then
        some (.moment (String.ofList (word ++ ' ' :: time)), (c :: rest).dropWhile isWordChar)
      else none
    else (word? word).map fun value => (value, ' ' :: c :: rest)
  | rest => (word? word).map fun value => (value, rest)

end Elastic.Toml
