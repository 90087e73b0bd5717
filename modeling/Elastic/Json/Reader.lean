import Elastic.Text.Decimal
import Elastic.Json.Value

namespace Elastic.Json

open Text

/-! Reading JSON as RFC 8259 gives it: a text is cut into tokens, and a machine with a stack of
open arrays and objects puts the tokens together. -/

inductive Token
  | openArray
  | closeArray
  | openObject
  | closeObject
  | comma
  | colon
  | scalar (value : Json)

def codeUnit? (a b c d : Char) : Option Nat := do
  let a ← digitValue? 16 a
  let b ← digitValue? 16 b
  let c ← digitValue? 16 c
  let d ← digitValue? 16 d
  return ((a * 16 + b) * 16 + c) * 16 + d

def isHighSurrogate (unit : Nat) : Bool := 0xD800 ≤ unit && unit < 0xDC00

def isLowSurrogate (unit : Nat) : Bool := 0xDC00 ≤ unit && unit < 0xE000

def escaped? (letter : Char) : Option Char :=
  if letter = '"' ∨ letter = '\\' ∨ letter = '/' then some letter
  else if letter = 'n' then some '\n'
  else if letter = 'r' then some '\r'
  else if letter = 't' then some '\t'
  else if letter = 'b' then some (Char.ofNat 8)
  else if letter = 'f' then some (Char.ofNat 12)
  else none

/-- The characters of a string after its opening quote, and the text after its closing quote. A
surrogate escape stands only before its partner. -/
def readString? : List Char → Option (List Char × List Char)
  | [] => none
  | '"' :: rest => some ([], rest)
  | '\\' :: 'u' :: a :: b :: c :: d :: rest =>
    match codeUnit? a b c d with
    | none => none
    | some unit =>
      if isLowSurrogate unit then none
      else if isHighSurrogate unit then
        match rest with
        | '\\' :: 'u' :: e :: f :: g :: h :: rest =>
          match codeUnit? e f g h with
          | none => none
          | some second =>
            if isLowSurrogate second then
              let code := 0x10000 + (unit - 0xD800) * 0x400 + (second - 0xDC00)
              (readString? rest).map fun (chars, rest) => (Char.ofNat code :: chars, rest)
            else none
        | _ => none
      else (readString? rest).map fun (chars, rest) => (Char.ofNat unit :: chars, rest)
  | '\\' :: letter :: rest =>
    match escaped? letter with
    | none => none
    | some c => (readString? rest).map fun (chars, rest) => (c :: chars, rest)
  | c :: rest =>
    if c.toNat < 32 ∨ c = '\\' then none
    else (readString? rest).map fun (chars, rest) => (c :: chars, rest)

structure Literal where
  text : List Char
  numeric : text.all isNumeric = true
  negative : Bool
  whole : List Char
  fraction : List Char
  exponent : Option Int

/-- Whether a literal's value comes out as an infinity. It is worked out in binary64 from a word of
leading digits and a power of ten, so that the last numbers below the limit may fail too. -/
def Literal.overflows (literal : Literal) : Bool :=
  overflowsByParts (literal.whole ++ literal.fraction)
    (literal.exponent.getD 0 - literal.fraction.length)

/-- An integer literal of 64 bits is an integer; any other literal, `-0` included, is kept. -/
def Literal.value? (literal : Literal) : Option Json :=
  let kept :=
    if literal.overflows then none else some (Json.real (.ofNumeric literal.text literal.numeric))
  if literal.fraction.isEmpty && literal.exponent.isNone then
    let magnitude := decimalValue literal.whole
    if literal.negative then
      if 0 < magnitude ∧ magnitude ≤ 1 <<< 63 then some (.int (-(magnitude : Int))) else kept
    else if magnitude < UInt64.size then some (.int magnitude)
    else kept
  else kept

def readFraction? : List Char → Option (List Char × List Char)
  | '.' :: rest =>
    let (digits, rest) := spanDigits rest
    if digits.isEmpty then none else some (digits, rest)
  | rest => some ([], rest)

def readExponentDigits? (negative : Bool) (text : List Char) :
    Option (Option Int × List Char) :=
  let (digits, rest) := spanDigits text
  if digits.isEmpty then none
  else
    let size : Int := decimalValue digits
    some (some (if negative then -size else size), rest)

def readExponent? : List Char → Option (Option Int × List Char)
  | c :: rest =>
    if c = 'e' ∨ c = 'E' then
      match rest with
      | '-' :: rest => readExponentDigits? true rest
      | '+' :: rest => readExponentDigits? false rest
      | rest => readExponentDigits? false rest
    else some (none, c :: rest)
  | [] => some (none, [])

def readWhole? (text : List Char) : Option (List Char × List Char) :=
  match spanDigits text with
  | ([], _) => none
  | ('0' :: _ :: _, _) => none
  | (digits, rest) => some (digits, rest)

def splitSign : List Char → Bool × List Char
  | '-' :: rest => (true, rest)
  | rest => (false, rest)

def readLiteral? (text : List Char) (numeric : text.all isNumeric = true) : Option Literal := do
  let (negative, unsigned) := splitSign text
  let (whole, rest) ← readWhole? unsigned
  let (fraction, rest) ← readFraction? rest
  let (exponent, rest) ← readExponent? rest
  if rest.isEmpty then some ⟨text, numeric, negative, whole, fraction, exponent⟩ else none

/-- A number at the start of a text. It ends before the first character that no number has. -/
def readNumber? (text : List Char) : Option (Json × List Char) := do
  let literal ← readLiteral? (text.takeWhile isNumeric) List.all_takeWhile
  let value ← literal.value?
  return (value, text.dropWhile isNumeric)

def readToken? : List Char → Option (Token × List Char)
  | [] => none
  | '[' :: rest => some (.openArray, rest)
  | ']' :: rest => some (.closeArray, rest)
  | '{' :: rest => some (.openObject, rest)
  | '}' :: rest => some (.closeObject, rest)
  | ',' :: rest => some (.comma, rest)
  | ':' :: rest => some (.colon, rest)
  | '"' :: rest =>
    (readString? rest).map fun (chars, rest) => (.scalar (.str (String.ofList chars)), rest)
  | 'n' :: 'u' :: 'l' :: 'l' :: rest => some (.scalar .null, rest)
  | 't' :: 'r' :: 'u' :: 'e' :: rest => some (.scalar (.bool true), rest)
  | 'f' :: 'a' :: 'l' :: 's' :: 'e' :: rest => some (.scalar (.bool false), rest)
  | text => (readNumber? text).map fun (value, rest) => (.scalar value, rest)

def isGap (c : Char) : Bool := c = ' ' || c = '\n' || c = '\t' || c = '\r'

def readTokens? : Nat → List Char → Option (List Token)
  | fuel, text =>
    match text.dropWhile isGap with
    | [] => some []
    | text =>
      match fuel with
      | 0 => none
      | fuel + 1 =>
        match readToken? text with
        | none => none
        | some (token, rest) => (readTokens? fuel rest).map (token :: ·)

/-- An array or object that is not closed yet, with its parts in reverse order. -/
inductive Frame
  | items (done : List Json)
  | members (done : List (String × Json)) (key : String)

/-- What the machine awaits. The stack holds the frames around it, the innermost first. -/
inductive Awaiting
  | value (stack : List Frame)
  | firstItem (stack : List Frame)
  | afterItem (done : List Json) (stack : List Frame)
  | firstKey (stack : List Frame)
  | key (done : List (String × Json)) (stack : List Frame)
  | colon (done : List (String × Json)) (key : String) (stack : List Frame)
  | afterMember (done : List (String × Json)) (stack : List Frame)
  | finish (tree : Json)

def deliver (value : Json) : List Frame → Awaiting
  | [] => .finish value
  | .items done :: stack => .afterItem (value :: done) stack
  | .members done key :: stack => .afterMember ((key, value) :: done) stack

def beginValue (limit : Nat) (stack : List Frame) : Token → Option Awaiting
  | .scalar value => some (deliver value stack)
  | .openArray => if stack.length < limit then some (.firstItem stack) else none
  | .openObject => if stack.length < limit then some (.firstKey stack) else none
  | _ => none

def advance (limit : Nat) : Awaiting → Token → Option Awaiting
  | .value stack, token => beginValue limit stack token
  | .firstItem stack, .closeArray => some (deliver (.arr []) stack)
  | .firstItem stack, token => beginValue limit (.items [] :: stack) token
  | .afterItem done stack, .comma => some (.value (.items done :: stack))
  | .afterItem done stack, .closeArray => some (deliver (.arr done.reverse) stack)
  | .firstKey stack, .closeObject => some (deliver (.obj []) stack)
  | .firstKey stack, .scalar (.str key) => some (.colon [] key stack)
  | .key done stack, .scalar (.str key) => some (.colon done key stack)
  | .colon done key stack, .colon => some (.value (.members done key :: stack))
  | .afterMember done stack, .comma => some (.key done stack)
  | .afterMember done stack, .closeObject => some (deliver (.obj done.reverse) stack)
  | _, _ => none

def runTokens (limit : Nat) : Awaiting → List Token → Option Awaiting
  | awaiting, [] => some awaiting
  | awaiting, token :: rest =>
    match advance limit awaiting token with
    | none => none
    | some awaiting => runTokens limit awaiting rest

/-- The number of arrays and objects that may be open at once in a text. -/
def nestingLimit : Nat := 127

def readWithin? (limit : Nat) (text : String) : Option Json :=
  let chars := text.toList
  match (readTokens? chars.length chars).bind (runTokens limit (.value [])) with
  | some (.finish tree) => some tree
  | _ => none

def read? (text : String) : Option Json :=
  readWithin? nestingLimit text

end Elastic.Json
