import Elastic.Text.Numeral

namespace Elastic.Toml

open Text

/-! Quoted texts: with escapes between double quotes, as they are between single quotes, and either
over several lines between three quotes. -/

def isBlank (c : Char) : Bool := c = ' ' || c = '\t'

def skipBlanks (text : List Char) : List Char := text.dropWhile isBlank

def newline? : List Char → Option (List Char)
  | '\n' :: rest => some rest
  | '\r' :: '\n' :: rest => some rest
  | _ => none

def isPrintable (c : Char) : Bool := c = '\t' || (32 ≤ c.toNat && c.toNat ≠ 127)

def skipSpace : List Char → List Char
  | ' ' :: rest => skipSpace rest
  | '\t' :: rest => skipSpace rest
  | '\n' :: rest => skipSpace rest
  | '\r' :: '\n' :: rest => skipSpace rest
  | rest => rest

/-- The text after a backslash that joins a line with what stands on the next. -/
def continuation? (text : List Char) : Option (List Char) :=
  (newline? (skipBlanks text)).map skipSpace

def codePoint? (digits : List Char) : Option Char := do
  let values ← digits.mapM (digitValue? 16)
  let code := values.foldl (fun code value => code * 16 + value) 0
  if code.isValidChar then some (Char.ofNat code) else none

def numbered? (count : Nat) (text : List Char) : Option (Char × List Char) :=
  if text.length < count then none
  else (codePoint? (text.take count)).map fun c => (c, text.drop count)

def escape? : List Char → Option (Char × List Char)
  | 'b' :: rest => some (Char.ofNat 8, rest)
  | 't' :: rest => some ('\t', rest)
  | 'n' :: rest => some ('\n', rest)
  | 'f' :: rest => some (Char.ofNat 12, rest)
  | 'r' :: rest => some ('\r', rest)
  | '"' :: rest => some ('"', rest)
  | '\\' :: rest => some ('\\', rest)
  | 'u' :: rest => numbered? 4 rest
  | 'U' :: rest => numbered? 8 rest
  | _ => none

abbrev Reading := Option (List Char × List Char)

def consed (c : Char) (reading : Reading) : Reading :=
  reading.map fun (chars, rest) => (c :: chars, rest)

def basic? : Nat → List Char → Reading
  | 0, _ | _, [] => none
  | _ + 1, '"' :: rest => some ([], rest)
  | fuel + 1, '\\' :: rest =>
    match escape? rest with
    | none => none
    | some (c, rest) => consed c (basic? fuel rest)
  | fuel + 1, c :: rest => if isPrintable c then consed c (basic? fuel rest) else none

def literal? : List Char → Reading
  | [] => none
  | '\'' :: rest => some ([], rest)
  | c :: rest => if isPrintable c then consed c (literal? rest) else none

/-- A text with escapes over several lines. One or two quotes may stand right before the closing
ones. -/
def basicLines? : Nat → List Char → Reading
  | 0, _ | _, [] => none
  | _ + 1, '"' :: '"' :: '"' :: '"' :: '"' :: rest => some (['"', '"'], rest)
  | _ + 1, '"' :: '"' :: '"' :: '"' :: rest => some (['"'], rest)
  | _ + 1, '"' :: '"' :: '"' :: rest => some ([], rest)
  | fuel + 1, '\\' :: rest =>
    match escape? rest with
    | some (c, rest) => consed c (basicLines? fuel rest)
    | none =>
      match continuation? rest with
      | some rest => basicLines? fuel rest
      | none => none
  | fuel + 1, c :: rest =>
    match newline? (c :: rest) with
    | some rest => consed '\n' (basicLines? fuel rest)
    | none => if isPrintable c then consed c (basicLines? fuel rest) else none

def literalLines? : Nat → List Char → Reading
  | 0, _ | _, [] => none
  | _ + 1, '\'' :: '\'' :: '\'' :: '\'' :: '\'' :: rest => some (['\'', '\''], rest)
  | _ + 1, '\'' :: '\'' :: '\'' :: '\'' :: rest => some (['\''], rest)
  | _ + 1, '\'' :: '\'' :: '\'' :: rest => some ([], rest)
  | fuel + 1, c :: rest =>
    match newline? (c :: rest) with
    | some rest => consed '\n' (literalLines? fuel rest)
    | none => if isPrintable c then consed c (literalLines? fuel rest) else none

def skipFirstNewline (text : List Char) : List Char := (newline? text).getD text

def quotedLine? : List Char → Reading
  | '"' :: rest => basic? (rest.length + 1) rest
  | '\'' :: rest => literal? rest
  | _ => none

def quoted? : List Char → Reading
  | '"' :: '"' :: '"' :: rest => basicLines? (rest.length + 1) (skipFirstNewline rest)
  | '\'' :: '\'' :: '\'' :: rest => literalLines? (rest.length + 1) (skipFirstNewline rest)
  | text => quotedLine? text

end Elastic.Toml
