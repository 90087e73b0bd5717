import Elastic.Toml.Quoted
import Elastic.Toml.Scalar

namespace Elastic.Toml

/-- The number of arrays and inline tables that may stand in one another, and of keys with dots
between them. -/
def nestingLimit : Nat := 79

def isKeyChar (c : Char) : Bool := c.isAlphanum || c = '_' || c = '-'

def plainKey? (text : List Char) : Option (String × List Char) :=
  match text with
  | '"' :: _ | '\'' :: _ =>
    (quotedLine? text).map fun (chars, rest) => (String.ofList chars, rest)
  | _ =>
    match text.takeWhile isKeyChar with
    | [] => none
    | chars => some (String.ofList chars, text.dropWhile isKeyChar)

def key? : Nat → List Char → Option (List String × List Char)
  | 0, _ => none
  | fuel + 1, text =>
    match plainKey? (skipBlanks text) with
    | none => none
    | some (part, rest) =>
      match skipBlanks rest with
      | '.' :: rest => (key? fuel rest).map fun (parts, rest) => (part :: parts, rest)
      | rest => some ([part], rest)

def lineEnd? (text : List Char) : Option (List Char) :=
  let after := match skipBlanks text with
    | '#' :: rest => rest.dropWhile isPrintable
    | rest => rest
  match after with
  | [] => some []
  | rest => newline? rest

def skipTrivia : Nat → List Char → List Char
  | 0, text => text
  | fuel + 1, text =>
    match skipSpace text with
    | '#' :: rest => skipTrivia fuel (rest.dropWhile isPrintable)
    | rest => rest

def addInline (members : Members) (assignment : List String × Toml) : Option Members :=
  assignment.1.getLast?.bind fun key => assign assignment.1.dropLast key assignment.2 members

def inlineTable? (assignments : List (List String × Toml)) : Option Toml :=
  (assignments.foldlM addInline []).map fun members => .table .inline members

mutual
def value? : Nat → Nat → List Char → Option (Toml × List Char)
  | 0, _, _ => none
  | fuel + 1, depth, text =>
    match text with
    | '"' :: _ | '\'' :: _ =>
      (quoted? text).map fun (chars, rest) => (.string (String.ofList chars), rest)
    | '[' :: rest =>
      match depth with
      | 0 => none
      | depth + 1 => (items? fuel depth rest).map fun (items, rest) => (.array items, rest)
    | '\x7b' :: rest =>
      match depth with
      | 0 => none
      | depth + 1 =>
        match skipBlanks rest with
        | '\x7d' :: rest => some (.table .inline [], rest)
        | rest =>
          match assignments? fuel depth rest with
          | none => none
          | some (assignments, rest) =>
            (inlineTable? assignments).map fun table => (table, rest)
    | text => scalar? text

def items? : Nat → Nat → List Char → Option (List Toml × List Char)
  | 0, _, _ => none
  | fuel + 1, depth, text =>
    match skipTrivia text.length text with
    | ']' :: rest => some ([], rest)
    | text =>
      match value? fuel depth text with
      | none => none
      | some (item, rest) =>
        match skipTrivia rest.length rest with
        | ',' :: rest => (items? fuel depth rest).map fun (items, rest) => (item :: items, rest)
        | ']' :: rest => some ([item], rest)
        | _ => none

def assignments? : Nat → Nat → List Char → Option (List (List String × Toml) × List Char)
  | 0, _, _ => none
  | fuel + 1, depth, text =>
    match key? nestingLimit text with
    | some (keys, '=' :: rest) =>
      match value? fuel depth (skipBlanks rest) with
      | none => none
      | some (value, rest) =>
        match skipBlanks rest with
        | ',' :: rest =>
          (assignments? fuel depth rest).map fun (others, rest) => ((keys, value) :: others, rest)
        | '\x7d' :: rest => some ([(keys, value)], rest)
        | _ => none
    | _ => none
end

/-- A document as read so far, and the keys of the header that assignments stand under. -/
structure Document where
  members : Members := []
  header : List String := []

namespace Document

def readHeader? (element : Bool) (text : List Char) (document : Document) :
    Option (Document × List Char) := do
  let (keys, rest) ← key? nestingLimit text
  let rest ← match element, rest with
    | false, ']' :: rest => some rest
    | true, ']' :: ']' :: rest => some rest
    | _, _ => none
  let members ← openHeader element keys document.members
  let rest ← lineEnd? rest
  return (⟨members, keys⟩, rest)

def readAssignment? (text : List Char) (document : Document) :
    Option (Document × List Char) := do
  let (keys, rest) ← key? nestingLimit text
  let key ← keys.getLast?
  match rest with
  | '=' :: rest =>
    let (value, rest) ← value? (2 * rest.length + 2) nestingLimit (skipBlanks rest)
    let rest ← lineEnd? rest
    let members ← assignUnder document.header keys.dropLast key value document.members
    return ({ document with members := members }, rest)
  | _ => none

def readLine? (text : List Char) (document : Document) : Option (Document × List Char) :=
  match skipBlanks text with
  | [] => some (document, [])
  | '[' :: '[' :: rest => document.readHeader? true rest
  | '[' :: rest => document.readHeader? false rest
  | text =>
    match lineEnd? text with
    | some rest => some (document, rest)
    | none => document.readAssignment? text

def readLines? : Nat → List Char → Document → Option Document
  | _, [], document => some document
  | 0, _, _ => none
  | fuel + 1, text, document =>
    match document.readLine? text with
    | none => none
    | some (document, rest) => readLines? fuel rest document

end Document

/-- The members of a document. A byte order mark in front is passed over. -/
def read? (text : String) : Option Members :=
  let chars := match text.toList with
    | '\uFEFF' :: rest => rest
    | chars => chars
  (Document.readLines? (chars.length + 1) chars {}).map (·.members)

end Elastic.Toml
