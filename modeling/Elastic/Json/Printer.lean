import Elastic.Text.Numeral
import Elastic.Json.Value

namespace Elastic.Json

open Text

/-! Writing JSON: the compact form without blanks, and the indented form with two spaces per
level. -/

/-- A character inside a quoted string. Only quotes, backslashes and controls are escaped. -/
def escapeChar (c : Char) : List Char :=
  if c = '"' then ['\\', '"']
  else if c = '\\' then ['\\', '\\']
  else if c = '\n' then ['\\', 'n']
  else if c = '\r' then ['\\', 'r']
  else if c = '\t' then ['\\', 't']
  else if c.toNat = 8 then ['\\', 'b']
  else if c.toNat = 12 then ['\\', 'f']
  else if c.toNat < 32 then
    ['\\', 'u', '0', '0', hexDigit (c.toNat / 16), hexDigit (c.toNat % 16)]
  else [c]

def quoted (text : String) : List Char :=
  '"' :: (text.toList.flatMap escapeChar ++ ['"'])

def intChars : Int → List Char
  | .ofNat value => Nat.toDigits 10 value
  | .negSucc value => '-' :: Nat.toDigits 10 (value + 1)

mutual
def compactChars : Json → List Char
  | .null => "null".toList
  | .bool true => "true".toList
  | .bool false => "false".toList
  | .int value => intChars value
  | .real literal => literal.text
  | .str value => quoted value
  | .arr [] => ['[', ']']
  | .arr (item :: rest) => '[' :: (item.compactChars ++ compactItems rest)
  | .obj [] => ['{', '}']
  | .obj ((name, value) :: rest) =>
    '{' :: (quoted name ++ ':' :: (value.compactChars ++ compactMembers rest))
termination_by structural tree => tree

def compactItems : List Json → List Char
  | [] => [']']
  | item :: rest => ',' :: (item.compactChars ++ compactItems rest)
termination_by structural items => items

def compactMembers : List (String × Json) → List Char
  | [] => ['}']
  | (name, value) :: rest =>
    ',' :: (quoted name ++ ':' :: (value.compactChars ++ compactMembers rest))
termination_by structural members => members
end

def lineStart (level : Nat) : List Char :=
  '\n' :: List.replicate (2 * level) ' '

mutual
def prettyChars (level : Nat) : Json → List Char
  | .null => "null".toList
  | .bool true => "true".toList
  | .bool false => "false".toList
  | .int value => intChars value
  | .real literal => literal.text
  | .str value => quoted value
  | .arr [] => ['[', ']']
  | .arr (item :: rest) =>
    '[' :: (lineStart (level + 1) ++ item.prettyChars (level + 1) ++ prettyItems level rest)
  | .obj [] => ['{', '}']
  | .obj ((name, value) :: rest) =>
    '{' :: (lineStart (level + 1) ++ quoted name ++
      ':' :: ' ' :: (value.prettyChars (level + 1) ++ prettyMembers level rest))
termination_by structural tree => tree

def prettyItems (level : Nat) : List Json → List Char
  | [] => lineStart level ++ [']']
  | item :: rest =>
    ',' :: (lineStart (level + 1) ++ item.prettyChars (level + 1) ++ prettyItems level rest)
termination_by structural items => items

def prettyMembers (level : Nat) : List (String × Json) → List Char
  | [] => lineStart level ++ ['}']
  | (name, value) :: rest =>
    ',' :: (lineStart (level + 1) ++ quoted name ++
      ':' :: ' ' :: (value.prettyChars (level + 1) ++ prettyMembers level rest))
termination_by structural members => members
end

def compact (tree : Json) : String :=
  String.ofList tree.compactChars

def pretty (tree : Json) : String :=
  String.ofList (tree.prettyChars 0)

end Elastic.Json
