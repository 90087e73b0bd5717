import Elastic.Text.Decimal

namespace Elastic

/-! JSON trees. Members keep the order in which they stand, repeated names included. A number that
is no integer of 64 bits keeps its literal. -/

/-- The literal of a number with a point or an exponent. -/
@[ext]
structure RealLiteral where
  text : List Char
  numeric : text.all Text.isNumeric = true
  marked : (text.any fun c => c = '.' || c = 'e' || c = 'E') = true

/-- The literal of a number, with a point behind it if it has none and no exponent either. -/
def RealLiteral.ofNumeric (text : List Char) (numeric : text.all Text.isNumeric = true) :
    RealLiteral :=
  if marked : (text.any fun c => c = '.' || c = 'e' || c = 'E') = true then ⟨text, numeric, marked⟩
  else ⟨text ++ ['.', '0'], by simp [List.all_append, numeric]; decide, by simp⟩

inductive Json
  | null
  | bool (value : Bool)
  | int (value : Int)
  | real (literal : RealLiteral)
  | str (value : String)
  | arr (items : List Json)
  | obj (members : List (String × Json))

namespace Json

instance : Inhabited Json := ⟨.null⟩

def nat (value : Nat) : Json := .int value

def ofOption (encode : α → Json) : Option α → Json
  | none => .null
  | some value => encode value

def list (encode : α → Json) (values : List α) : Json :=
  .arr (values.map encode)

def member? (name : String) : List (String × Json) → Option Json
  | [] => none
  | (key, value) :: rest => if key = name then some value else member? name rest

def insertSorted (name : String) (value : Json) :
    List (String × Json) → List (String × Json)
  | [] => [(name, value)]
  | (key, held) :: rest =>
    if name = key then (name, value) :: rest
    else if name < key then (name, value) :: (key, held) :: rest
    else (key, held) :: insertSorted name value rest

mutual
/-- The tree with the members of every object in the order of their names, the last of equal names
kept. -/
def sorted : Json → Json
  | .arr items => .arr (sortedItems items)
  | .obj members => .obj (sortedMembers members [])
  | .null => .null
  | .bool value => .bool value
  | .int value => .int value
  | .real literal => .real literal
  | .str value => .str value
termination_by structural tree => tree

def sortedItems : List Json → List Json
  | [] => []
  | item :: rest => item.sorted :: sortedItems rest
termination_by structural items => items

def sortedMembers : List (String × Json) → List (String × Json) → List (String × Json)
  | [], done => done
  | (name, value) :: rest, done => sortedMembers rest (insertSorted name value.sorted done)
termination_by structural members => members
end

mutual
def depth : Json → Nat
  | .arr items => depthItems items + 1
  | .obj members => depthMembers members + 1
  | .null | .bool _ | .int _ | .real _ | .str _ => 0
termination_by structural tree => tree

def depthItems : List Json → Nat
  | [] => 0
  | item :: rest => max item.depth (depthItems rest)
termination_by structural items => items

def depthMembers : List (String × Json) → Nat
  | [] => 0
  | (_, value) :: rest => max value.depth (depthMembers rest)
termination_by structural members => members
end

end Json

end Elastic
