import Elastic.Json.Value

namespace Elastic.Json

/-! Reading typed data out of a JSON tree. A record is an object whose own fields each stand at most
once, other members being passed over, or an array of the fields in order. An alternative is its
name, or an object with the name as only member. -/

def asText? : Json → Option String
  | .str value => some value
  | _ => none

def asNat? (limit : Nat) : Json → Option Nat
  | .int (.ofNat value) => if value < limit then some value else none
  | _ => none

def asList? (decode : Json → Option α) : Json → Option (List α)
  | .arr items => items.mapM decode
  | _ => none

def asPair? {α β : Type} (first : Json → Option α) (second : Json → Option β) :
    Json → Option (α × β)
  | .arr [a, b] => do
    let a ← first a
    let b ← second b
    return (a, b)
  | _ => none

def asNullable? (decode : Json → Option α) : Json → Option (Option α)
  | .null => some none
  | json => (decode json).map some

def atMostOnce (members : List (String × Json)) (name : String) : Bool :=
  (members.filter (·.1 = name)).length ≤ 1

def asRecord? (names : List String) : Json → Option (List (String × Json))
  | .obj members => if names.all (atMostOnce members) then some members else none
  | .arr items => if items.length ≤ names.length then some (names.zip items) else none
  | _ => none

def asWholeRecord? (names : List String) : Json → Option (List (String × Json))
  | .arr items => if items.length = names.length then some (names.zip items) else none
  | json => asRecord? names json

def required? (fields : List (String × Json)) (name : String) (decode : Json → Option α) :
    Option α :=
  (member? name fields).bind decode

def optional? (fields : List (String × Json)) (name : String) (absent : α)
    (decode : Json → Option α) : Option α :=
  match member? name fields with
  | none => some absent
  | some json => decode json

def nullable? (fields : List (String × Json)) (name : String) (decode : Json → Option α) :
    Option (Option α) :=
  optional? fields name none (asNullable? decode)

def asVariant? : Json → Option (String × Json)
  | .str name => some (name, .null)
  | .obj [(name, content)] => some (name, content)
  | _ => none

def asLabel? (labels : List (String × α)) (json : Json) : Option α :=
  match asVariant? json with
  | some (name, .null) => (labels.find? (·.1 = name)).map (·.2)
  | _ => none

def variant (name : String) (content : Json) : Json := .obj [(name, content)]

def limit32 : Nat := UInt32.size

def limit64 : Nat := UInt64.size

theorem asText?_str (value : String) : asText? (.str value) = some value := rfl

theorem asNat?_nat {limit value : Nat} (bound : value < limit) :
    asNat? limit (nat value) = some value := by
  simp [asNat?, nat, bound]

theorem asList?_list {encode : α → Json} {decode : Json → Option α}
    (values : List α) (inverse : ∀ value ∈ values, decode (encode value) = some value) :
    asList? decode (list encode values) = some values := by
  simp only [list, asList?]
  induction values with
  | nil => rfl
  | cons head tail induction =>
      have rest := induction fun value member => inverse value (by simp [member])
      simp [inverse head (by simp), rest]

end Elastic.Json
