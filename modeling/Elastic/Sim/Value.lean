import Elastic.Json.Printer
import Elastic.Json.Reader
import Elastic.Ty.Basic
import Elastic.Sim.Error

namespace Elastic

/-! Simulated values: words of 64 bits, and structures of values in the order of their fields. -/

inductive SimValue
  | bits (word : UInt64)
  | struct (fields : List SimValue)

namespace SimValue

instance : Inhabited SimValue := ⟨.bits 0⟩

mutual
def decEq : (first second : SimValue) → Decidable (first = second)
  | .bits first, .bits second =>
    if equal : first = second then .isTrue (equal ▸ rfl) else .isFalse (by simp [equal])
  | .struct first, .struct second =>
    match decEqFields first second with
    | .isTrue equal => .isTrue (equal ▸ rfl)
    | .isFalse distinct => .isFalse (by simp [distinct])
  | .bits _, .struct _ | .struct _, .bits _ => .isFalse nofun
termination_by structural first => first

def decEqFields : (first second : List SimValue) → Decidable (first = second)
  | [], [] => .isTrue rfl
  | value :: rest, value' :: rest' =>
    match decEq value value' with
    | .isTrue heads =>
      match decEqFields rest rest' with
      | .isTrue tails => .isTrue (by simp [heads, tails])
      | .isFalse distinct => .isFalse (by simp [distinct])
    | .isFalse distinct => .isFalse (by simp [distinct])
  | [], _ :: _ | _ :: _, [] => .isFalse nofun
termination_by structural first => first
end

instance : DecidableEq SimValue := decEq

def ofBool (bit : Bool) : SimValue := .bits (if bit then 1 else 0)

mutual
def zero : Ty → SimValue
  | .struct fields => .struct (zeroFields fields)
  | .clock | .bits _ | .channel _ | .bundle _ => .bits 0
termination_by structural ty => ty

def zeroFields : List (String × Ty) → List SimValue
  | [] => []
  | (_, ty) :: rest => zero ty :: zeroFields rest
termination_by structural fields => fields
end

def isTrue : SimValue → Bool
  | .bits word => word &&& 1 = 1
  | .struct _ => false

def bits? : SimValue → Option UInt64
  | .bits word => some word
  | .struct _ => none

def field? (index : Nat) : SimValue → Option SimValue
  | .bits _ => none
  | .struct fields => fields[index]?

mutual
/-- Whether a value has the shape of a type and each word fits its width. -/
def conforms : SimValue → Ty → Bool
  | .bits word, .bits width => fitsWidth width word
  | .bits word, .clock => word ≤ 1
  | .struct values, .struct fields => conformFields values fields
  | _, _ => false
termination_by structural value => value

def conformFields : List SimValue → List (String × Ty) → Bool
  | [], [] => true
  | value :: values, (_, ty) :: fields => conforms value ty && conformFields values fields
  | _, _ => false
termination_by structural values => values
end

mutual
def text : SimValue → String
  | .bits word => toString word.toNat
  | .struct [] => "\x7b\x7d"
  | .struct (value :: rest) => "\x7b" ++ text value ++ restText rest ++ "\x7d"
termination_by structural value => value

def restText : List SimValue → String
  | [] => ""
  | value :: rest => ", " ++ text value ++ restText rest
termination_by structural values => values
end

mutual
def toJson : SimValue → Json
  | .bits word => .nat word.toNat
  | .struct values => .arr (fieldsJson values)
termination_by structural value => value

def fieldsJson : List SimValue → List Json
  | [] => []
  | value :: rest => toJson value :: fieldsJson rest
termination_by structural values => values
end

def wordOfJson? : Json → Option UInt64
  | .int (.ofNat value) => if value < UInt64.size then some (UInt64.ofNat value) else none
  | _ => none

mutual
/-- A value of a type from JSON: a number, a truth value for a single bit, and for a structure the
values of its fields in order or by name. -/
def ofJson? : Ty → Json → Option SimValue
  | .bits width, .bool bit => if width = 1 then some (ofBool bit) else none
  | .clock, .bool bit => some (ofBool bit)
  | .bits width, json =>
    ((wordOfJson? json).filter (fitsWidth width)).map .bits
  | .clock, json => ((wordOfJson? json).filter (· ≤ 1)).map .bits
  | .struct fields, .arr items => (itemsOfJson? fields items).map .struct
  | .struct fields, .obj members =>
    if members.length = fields.length then (membersOfJson? fields members).map .struct else none
  | _, _ => none
termination_by structural ty => ty

def itemsOfJson? : List (String × Ty) → List Json → Option (List SimValue)
  | [], [] => some []
  | (_, ty) :: fields, item :: items =>
    match ofJson? ty item, itemsOfJson? fields items with
    | some value, some values => some (value :: values)
    | _, _ => none
  | _, _ => none
termination_by structural fields => fields

def membersOfJson? : List (String × Ty) → List (String × Json) → Option (List SimValue)
  | [], _ => some []
  | (name, ty) :: fields, members =>
    match Json.member? name members with
    | none => none
    | some json =>
      match ofJson? ty json, membersOfJson? fields members with
      | some value, some values => some (value :: values)
      | _, _ => none
termination_by structural fields => fields
end

/-- Stands for the message of the JSON parser about a text that is no JSON. -/
def syntaxReason : String := "<json>"

/-- Reads a value of a type from JSON text. Of equal names in an object the last counts. -/
def parse (text : String) (ty : Ty) : Except SimError SimValue :=
  match Json.read? text with
  | none => .error (.invalidValue text ty.text syntaxReason)
  | some json =>
    match ofJson? ty json.sorted with
    | none => .error (.invalidValue text ty.text "shape or width does not match")
    | some value => .ok value

end SimValue

end Elastic
