import Elastic.Text.Blank
import Elastic.Json.Decode

namespace Elastic

/-! Application identifiers: names, with an index if wanted, that tell the parts of one module
apart. A path of them leads from the root of a design to one of its parts. -/

structure AppId where
  name : String
  index : Option UInt32 := none
deriving DecidableEq, Repr, Inhabited

namespace AppId

def text (id : AppId) : String :=
  match id.index with
  | none => id.name
  | some index => id.name ++ "[" ++ toString index.toNat ++ "]"

/-- Characters that the syntax of paths uses, and blanks, are kept out of names. -/
def isReserved (c : Char) : Bool :=
  c = '.' || c = '[' || c = ']' || Text.isBlank c

def isWellFormed (id : AppId) : Bool :=
  !id.name.isEmpty && !id.name.toList.any isReserved

/-- By name, character by character, then by index with an absent one first. -/
def compare (first second : AppId) : Ordering :=
  (Ord.compare first.name second.name).then <|
    match first.index, second.index with
    | none, none => .eq
    | none, some _ => .lt
    | some _, none => .gt
    | some a, some b => Ord.compare a.toNat b.toNat

def toJson (id : AppId) : Json :=
  match id.index with
  | none => .obj [("name", .str id.name)]
  | some index => .obj [("name", .str id.name), ("index", .nat index.toNat)]

def ofJson? (json : Json) : Option AppId := do
  let fields ← Json.asRecord? ["name", "index"] json
  let name ← Json.required? fields "name" Json.asText?
  let index ← Json.nullable? fields "index" (Json.asNat? Json.limit32)
  return ⟨name, index.map UInt32.ofNat⟩

end AppId

abbrev AppPath := List AppId

namespace AppPath

def text (path : AppPath) : String :=
  ".".intercalate (path.map AppId.text)

def child (path : AppPath) (id : AppId) : AppPath := path ++ [id]

def compare : AppPath → AppPath → Ordering
  | [], [] => .eq
  | [], _ :: _ => .lt
  | _ :: _, [] => .gt
  | a :: rest, b :: rest' => (a.compare b).then (compare rest rest')

def toJson (path : AppPath) : Json := Json.list AppId.toJson path

def ofJson? (json : Json) : Option AppPath := Json.asList? AppId.ofJson? json

end AppPath

end Elastic
