import Elastic.Json.Decode

namespace Elastic

/-! Notes attached to a module: a version and free entries, kept in the order of their keys. -/

structure Metadata where
  version : Option String := none
  entries : List (String × Json) := []
deriving Inhabited

namespace Metadata

def empty : Metadata := {}

def withVersion (metadata : Metadata) (version : String) : Metadata :=
  { metadata with version := some version }

def withEntry (metadata : Metadata) (key : String) (value : Json) : Metadata :=
  { metadata with entries := Json.insertSorted key value.sorted metadata.entries }

def toJson (metadata : Metadata) : Json :=
  .obj <|
    (match metadata.version with
      | none => []
      | some version => [("version", .str version)]) ++
    if metadata.entries.isEmpty then [] else [("misc", .obj metadata.entries)]

def entriesOfJson? : Json → Option (List (String × Json))
  | .obj members => some (Json.sortedMembers members [])
  | _ => none

def ofJson? (json : Json) : Option Metadata := do
  let fields ← Json.asRecord? ["version", "misc"] json
  let version ← Json.nullable? fields "version" Json.asText?
  let entries ← Json.optional? fields "misc" [] entriesOfJson?
  return ⟨version, entries⟩

end Metadata

end Elastic
