import Elastic.Text.Numeral
import Elastic.Json.Decode

namespace Elastic

inductive Severity
  | note
  | warning
  | error
deriving DecidableEq, Repr, Inhabited

namespace Severity

def text : Severity → String
  | .note => "note"
  | .warning => "warning"
  | .error => "error"

def toJson (severity : Severity) : Json := .str severity.text

def ofJson? : Json → Option Severity :=
  Json.asLabel? [("note", .note), ("warning", .warning), ("error", .error)]

end Severity

inductive Category
  | error
  | warning
  | backend
  | pipeline
deriving DecidableEq, Repr, Inhabited

namespace Category

def letter : Category → String
  | .error => "E"
  | .warning => "W"
  | .backend => "B"
  | .pipeline => "P"

def label : Category → String
  | .error => "Error"
  | .warning => "Warning"
  | .backend => "Backend"
  | .pipeline => "Pipeline"

def toJson (category : Category) : Json := .str category.label

def ofJson? : Json → Option Category :=
  Json.asLabel? <| [Category.error, .warning, .backend, .pipeline].map fun category =>
    (category.label, category)

end Category

structure Code where
  category : Category
  number : UInt16
deriving DecidableEq, Repr, Inhabited

namespace Code

def text (code : Code) : String :=
  code.category.letter ++ Text.padded 3 code.number.toNat

def toJson (code : Code) : Json :=
  .obj [("category", code.category.toJson), ("number", .nat code.number.toNat)]

def ofJson? (json : Json) : Option Code := do
  let fields ← Json.asRecord? ["category", "number"] json
  let category ← Json.required? fields "category" Category.ofJson?
  let number ← Json.required? fields "number" (Json.asNat? UInt16.size)
  return ⟨category, UInt16.ofNat number⟩

end Code

structure Diagnostic where
  severity : Severity
  code : Code
  message : String
  scope : Option String := none
  notes : List String := []
  help : List String := []
deriving DecidableEq, Repr, Inhabited

namespace Diagnostic

def isError (diagnostic : Diagnostic) : Bool :=
  diagnostic.severity = .error

def error (code : Code) (message : String) : Diagnostic :=
  { severity := .error, code := code, message := message }

def warning (code : Code) (message : String) : Diagnostic :=
  { severity := .warning, code := code, message := message }

def withScope (diagnostic : Diagnostic) (scope : String) : Diagnostic :=
  { diagnostic with scope := some scope }

def withNote (diagnostic : Diagnostic) (note : String) : Diagnostic :=
  { diagnostic with notes := diagnostic.notes ++ [note] }

def withHelp (diagnostic : Diagnostic) (help : String) : Diagnostic :=
  { diagnostic with help := diagnostic.help ++ [help] }

def danglingChannel (scope payload : String) : Diagnostic :=
  (warning ⟨.warning, 101⟩ ("channel of " ++ payload ++ " is never consumed")).withScope scope
    |>.withNote "its ready signal is tied high, so every transfer is accepted and dropped"

def idleBuiltin (scope tag : String) : Diagnostic :=
  (warning ⟨.warning, 102⟩ ("builtin '" ++ tag ++ "' has no clients")).withScope scope

def toJson (diagnostic : Diagnostic) : Json :=
  .obj [
    ("severity", diagnostic.severity.toJson),
    ("code", diagnostic.code.toJson),
    ("message", .str diagnostic.message),
    ("scope", Json.ofOption .str diagnostic.scope),
    ("notes", Json.list .str diagnostic.notes),
    ("help", Json.list .str diagnostic.help)]

def ofJson? (json : Json) : Option Diagnostic := do
  let fields ← Json.asRecord? ["severity", "code", "message", "scope", "notes", "help"] json
  let severity ← Json.required? fields "severity" Severity.ofJson?
  let code ← Json.required? fields "code" Code.ofJson?
  let message ← Json.required? fields "message" Json.asText?
  let scope ← Json.nullable? fields "scope" Json.asText?
  let notes ← Json.required? fields "notes" (Json.asList? Json.asText?)
  let help ← Json.required? fields "help" (Json.asList? Json.asText?)
  return ⟨severity, code, message, scope, notes, help⟩

end Diagnostic

end Elastic
