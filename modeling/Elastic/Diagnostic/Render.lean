import Elastic.Json.Printer
import Elastic.Diagnostic.Basic

namespace Elastic

inductive DiagnosticFormat
  | text
  | json
deriving DecidableEq, Repr, Inhabited

namespace Severity

def colour : Severity → String
  | .error => "\x1b[1;31m"
  | .warning => "\x1b[1;33m"
  | .note => "\x1b[1;36m"

end Severity

namespace Diagnostic

def header (coloured : Bool) (diagnostic : Diagnostic) : String :=
  let plain := diagnostic.severity.text ++ "[" ++ diagnostic.code.text ++ "]"
  if coloured then diagnostic.severity.colour ++ plain ++ "\x1b[0m" else plain

def scopeLine : Option String → String
  | none => ""
  | some scope => "  --> " ++ scope ++ "\n"

def hintLines (label : String) (hints : List String) : String :=
  String.join (hints.map fun hint => "   = " ++ label ++ ": " ++ hint ++ "\n")

def renderText (coloured : Bool) (diagnostic : Diagnostic) : String :=
  diagnostic.header coloured ++ ": " ++ diagnostic.message ++ "\n" ++
    scopeLine diagnostic.scope ++ hintLines "note" diagnostic.notes ++
    hintLines "help" diagnostic.help

def render (format : DiagnosticFormat) (coloured : Bool) (diagnostic : Diagnostic) : String :=
  match format with
  | .text => diagnostic.renderText coloured
  | .json => diagnostic.toJson.compact

end Diagnostic

end Elastic
