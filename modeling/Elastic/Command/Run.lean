import Elastic.Command.Build
import Elastic.Command.Simulate

namespace Elastic

structure CommandResult where
  code : Nat
  output : String
  errors : String
  disk : Disk
deriving Inhabited

namespace Command

open Commanding Text

def designLine (width : Nat) (design : DesignEntry) : String :=
  padRight width design.name ++ "  top " ++ padRight 6 design.top ++ "  " ++ design.summary

def designLines : List String :=
  let width := (designCatalog.map (·.name.length)).foldl max 0
  designCatalog.map (designLine width)

def backendLine (preset : BackendPreset) : String :=
  padRight 6 preset.text ++ " host channels: " ++
    padRight 3 (if preset.capabilities.hostChannels then "yes" else "no") ++
    "  arbitration: " ++ padRight 14 preset.defaultPolicy.text ++
    "  builtins: " ++ ", ".intercalate preset.capabilities.builtins

def backendLines : List String := BackendPreset.all.map backendLine

def colours (terminal : Bool) : ColourChoice → Bool
  | .auto => terminal
  | .always => true
  | .never => false

def dispatch (terminal : Bool) (invocation : Invocation) : Commanding Nat := do
  let coloured := colours terminal invocation.colour
  match invocation.command with
  | .build target format => BuildCommand.run invocation coloured target format
  | .simulate target cycles pokes inputs =>
    SimulateCommand.run invocation coloured target cycles pokes inputs
  | .designs => printAll designLines; return 0
  | .backends => printAll backendLines; return 0

def usage : String :=
  "usage: weft [--quiet] [--verbose] [--color WHEN] [--config PATH] build|sim|designs|backends\n"

def usageCode : Nat := 2

/-- Runs a command line. `terminal` tells whether what is reported goes to a terminal. -/
def run (terminal : Bool) (arguments : List String) (disk : Disk) : CommandResult :=
  match Arguments.parse? arguments with
  | none => ⟨usageCode, "", usage, disk⟩
  | some invocation =>
    match dispatch terminal invocation { volume := { disk := disk } } with
    | (.ok code, console) => ⟨code, console.output, console.errors, console.volume.disk⟩
    | (.error message, console) =>
      ⟨1, console.output, console.errors ++ "error: " ++ message ++ "\n", console.volume.disk⟩

end Command

end Elastic
