import Elastic.Command.Arguments
import Elastic.Designs
import Elastic.HardwareSystem
import Elastic.Project.Target

namespace Elastic

structure Console where
  volume : Volume
  output : String := ""
  errors : String := ""
deriving Inhabited

abbrev Commanding (α : Type) := ExceptT String (StateM Console) α

namespace Commanding

def print (line : String) : Commanding Unit :=
  modify fun console => { console with output := console.output ++ line ++ "\n" }

def report (line : String) : Commanding Unit :=
  modify fun console => { console with errors := console.errors ++ line ++ "\n" }

def reportAll : List String → Commanding Unit
  | [] => return
  | line :: rest => do
    report line
    reportAll rest

def printAll : List String → Commanding Unit
  | [] => return
  | line :: rest => do
    print line
    printAll rest

def disk : Commanding Disk := return (← get).volume.disk

def lift (describe : ε → String) : Except ε α → Commanding α
  | .ok value => return value
  | .error error => throw (describe error)

def work (system : HardwareSystem) (stages : Working α) :
    Commanding (Except BuildError α × HardwareSystem) := fun console =>
  let (outcome, site) := stages ⟨system, console.volume⟩
  (.ok (outcome, site.system), { console with volume := site.volume })

end Commanding

structure LoadedProject where
  directory : Path
  config : ProjectConfig
  target : ResolvedTarget
  design : DesignEntry

namespace LoadedProject

open Commanding

def findRoot? (disk : Disk) (start : Path) : Option Path :=
  (Path.ancestors start).find? fun directory =>
    disk.pathExists (Path.join directory ProjectConfig.fileName)

def missingRoot (start : Path) : String :=
  "could not find " ++ ProjectConfig.fileName ++ " in " ++ start ++ " or any parent directory"

/-- The directory of the project: where a given project file lies, a given directory itself, or the
nearest one with a project file. -/
def root (config : Option String) : Commanding Path := do
  let held ← disk
  match config with
  | some path => return if held.isFile path then (Path.parent? path).getD "." else path
  | none =>
    match findRoot? held held.currentPath with
    | some directory => return directory
    | none => throw (missingRoot held.currentPath)

def readConfig (disk : Disk) (directory : Path) : Except ConfigError ProjectConfig :=
  match disk.readText? (Path.join directory ProjectConfig.fileName) with
  | none => .error (.unreadable "no such file")
  | some text => ProjectConfig.ofText text

def unknownDesign (name : String) : String :=
  "unknown design '" ++ name ++ "' (available: " ++
    ", ".intercalate (designCatalog.map (·.name)) ++ ")"

def load (config target : Option String) : Commanding LoadedProject := do
  let directory ← root config
  let held ← disk
  let settings ← lift ConfigError.message (readConfig held directory)
  let target ← lift ConfigError.message (settings.resolveTarget target)
  match findDesign? settings.system.design with
  | none => throw (unknownDesign settings.system.design)
  | some design => return ⟨directory, settings, target, design⟩

def system (project : LoadedProject) : HardwareSystem :=
  .new project.config.system.name project.config.system.version project.design.library
    project.design.top (.stock project.target.backend) project.target.policy
    (project.target.outputIn project.directory)

end LoadedProject

namespace Commanding

def reportDiagnostics (format : DiagnosticFormat) (coloured : Bool) (system : HardwareSystem) :
    Commanding Unit :=
  reportAll (system.log.pending.map (Diagnostic.render format coloured))

end Commanding

end Elastic
