import Elastic.Build.Generate
import Elastic.Compile.Design
import Elastic.Diagnostic.Log
import Elastic.Package.Write

namespace Elastic

/-! Systems: a top module of a library on its way through the stages generate, compile and package.
Each stage runs once, in order. The first error ends the way: it is noted among the diagnostics,
and no stage runs after it. From the first stage to the last a lock keeps other systems out of the
output directory. -/

structure HardwareSystem where
  name : String
  version : String
  library : Library
  top : String
  backend : Backend
  policy : ArbitrationPolicy
  output : Path
  stage : Stage := .constructed
  queries : Nat := 0
  names : Names := {}
  notes : List Note := []
  log : DiagnosticLog := {}
  generated : Option Graph := none
  compiled : Option CompiledDesign := none
  report : Option PackageReport := none
  holdsLock : Bool := false
deriving Inhabited

structure SystemState where
  system : HardwareSystem
  volume : Volume
deriving Inhabited

abbrev Working (α : Type) := ExceptT BuildError (StateM SystemState) α

namespace HardwareSystem

def defaultVersion : String := "0.0.0"

/-- A system before its first stage. Without a policy of its own it takes that of the backend. -/
def new (name version : String) (library : Library) (top : String) (backend : Backend)
    (policy : Option ArbitrationPolicy) (output : Path) : HardwareSystem where
  name := name
  version := version
  library := library
  top := top
  backend := backend
  policy := policy.getD backend.preset.defaultPolicy
  output := output

def graph? (system : HardwareSystem) : Option Graph :=
  system.generated.or (system.compiled.map (·.graph))

def lockName : String := ".weft.lock"

def lockPath (system : HardwareSystem) : Path := Path.join system.output lockName

def note (system : HardwareSystem) (diagnostic : Diagnostic) : HardwareSystem :=
  { system with log := system.log.emit diagnostic }

end HardwareSystem

namespace Working

open HardwareSystem

def change (update : HardwareSystem → HardwareSystem) : Working Unit :=
  modify fun state => { state with system := update state.system }

def system : Working HardwareSystem := return (← get).system

def store (work : Storing α) : Working (Except BuildError α) := fun state =>
  let (outcome, volume) := work state.volume
  (.ok outcome, { state with volume := volume })

def release : Working Unit := do
  if (← system).holdsLock then
    let path := (← system).lockPath
    discard (store (Storing.consistent (Disk.removeFile path)))
    change fun system => { system with holdsLock := false }

def fail (error : BuildError) : Working α := do
  change fun system => { system.note error.toDiagnostic with stage := .failed }
  release
  throw error

def settle (next : Stage) : Except BuildError α → Working α
  | .error error => fail error
  | .ok value => do
    change fun system => { system with stage := next }
    return value

def enter (operation : String) (expected : Stage) : Working Unit := do
  let stage := (← system).stage
  if stage = expected then return
  else if stage = .failed then fail (.previouslyFailed operation)
  else fail (.outOfSequence operation stage expected)

def lock (output path : Path) : Storing Unit := do
  Storing.call output (Disk.makeDirectories output)
  if (← get).disk.pathExists path then throw (.outputLocked path)
  Storing.call path (Disk.createFile path .empty)

def capabilities : Working Capabilities := do
  let held ← system
  change fun system => { system with queries := system.queries + 1 }
  return held.backend.capabilities held.queries

def elaborate : Working Graph := do
  change fun system => { system with holdsLock := true }
  let capabilities ← capabilities
  let held ← system
  let generation :=
    Elastic.generate ⟨held.library, held.backend.preset, capabilities⟩ held.top
  change fun system => { system with names := generation.names, notes := generation.notes }
  settle .generated generation.outcome

end Working

namespace HardwareSystem

open Working

def generate : Working Graph := do
  change fun system => { system with notes := [] }
  enter "generate" .constructed
  let held ← Working.system
  match ← store (lock held.output held.lockPath) with
  | .error error => fail error
  | .ok () =>
    let graph ← elaborate
    change fun system => { system with generated := some graph }
    return graph

def compileGraph (graph : Graph) : Working (Except BuildError CompiledDesign) := do
  let capabilities ← capabilities
  let held ← Working.system
  let (outcome, warnings) := CompiledDesign.compile held.name held.version graph held.names
    held.backend.preset capabilities held.policy
  change fun system => { system with log := system.log.emitAll warnings }
  return outcome

/-- Compiles a graph that was never generated, beside the stages. This may be done again, and a
failure leaves the design that was compiled before. -/
def compileAside (graph : Graph) : Working CompiledDesign := do
  let design ← MonadExcept.ofExcept (← compileGraph graph)
  change fun system => { system with compiled := some design }
  return design

/-- Compiles the generated graph, which the system gives up even if it fails. -/
def compile : Working CompiledDesign := do
  enter "compile" .generated
  match (← Working.system).generated with
  | none => fail (.internal "generated system has no graph")
  | some graph =>
    change fun system => { system with generated := none }
    let design ← settle .compiled (← compileGraph graph)
    change fun system => { system with compiled := some design }
    return design

def package : Working PackageReport := do
  enter "package" .compiled
  let held ← Working.system
  match held.compiled with
  | none => fail (.internal "compiled system has no design")
  | some design =>
    let outcome ← store (Package.write held.name design.artifacts held.output)
    let report ← settle .packaged outcome
    release
    change fun system => { system with report := some report }
    return report

def build : Working PackageReport := do
  discard generate
  discard compile
  package

end HardwareSystem

end Elastic
