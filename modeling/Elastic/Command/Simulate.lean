import Elastic.Command.Console
import Elastic.Command.Stimulus
import Elastic.Sim.Simulator

namespace Elastic

namespace SimulateCommand

open Commanding

def compiled : Working CompiledDesign := do
  discard HardwareSystem.generate
  HardwareSystem.compile

def applyPokes (sim : Simulator) : List String → Except String Simulator
  | [] => .ok sim
  | text :: rest => do
    let poke ← Stimulus.poke text.toList
    let sim ← (sim.pokeMemory poke.path poke.address (.bits poke.value)).mapError SimError.message
    applyPokes sim rest

def applyInputs (sim : Simulator) : List String → Except String Simulator
  | [] => .ok sim
  | text :: rest => do
    let (name, value) ← Stimulus.assignment text.toList
    let sim ← (sim.setInput (String.ofList name) (.bits value)).mapError SimError.message
    applyInputs sim rest

def simulate (design : CompiledDesign) (policy : ArbitrationPolicy) (cycles : Nat)
    (pokes inputs : List String) : Except String (RunResult × Simulator) := do
  let sim ← (Simulator.withPolicy design policy).mapError SimError.message
  let sim ← applyPokes sim pokes
  let sim ← applyInputs sim inputs
  match sim.run cycles with
  | (.error error, _) => .error error.message
  | (.ok result, sim) => .ok (result, sim)

def wordLine (word : SimValue) (address : Nat) : String :=
  "  [" ++ toString address ++ "] " ++ word.text

def memoryLines (sim : Simulator) (path : String) : List String :=
  let words := match sim.memory path with
    | .ok words => words.toList
    | .error _ => []
  (path ++ ":") :: words.zipIdx.map fun (word, address) => wordLine word address

def violationLine (violation : Violation) : String :=
  "warning: handshake violation at " ++ violation.text

def resultLine (result : RunResult) : String :=
  "    Finished " ++ toString result.cycles ++ " cycles, " ++ toString result.transfers ++
    " transfers, " ++ toString result.violations ++ " violation(s)"

def headLine (project : LoadedProject) (cycles : Nat) : String :=
  "  Simulating " ++ project.config.system.name ++ " (" ++ project.target.name ++ ", " ++
    toString cycles ++ " cycles)"

def failureLine (name : String) (error : BuildError) : String :=
  "error: could not compile `" ++ name ++ "`: " ++ error.message

def abandon (system : HardwareSystem) : Commanding Unit :=
  discard (work system Working.release)

def run (invocation : Invocation) (coloured : Bool) (target : Option String)
    (cycles : Option Nat) (pokes inputs : List String) : Commanding Nat := do
  let project ← LoadedProject.load invocation.config target
  let cycles := cycles.getD project.config.maxCycles
  if !invocation.retabled then report (headLine project cycles)
  let (outcome, system) ← work project.system compiled
  match outcome with
  | .error error =>
    reportDiagnostics .text coloured system
    report (failureLine system.name error)
    return 1
  | .ok design =>
    abandon system
    let (result, sim) ← lift id (simulate design system.policy cycles pokes inputs)
    printAll ((sim.state.memories.map (·.path)).flatMap (memoryLines sim))
    reportAll (sim.violations.map violationLine)
    if !invocation.retabled then report (resultLine result)
    return if sim.violations.isEmpty then 0 else 1

end SimulateCommand

end Elastic
