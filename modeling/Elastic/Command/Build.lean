import Elastic.Command.Console

namespace Elastic

namespace BuildCommand

open Commanding

def stages (system : HardwareSystem) :
    Commanding (Except (String × BuildError) Unit × HardwareSystem) := do
  let (outcome, system) ← work system HardwareSystem.generate
  match outcome with
  | .error error => return (.error ("generate", error), system)
  | .ok _ =>
    let (outcome, system) ← work system HardwareSystem.compile
    match outcome with
    | .error error => return (.error ("compile", error), system)
    | .ok _ =>
      let (outcome, system) ← work system HardwareSystem.package
      match outcome with
      | .error error => return (.error ("package", error), system)
      | .ok _ => return (.ok (), system)

def headLines (project : LoadedProject) (system : HardwareSystem) : List String := [
  "   Building " ++ system.name ++ " v" ++ system.version,
  "    Target " ++ project.target.name ++ " (" ++ project.target.backend.text ++ ", " ++
    system.policy.text ++ ")",
  "    Design " ++ project.design.name ++ " (" ++ project.design.top ++ ")"]

def designLines (design : CompiledDesign) : List String := [
  "   Generated " ++ toString design.graph.instances.size ++ " instances of " ++
    toString design.graph.modules.size ++ " modules",
  "    Compiled " ++ toString design.services.builtins.length ++ " builtin(s), " ++
    toString design.services.hosts.length ++ " host endpoint(s), fingerprint " ++
    design.fingerprint.hex]

def fileLine (file : PackagedFile) : String :=
  "             " ++ file.path ++ " (" ++ toString file.size ++ " bytes, " ++ file.hash.hex ++ ")"

def packageLines (verbose : Bool) (report : PackageReport) : List String :=
  ("    Packaged " ++ toString report.files.length ++ " files (" ++ toString report.totalSize ++
    " bytes) into " ++ report.output) ::
  if verbose then report.files.map fileLine else []

def warningLines (warnings : Nat) : List String :=
  if 0 < warnings then ["    Finished with " ++ toString warnings ++ " warning(s)"] else []

def summary (verbose : Bool) (system : HardwareSystem) : List String :=
  (system.compiled.map designLines).getD [] ++
    (system.report.map (packageLines verbose)).getD [] ++ warningLines system.log.warnings

def failureLine (name stage : String) (error : BuildError) : String :=
  "error: could not build `" ++ name ++ "` (" ++ stage ++ " failed: " ++ error.message ++ ")"

def run (invocation : Invocation) (coloured : Bool) (target : Option String)
    (format : DiagnosticFormat) : Commanding Nat := do
  let project ← LoadedProject.load invocation.config target
  if !invocation.retabled then reportAll (headLines project project.system)
  let (outcome, system) ← stages project.system
  match outcome with
  | .error (stage, error) =>
    reportDiagnostics format coloured system
    report (failureLine system.name stage error)
    return 1
  | .ok () =>
    if !invocation.retabled then
      reportDiagnostics format coloured system
      reportAll (summary invocation.verbose system)
    return 0

end BuildCommand

end Elastic
