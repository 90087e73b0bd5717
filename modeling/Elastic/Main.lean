import Elastic.Command.Run

/-! The command line on a real file system. The part that a command works on is read into a disk,
the command runs there, and what it changed is written back. -/

namespace Elastic.Loading

def node? (location : Location) : IO (Option Node) := do
  try
    let found ← IO.FS.realPath ("/" ++ Path.ofSegments location)
    if ← found.isDir then return some .directory
    return some (.file (← IO.FS.readBinFile found))
  catch _ => return none

def names (location : Location) : IO (List String) := do
  try
    let found ← IO.FS.realPath ("/" ++ Path.ofSegments location)
    return (← found.readDir).toList.map (·.fileName)
  catch _ => return []

def entry (location : Location) (disk : Disk) : IO Disk := do
  match ← node? location with
  | some node => return disk.put location node
  | none => return disk

def along (disk : Disk) : Location → List String → IO Disk
  | _, [] => return disk
  | location, segment :: rest => do
    if Path.isIdle segment then along disk location rest
    else if Path.isUpward segment then along disk location.dropLast rest
    else along (← entry (location ++ [segment]) disk) (location ++ [segment]) rest

def path (path : Path) (disk : Disk) : IO Disk :=
  along disk (disk.start path) (Path.segments path)

partial def tree (location : Location) (disk : Disk) : IO Disk := do
  let disk ← entry location disk
  if disk.isDirectoryAt location then
    let mut held := disk
    for name in ← names location do
      held ← tree (location ++ [name]) held
    return held
  else return disk

/-- Reads the project files that a command line can mean: those in and beside the place it names, or
those in the current directory and around it. -/
def projects (config : Option String) (disk : Disk) : IO Disk := do
  match config with
  | some given =>
    let beside := (Path.parent? given).getD "."
    path (Path.join beside ProjectConfig.fileName)
      (← path (Path.join given ProjectConfig.fileName) disk)
  | none =>
    let mut held := disk
    for directory in Path.ancestors disk.currentPath do
      held ← path (Path.join directory ProjectConfig.fileName) held
    return held

def targetOf : Command → Option String
  | .build target _ | .simulate target _ _ _ => target
  | .designs | .backends => none

def output (invocation : Invocation) (disk : Disk) : IO Disk := do
  let loading := LoadedProject.load invocation.config (targetOf invocation.command)
  match loading { volume := { disk := disk } } with
  | (.error _, _) => return disk
  | (.ok project, _) =>
    let disk ← path project.system.output disk
    match disk.locate? project.system.output with
    | some location => tree location disk
    | none => return disk

def disk (arguments : List String) : IO Disk := do
  let here := (← IO.currentDir).toString
  let start : Disk := { current := (Path.segments here).filter fun name => !Path.isIdle name }
  match Arguments.parse? arguments with
  | none => return start
  | some invocation => output invocation (← projects invocation.config (← path here start))

end Elastic.Loading

namespace Elastic.Saving

def removals (before after : Disk) : IO Unit := do
  let gone := before.entries.filter fun entry => after.node? entry.1 ≠ some entry.2
  for (location, node) in gone.mergeSort fun first second => second.1.length ≤ first.1.length do
    let place := "/" ++ Path.ofSegments location
    match node with
    | .file _ => IO.FS.removeFile place
    | .directory => IO.FS.removeDir place

def additions (before after : Disk) : IO Unit := do
  let made := after.entries.filter fun entry => before.node? entry.1 ≠ some entry.2
  for (location, node) in made.mergeSort fun first second => first.1.length ≤ second.1.length do
    let place := "/" ++ Path.ofSegments location
    match node with
    | .file contents => IO.FS.writeBinFile place contents
    | .directory => IO.FS.createDirAll place

/-- Writes back what a command changed. -/
def changes (before after : Disk) : IO Unit := do
  removals before after
  additions before after

end Elastic.Saving

open Elastic in
def main (arguments : List String) : IO UInt32 := do
  let before ← Loading.disk arguments
  let errors ← IO.getStderr
  let result := Command.run (← errors.isTty) arguments before
  Saving.changes before result.disk
  (← IO.getStdout).putStr result.output
  errors.putStr result.errors
  return UInt32.ofNat result.code
