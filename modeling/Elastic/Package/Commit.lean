import Elastic.Package.Index
import Elastic.Package.Volume

namespace Elastic

/-! Moving a staged package into place. Every file that a move would replace is set aside first, so
that a failure puts the earlier package back. -/

/-- A volume with a journal of the moves made on it, the newest first. -/
structure Commit where
  volume : Volume
  /-- The paths that hold new content. -/
  placed : List Path := []
  /-- The paths whose earlier content is set aside. -/
  saved : List Path := []
  /-- The saved paths that the new package has nothing for. -/
  pruned : List Path := []
deriving DecidableEq, Inhabited

abbrev Committing (α : Type) := ExceptT BuildError (StateM Commit) α

namespace Commit

def stagingName : String := ".weft-staging"

def backupName : String := ".weft-backup"

def staging (output : Path) : Path := Path.join output stagingName

def backup (output : Path) : Path := Path.join output backupName

def onVolume (work : Storing α) : Committing α := fun commit =>
  let (outcome, volume) := work commit.volume
  (outcome, { commit with volume := volume })

/-- Moves a file of the output directory to the backup; tells whether there was one. What cannot be
asked about is taken to be missing. -/
def setAside (output path : Path) : Committing Bool := do
  let held := Path.join output path
  if ← onVolume (Storing.ask false fun disk => disk.isFile held) then
    let saved := Path.join (backup output) path
    onVolume (Storing.makeParent saved)
    onVolume (Storing.call held (Disk.moveFile held saved))
    modify fun commit => { commit with saved := path :: commit.saved }
    return true
  else return false

def place (output path : Path) : Committing Unit := do
  discard (setAside output path)
  let target := Path.join output path
  onVolume (Storing.makeParent target)
  onVolume (Storing.call target (Disk.moveFile (Path.join (staging output) path) target))
  modify fun commit => { commit with placed := path :: commit.placed }

def prune (output path : Path) : Committing Unit := do
  if ← setAside output path then
    modify fun commit => { commit with pruned := path :: commit.pruned }

def placeAll (output : Path) : List Path → Committing Unit
  | [] => return
  | path :: rest => do
    place output path
    placeAll output rest

def pruneAll (output : Path) : List Path → Committing Unit
  | [] => return
  | path :: rest => do
    prune output path
    pruneAll output rest

/-- All moves of a commit. No index stands in the output directory while they are made. -/
def moves (output : Path) (files stale : List Path) : Committing Unit := do
  discard (setAside output PackageIndex.fileName)
  placeAll output files
  pruneAll output (stale.filter fun path => !(files.map Path.portable).contains
    (Path.portable path))
  place output PackageIndex.fileName

def removeEmptied (output : Path) : List Path → Disk → Disk
  | [], disk => disk
  | path :: rest, disk =>
    match disk.removeEmptyDirectory (Path.join output path) with
    | none => disk
    | some disk => removeEmptied output rest disk

def directoriesOf (path : Path) : List Path :=
  (Path.ancestors path).tail.takeWhile fun directory => !directory.isEmpty

def finish (output : Path) (commit : Commit) : Disk :=
  let disk := commit.volume.disk
  let cleared := (disk.removeTree (backup output)).getD disk
  commit.pruned.reverse.foldl (fun disk path => removeEmptied output (directoriesOf path) disk)
    cleared

def withdraw (output : Path) (disk : Disk) (path : Path) : Disk :=
  (disk.removeFile (Path.join output path)).getD disk

def restore (output : Path) (disk : Disk) (path : Path) : Disk :=
  (disk.moveFile (Path.join (backup output) path) (Path.join output path)).getD disk

/-- The disk of a commit that failed, with the new content removed and the earlier content put
back. -/
def rollBack (output : Path) (commit : Commit) : Disk :=
  let withdrawn := commit.placed.foldl (withdraw output) commit.volume.disk
  let restored := commit.saved.foldl (restore output) withdrawn
  (restored.removeTree (backup output)).getD restored

def listedFiles (output : Path) (disk : Disk) : List Path :=
  match (disk.readText? (Path.join output PackageIndex.fileName)).bind PackageIndex.ofText? with
  | none => []
  | some index => (index.files.map (·.path)).filter Path.isContained

def clearBackup (output : Path) : Storing Unit := do
  if ← Storing.ask false fun disk => disk.pathExists (backup output) then
    Storing.call (backup output) (Disk.removeTree (backup output))

/-- Moves the staged files to their places, or leaves everything as it was. -/
def run (output : Path) (files : List Path) : Storing Unit := do
  let stale ← Storing.ask [] (listedFiles output)
  clearBackup output
  let (outcome, commit) := moves output files stale { volume := ← get }
  match outcome with
  | .ok () => set { commit.volume with disk := finish output commit }
  | .error error =>
    set { commit.volume with disk := rollBack output commit }
    throw error

end Commit

end Elastic
