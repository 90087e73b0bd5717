import Elastic.Compile.Artifact
import Elastic.Package.Commit

namespace Elastic

/-! Packaging: the files of a design and their index are staged in the output directory, and moved
into place when all of them are there. -/

namespace Package

def escapeFault (path : Path) : BuildError :=
  .internal ("artifact path " ++ path ++ " escapes the output directory")

def packaged (artifact : Artifact) : PackagedFile where
  path := artifact.path
  size := artifact.contents.size
  hash := ContentHash.ofBytes artifact.contents

def stageEach (staging : Path) : List Artifact → Storing Unit
  | [] => return
  | artifact :: rest => do
    if !Path.isContained artifact.path then throw (escapeFault artifact.path)
    Storing.store (Path.join staging artifact.path) artifact.contents
    stageEach staging rest

def clearStaging (staging : Path) : Storing Unit := do
  if ← Storing.ask false fun disk => disk.pathExists staging then
    Storing.call staging (Disk.removeTree staging)

def stage (system : String) (artifacts : List Artifact) (staging : Path) :
    Storing (List PackagedFile) := do
  clearStaging staging
  stageEach staging artifacts
  let files := artifacts.map packaged
  Storing.store (Path.join staging PackageIndex.fileName)
    (PackageIndex.ofFiles system files).text.toUTF8
  return files

def stageAndCommit (system : String) (artifacts : List Artifact) (output : Path) :
    Storing PackageReport := do
  let files ← stage system artifacts (Commit.staging output)
  Commit.run output (files.map (·.path))
  return ⟨output, files⟩

/-- Writes a package. The staging directory is gone afterwards, whatever happened. -/
def write (system : String) (artifacts : List Artifact) (output : Path) :
    Storing PackageReport := do
  let outcome ← ExceptT.lift (stageAndCommit system artifacts output).run
  Storing.consistent (Disk.removeTree (Commit.staging output))
  match outcome with
  | .ok report => return report
  | .error error => throw error

end Package

end Elastic
