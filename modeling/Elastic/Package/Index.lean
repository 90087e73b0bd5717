import Elastic.Digest.Content
import Elastic.Disk.Path
import Elastic.Json.Decode
import Elastic.Json.Printer
import Elastic.Json.Reader

namespace Elastic

/-! What a package holds: a report on the files written, and the index that is written beside
them. -/

structure PackagedFile where
  path : Path
  size : Nat
  hash : ContentHash
deriving DecidableEq, Repr

structure PackageReport where
  output : Path
  files : List PackagedFile
deriving DecidableEq, Repr

namespace PackageReport

def totalSize (report : PackageReport) : Nat := (report.files.map (·.size)).foldr (· + ·) 0

end PackageReport

structure IndexEntry where
  path : String
  size : Nat
  hash : String
deriving DecidableEq, Repr

structure PackageIndex where
  system : String
  files : List IndexEntry
deriving DecidableEq, Repr

namespace IndexEntry

def ofFile (file : PackagedFile) : IndexEntry :=
  ⟨Path.portable file.path, file.size, file.hash.hex⟩

def toJson (entry : IndexEntry) : Json :=
  .obj [("path", .str entry.path), ("size", .nat entry.size), ("hash", .str entry.hash)]

def ofJson? (json : Json) : Option IndexEntry := do
  let fields ← Json.asRecord? ["path", "size", "hash"] json
  let path ← Json.required? fields "path" Json.asText?
  let size ← Json.required? fields "size" (Json.asNat? Json.limit64)
  let hash ← Json.required? fields "hash" Json.asText?
  return ⟨path, size, hash⟩

end IndexEntry

namespace PackageIndex

def fileName : String := "weft-package.json"

def toJson (index : PackageIndex) : Json :=
  .obj [("system", .str index.system), ("files", Json.list IndexEntry.toJson index.files)]

def ofJson? (json : Json) : Option PackageIndex := do
  let fields ← Json.asRecord? ["system", "files"] json
  let system ← Json.required? fields "system" Json.asText?
  let files ← Json.required? fields "files" (Json.asList? IndexEntry.ofJson?)
  return ⟨system, files⟩

def ofFiles (system : String) (files : List PackagedFile) : PackageIndex :=
  ⟨system, files.map IndexEntry.ofFile⟩

def text (index : PackageIndex) : String := index.toJson.pretty

def ofText? (text : String) : Option PackageIndex := (Json.read? text).bind ofJson?

end PackageIndex

end Elastic
