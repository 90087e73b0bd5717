import Elastic.Disk.Path

namespace Elastic

/-! A disk of regular files and directories. Every operation either does its job or is refused and
changes nothing. -/

abbrev Location := List String

instance contentsDecidableEq : DecidableEq ByteArray := ByteArray.instDecidableEq

inductive Node
  | file (contents : ByteArray)
  | directory
deriving DecidableEq, Inhabited

/-- The entries of a disk in no particular order, with the directory in which relative paths
start. -/
structure Disk where
  entries : List (Location × Node) := []
  current : Location := []
deriving DecidableEq, Inhabited

namespace Disk

def empty : Disk := {}

def node? (disk : Disk) : Location → Option Node
  | [] => some .directory
  | location => (disk.entries.find? (·.1 = location)).map (·.2)

def isDirectoryAt (disk : Disk) (location : Location) : Bool :=
  disk.node? location = some .directory

def put (disk : Disk) (location : Location) (node : Node) : Disk :=
  { disk with entries := (location, node) :: disk.entries.filter (·.1 ≠ location) }

def erase (disk : Disk) (location : Location) : Disk :=
  { disk with entries := disk.entries.filter (·.1 ≠ location) }

def eraseTree (disk : Disk) (location : Location) : Disk :=
  { disk with entries := disk.entries.filter fun entry => !location.isPrefixOf entry.1 }

def below (disk : Disk) (location : Location) : List (Location × Node) :=
  disk.entries.filterMap fun (place, node) =>
    match location.isPrefixOf? place with
    | some (name :: rest) => some (name :: rest, node)
    | _ => none

def start (disk : Disk) (path : Path) : Location :=
  if Path.isAbsolute path then [] else disk.current

def enter? (disk : Disk) (location : Location) (segment : String) : Option Location :=
  if !disk.isDirectoryAt location then none
  else if Path.isIdle segment then some location
  else if Path.isUpward segment then some location.dropLast
  else if (disk.node? (location ++ [segment])).isSome then some (location ++ [segment])
  else none

def walk? (disk : Disk) : Location → List String → Option Location
  | location, [] => some location
  | location, segment :: rest =>
    match disk.enter? location segment with
    | none => none
    | some next => walk? disk next rest

/-- The location of an entry that exists. The empty path names nothing. -/
def locate? (disk : Disk) (path : Path) : Option Location :=
  if path.isEmpty then none else disk.walk? (disk.start path) (Path.segments path)

/-- The location at which a path can name an entry, whether there is one or not: its last segment
is a name, and the segments before it lead to a directory. -/
def slot? (disk : Disk) (path : Path) : Option Location :=
  match (Path.segments path).reverse with
  | [] => none
  | name :: inner =>
    if !Path.isName name then none
    else
      match disk.walk? (disk.start path) inner.reverse with
      | none => none
      | some location => if disk.isDirectoryAt location then some (location ++ [name]) else none

def nodeOf? (disk : Disk) (path : Path) : Option Node :=
  (disk.locate? path).bind disk.node?

def pathExists (disk : Disk) (path : Path) : Bool := (disk.locate? path).isSome

def isFile (disk : Disk) (path : Path) : Bool :=
  match disk.nodeOf? path with
  | some (.file _) => true
  | _ => false

def readFile? (disk : Disk) (path : Path) : Option ByteArray :=
  match disk.nodeOf? path with
  | some (.file contents) => some contents
  | _ => none

def readText? (disk : Disk) (path : Path) : Option String :=
  (disk.readFile? path).bind String.fromUTF8?

def currentPath (disk : Disk) : Path := "/" ++ Path.ofSegments disk.current

def makeAlong (disk : Disk) : Location → List String → Option Disk
  | location, [] => if disk.isDirectoryAt location then some disk else none
  | location, segment :: rest =>
    match disk.enter? location segment with
    | some next => makeAlong disk next rest
    | none =>
      if disk.isDirectoryAt location && Path.isName segment then
        makeAlong (disk.put (location ++ [segment]) .directory) (location ++ [segment]) rest
      else none

def makeDirectories (path : Path) (disk : Disk) : Option Disk :=
  if path.isEmpty then some disk else disk.makeAlong (disk.start path) (Path.segments path)

def writeFile (path : Path) (contents : ByteArray) (disk : Disk) : Option Disk :=
  match disk.slot? path with
  | none => none
  | some location =>
    if disk.isDirectoryAt location then none else some (disk.put location (.file contents))

def createFile (path : Path) (contents : ByteArray) (disk : Disk) : Option Disk :=
  match disk.slot? path with
  | none => none
  | some location =>
    if (disk.node? location).isSome then none else some (disk.put location (.file contents))

def moveFile (source target : Path) (disk : Disk) : Option Disk :=
  match disk.locate? source, disk.slot? target with
  | some origin, some location =>
    match disk.node? origin with
    | some (.file contents) =>
      if disk.isDirectoryAt location then none
      else some ((disk.erase origin).put location (.file contents))
    | _ => none
  | _, _ => none

def removeFile (path : Path) (disk : Disk) : Option Disk :=
  match disk.locate? path with
  | none => none
  | some location =>
    match disk.node? location with
    | some (.file _) => some (disk.erase location)
    | _ => none

def removeEmptyDirectory (path : Path) (disk : Disk) : Option Disk :=
  if (Path.segments path).getLast? = some "." then none
  else
    match disk.locate? path with
    | none => none
    | some location =>
      if !location.isEmpty && disk.isDirectoryAt location && (disk.below location).isEmpty then
        some (disk.erase location)
      else none

def removeTree (path : Path) (disk : Disk) : Option Disk :=
  match disk.locate? path with
  | none => none
  | some location =>
    if !location.isEmpty && disk.isDirectoryAt location then some (disk.eraseTree location)
    else none

def remove (path : Path) (disk : Disk) : Option Disk :=
  (removeFile path disk).or (removeTree path disk)

def settleIn (path : Path) (disk : Disk) : Option Disk :=
  (makeDirectories path disk).bind fun made =>
    (made.locate? path).map fun location => { made with current := location }

/-- An entry as listings show it: the path from the listed directory, with a slash after that of a
directory, and the contents of a file. -/
def listed : Location × Node → String × Option ByteArray
  | (location, .directory) => (Path.ofSegments location ++ "/", none)
  | (location, .file contents) => (Path.ofSegments location, some contents)

def listing (disk : Disk) (path : Path) : List (String × Option ByteArray) :=
  match disk.locate? path with
  | none => []
  | some location =>
    ((disk.below location).map listed).mergeSort fun first second => decide (first.1 ≤ second.1)

theorem readText?_eq_some {disk : Disk} {path : Path} {text : String} :
    disk.readText? path = some text ↔ disk.readFile? path = some text.toUTF8 := by
  unfold readText? String.fromUTF8?
  constructor
  · intro read
    obtain ⟨contents, found, read⟩ := Option.bind_eq_some_iff.1 read
    split at read
    · cases read
      exact found
    · cases read
  · intro found
    rw [found]
    exact dif_pos text.isValidUTF8

theorem node?_put (disk : Disk) {location : Location} (other : Location) (node : Node)
    (inner : location ≠ []) :
    (disk.put location node).node? other =
      if other = location then some node else disk.node? other := by
  cases other with
  | nil => simp [node?, Ne.symm inner]
  | cons name rest =>
    simp only [node?, put, List.find?_cons, List.find?_filter]
    by_cases same : location = name :: rest
    · simp [same]
    · have distinct : ¬ (name :: rest = location) := fun equality => same equality.symm
      simp only [same, decide_false, distinct, if_false]
      congr 2
      funext entry
      by_cases found : entry.1 = name :: rest <;> simp [found, distinct]

theorem node?_erase (disk : Disk) {location : Location} (other : Location)
    (inner : location ≠ []) :
    (disk.erase location).node? other =
      if other = location then none else disk.node? other := by
  cases other with
  | nil => simp [node?, Ne.symm inner]
  | cons name rest =>
    simp only [node?, erase, List.find?_filter]
    by_cases same : name :: rest = location
    · simp [same]
    · simp only [same, if_false]
      congr 2
      funext entry
      by_cases found : entry.1 = name :: rest <;> simp [found, same]

end Disk

end Elastic
