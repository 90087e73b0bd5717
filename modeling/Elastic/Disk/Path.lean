namespace Elastic

/-! Paths as texts. A path is read as its segments between slashes; empty segments and single dots
stand for the directory reached so far. -/

abbrev Path := String

namespace Path

def segmentsOf : List Char → List (List Char)
  | [] => [[]]
  | c :: rest =>
    if c = '/' then [] :: segmentsOf rest
    else
      match segmentsOf rest with
      | [] => [[c]]
      | head :: tail => (c :: head) :: tail

def segments (path : Path) : List String :=
  (segmentsOf path.toList).map String.ofList

def ofSegments (segments : List String) : Path := "/".intercalate segments

def isAbsolute (path : Path) : Bool := path.toList.head? = some '/'

/-- One path after another. An absolute path stands for itself. -/
def join (base path : Path) : Path :=
  if isAbsolute path then path
  else if base.isEmpty || base.toList.getLast? = some '/' then base ++ path
  else base ++ "/" ++ path

def isIdle (segment : String) : Bool := segment.isEmpty || segment = "."

def isUpward (segment : String) : Bool := segment = ".."

def nameLimit : Nat := 255

def isName (segment : String) : Bool :=
  !isIdle segment && !isUpward segment && segment.utf8ByteSize ≤ nameLimit &&
    !segment.toList.contains (Char.ofNat 0)

/-- A relative path that never goes up and names something. -/
def isContained (path : Path) : Bool :=
  !isAbsolute path && !(segments path).any isUpward &&
    ((segments path).head? = some "." || (segments path).any fun segment => !isIdle segment)

def dropTrailingIdle (segments : List String) : List String :=
  (segments.reverse.dropWhile isIdle).reverse

/-- The start of a path that is kept whatever follows, and the segments after it. -/
def splitStart (path : Path) : List String × List String :=
  match segments path with
  | "" :: second :: rest => ([""], second :: rest)
  | "." :: rest => (["."], rest)
  | segments => ([], segments)

def ofStart : List String → List String → Path
  | [""], [] => "/"
  | start, body => ofSegments (start ++ body)

def parent? (path : Path) : Option Path :=
  let (start, body) := splitStart path
  match dropTrailingIdle body with
  | [] => if start = ["."] then some "" else none
  | solid => some (ofStart start (dropTrailingIdle solid.dropLast))

def ancestorsWithin : Nat → Path → List Path
  | 0, path => [path]
  | fuel + 1, path =>
    match parent? path with
    | none => [path]
    | some parent => path :: ancestorsWithin fuel parent

def ancestors (path : Path) : List Path := ancestorsWithin path.length path

def portable (path : Path) : String :=
  String.ofList (path.toList.map fun c => if c = '\\' then '/' else c)

theorem join_absolute {base path : Path} (absolute : isAbsolute path = true) :
    join base path = path := by
  simp [join, absolute]

end Path

end Elastic
