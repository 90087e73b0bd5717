namespace Elastic

/-! TOML values. Tables keep their members in the order in which they first stand, and the way in
which they came to be, which decides what may be added to them. -/

namespace Toml

/-- How a table came to be: under a header of its own, as a step on the way to a header, as a step
of a dotted key, or between braces. -/
inductive Origin
  | header
  | implied
  | dotted
  | inline
deriving DecidableEq, Repr, Inhabited

end Toml

inductive Toml
  | string (value : String)
  | integer (value : Int)
  | real (literal : String)
  | boolean (value : Bool)
  | moment (literal : String)
  | array (items : List Toml)
  | table (origin : Toml.Origin) (members : List (String × Toml))
  | tables (elements : List (List (String × Toml)))

namespace Toml

instance : Inhabited Toml := ⟨.boolean false⟩

abbrev Members := List (String × Toml)

def member? (key : String) (members : Members) : Option Toml :=
  (members.find? (·.1 = key)).map (·.2)

def replace (key : String) (value : Toml) (members : Members) : Members :=
  members.map fun member => if member.1 = key then (key, value) else member

def freshOrigin (dotted : Bool) : Origin := if dotted then .dotted else .implied

/-- Whether keys on the way to another may lead through a table. A dotted key leads through no
table that was written out, and nothing leads through braces. -/
def allowsPassage (dotted : Bool) : Origin → Bool
  | .header => !dotted
  | .implied | .dotted => true
  | .inline => false

/-- Changes the table at the end of some keys, making the tables on the way that are not there. An
array of tables is entered at its latest element. -/
def alter (dotted : Bool) (change : Origin → Members → Option Members) :
    List String → Origin → Members → Option Members
  | [], origin, members => change origin members
  | key :: keys, _, members =>
    match member? key members with
    | none =>
      (alter dotted change keys (freshOrigin dotted) []).map fun inner =>
        members ++ [(key, .table (freshOrigin dotted) inner)]
    | some (.table origin inner) =>
      if allowsPassage dotted origin then
        (alter dotted change keys origin inner).map fun inner =>
          replace key (.table origin inner) members
      else none
    | some (.tables elements) =>
      match elements.getLast? with
      | none => none
      | some latest =>
        (alter dotted change keys .header latest).map fun latest =>
          replace key (.tables (elements.dropLast ++ [latest])) members
    | some _ => none

def add (key : String) (value : Toml) (members : Members) : Option Members :=
  if (member? key members).isSome then none else some (members ++ [(key, value)])

/-- Assigns to a key, dotted if there are keys on the way. Dotted keys add to tables of dotted keys
only, and plain keys to all others. -/
def assign (way : List String) (key : String) (value : Toml) (members : Members) :
    Option Members :=
  alter true
    (fun origin inner =>
      if (origin = .dotted) = way.isEmpty then none else add key value inner)
    way .header members

def openTable (key : String) (members : Members) : Option Members :=
  match member? key members with
  | none => some (members ++ [(key, .table .header [])])
  | some (.table .implied inner) => some (replace key (.table .header inner) members)
  | some _ => none

def openElement (key : String) (members : Members) : Option Members :=
  match member? key members with
  | none => some (members ++ [(key, .tables [[]])])
  | some (.tables elements) => some (replace key (.tables (elements ++ [[]])) members)
  | some _ => none

def openHeader (element : Bool) (keys : List String) (members : Members) : Option Members :=
  match keys.getLast? with
  | none => none
  | some key =>
    alter false (fun _ inner => if element then openElement key inner else openTable key inner)
      keys.dropLast .header members

def assignUnder (header way : List String) (key : String) (value : Toml) (members : Members) :
    Option Members :=
  alter false (fun _ inner => assign way key value inner) header .header members

end Toml

end Elastic
