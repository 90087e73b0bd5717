import Elastic.Diagnostic.Render
import Elastic.Text.Numeral

namespace Elastic

/-! Command lines. General options may stand before or after the name of the command, those of the
command only after it. -/

inductive ColourChoice
  | auto
  | always
  | never
deriving DecidableEq, Repr, Inhabited

inductive Command
  | build (target : Option String) (format : DiagnosticFormat)
  | simulate (target : Option String) (cycles : Option Nat) (pokes inputs : List String)
  | designs
  | backends
deriving DecidableEq, Repr, Inhabited

structure Invocation where
  retabled : Bool
  verbose : Bool
  colour : ColourChoice
  config : Option String
  command : Command
deriving DecidableEq, Repr, Inhabited

inductive Flag
  | retabled
  | verbose
  | colour
  | config
  | target
  | format
  | cycles
  | poke
  | input
deriving DecidableEq, Repr, Inhabited

namespace Flag

def all : List Flag :=
  [.retabled, .verbose, .colour, .config, .target, .format, .cycles, .poke, .input]

def longName : Flag → String
  | .retabled => "quiet"
  | .verbose => "verbose"
  | .colour => "color"
  | .config => "config"
  | .target => "target"
  | .format => "format"
  | .cycles => "cycles"
  | .poke => "poke"
  | .input => "input"

def shortName? : Flag → Option Char
  | .retabled => some 'q'
  | .verbose => some 'v'
  | .target => some 't'
  | .format => some 'f'
  | .colour | .config | .cycles | .poke | .input => none

def takesValue : Flag → Bool
  | .retabled | .verbose => false
  | .colour | .config | .target | .format | .cycles | .poke | .input => true

def isRepeatable : Flag → Bool
  | .poke | .input => true
  | .retabled | .verbose | .colour | .config | .target | .format | .cycles => false

def isGeneral : Flag → Bool
  | .retabled | .verbose | .colour | .config => true
  | .target | .format | .cycles | .poke | .input => false

def cycleLimit : Nat := UInt64.size

def colour? : String → Option ColourChoice
  | "auto" => some .auto
  | "always" => some .always
  | "never" => some .never
  | _ => none

def format? : String → Option DiagnosticFormat
  | "text" => some .text
  | "json" => some .json
  | _ => none

def cycles? (text : String) : Option Nat :=
  match Text.readNumeral 10 cycleLimit text.toList with
  | .ok value => some value
  | .error _ => none

def admits (flag : Flag) (value : String) : Bool :=
  match flag with
  | .colour => (colour? value).isSome
  | .format => (format? value).isSome
  | .cycles => (cycles? value).isSome
  | .retabled | .verbose | .config | .target | .poke | .input => true

end Flag

structure Occurrence where
  flag : Flag
  value : String := ""
deriving DecidableEq, Repr, Inhabited

/-- What an argument is: a word, or flags, the last of which may wait for its value. -/
inductive Reading
  | word
  | flags (occurrences : List Occurrence)
  | waiting (occurrences : List Occurrence) (flag : Flag)
deriving DecidableEq, Repr

namespace Arguments

def byLongName? (allowed : Flag → Bool) (name : String) : Option Flag :=
  (Flag.all.filter allowed).find? (·.longName = name)

def byShortName? (allowed : Flag → Bool) (name : Char) : Option Flag :=
  (Flag.all.filter allowed).find? (·.shortName? = some name)

def readLong? (allowed : Flag → Bool) (text : List Char) : Option Reading :=
  match Text.splitFirst? '=' text with
  | some (name, value) =>
    (byLongName? allowed (String.ofList name)).bind fun flag =>
      if flag.takesValue then some (.flags [⟨flag, String.ofList value⟩]) else none
  | none =>
    (byLongName? allowed (String.ofList text)).map fun flag =>
      if flag.takesValue then .waiting [] flag else .flags [⟨flag, ""⟩]

def Reading.after (first : Occurrence) : Reading → Reading
  | .word => .word
  | .flags rest => .flags (first :: rest)
  | .waiting rest flag => .waiting (first :: rest) flag

def readShort? (allowed : Flag → Bool) : List Char → Option Reading
  | [] => some (.flags [])
  | name :: rest =>
    match byShortName? allowed name with
    | none => none
    | some flag =>
      if flag.takesValue then
        match rest with
        | [] => some (.waiting [] flag)
        | '=' :: value => some (.flags [⟨flag, String.ofList value⟩])
        | value => some (.flags [⟨flag, String.ofList value⟩])
      else (readShort? allowed rest).map (Reading.after ⟨flag, ""⟩)

def read? (allowed : Flag → Bool) (argument : String) : Option Reading :=
  match argument.toList with
  | '-' :: '-' :: rest => readLong? allowed rest
  | ['-'] => some .word
  | '-' :: rest => readShort? allowed rest
  | _ => some .word

def isValue (argument : String) : Bool :=
  argument = "-" || argument.toList.head? ≠ some '-'

/-- The flags in front, and the arguments from the first word on. Nothing may follow two dashes. -/
def scan? (allowed : Flag → Bool) : List String → Option (List Occurrence × List String)
  | [] => some ([], [])
  | argument :: rest =>
    if argument = "--" then if rest.isEmpty then some ([], []) else none
    else
      match read? allowed argument with
      | none => none
      | some .word => some ([], argument :: rest)
      | some (.flags first) =>
        (scan? allowed rest).map fun (others, rest) => (first ++ others, rest)
      | some (.waiting first flag) =>
        match rest with
        | [] => none
        | value :: rest =>
          if isValue value then
            (scan? allowed rest).map fun (others, rest) => (first ++ ⟨flag, value⟩ :: others, rest)
          else none

def areProper (occurrences : List Occurrence) : Bool :=
  occurrences.all (fun given => given.flag.admits given.value) &&
    Flag.all.all fun flag =>
      flag.isRepeatable || (occurrences.filter (·.flag = flag)).length ≤ 1

def valuesOf (flag : Flag) (occurrences : List Occurrence) : List String :=
  (occurrences.filter (·.flag = flag)).map (·.value)

def valueOf? (flag : Flag) (occurrences : List Occurrence) : Option String :=
  (valuesOf flag occurrences).head?

def flagsOf? : String → Option (List Flag)
  | "build" => some [.target, .format]
  | "sim" => some [.target, .cycles, .poke, .input]
  | "designs" => some []
  | "backends" => some []
  | _ => none

def command (name : String) (given : List Occurrence) : Command :=
  match name with
  | "build" =>
    .build (valueOf? .target given) (((valueOf? .format given).bind Flag.format?).getD .text)
  | "sim" =>
    .simulate (valueOf? .target given) ((valueOf? .cycles given).bind Flag.cycles?)
      (valuesOf .poke given) (valuesOf .input given)
  | "designs" => .designs
  | _ => .backends

/-- The invocation of a command line. Of a general option given on both sides of the command, the
one after it counts. -/
def parse? (arguments : List String) : Option Invocation := do
  let (before, rest) ← scan? Flag.isGeneral arguments
  match rest with
  | [] => none
  | name :: rest =>
    let own ← flagsOf? name
    let (after, rest) ← scan? (fun flag => flag.isGeneral || own.contains flag) rest
    if !rest.isEmpty || !areProper before || !areProper after then none
    else
      let general := after ++ before
      return {
        retabled := (valueOf? .retabled general).isSome
        verbose := (valueOf? .verbose general).isSome
        colour := ((valueOf? .colour general).bind Flag.colour?).getD .auto
        config := valueOf? .config general
        command := command name after }

end Arguments

end Elastic
