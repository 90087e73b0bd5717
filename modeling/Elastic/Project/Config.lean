import Elastic.Backend
import Elastic.Disk.Path
import Elastic.Toml.Reader

namespace Elastic

/-! Project files: the system to build, the targets that it is built for, and settings of the build
and of the simulator. -/

inductive ConfigError
  | unreadable (reason : String)
  | malformed (reason : String)
  | unknownTarget (name : String)
  | noSingleTarget (message : String)
  | missingField (field : String)
  | invalid (problem : String)
deriving DecidableEq, Repr, Inhabited

namespace ConfigError

def message : ConfigError → String
  | .unreadable reason => "failed to read configuration: " ++ reason
  | .malformed reason => "failed to parse configuration: " ++ reason
  | .unknownTarget name => "unknown target '" ++ name ++ "'"
  | .noSingleTarget message => message
  | .missingField field => "missing required field: " ++ field
  | .invalid problem => "validation error: " ++ problem

end ConfigError

structure SystemSettings where
  name : String
  version : String
  design : String
  description : String
deriving DecidableEq, Repr, Inhabited

structure TargetSettings where
  backend : BackendPreset
  policy : Option ArbitrationPolicy
  output : Option Path
deriving DecidableEq, Repr, Inhabited

structure ProjectConfig where
  system : SystemSettings
  targets : List (String × TargetSettings)
  output : Path
  maxCycles : Nat
deriving DecidableEq, Repr, Inhabited

namespace ProjectConfig

def fileName : String := "weft.toml"

def defaultVersion : String := "0.1.0"

def defaultOutput : Path := "build"

def defaultCycles : Nat := 64

open Toml

def fields? (names : List String) : Toml → Option Members
  | .table _ members => some members
  | .array items => some (names.zip items)
  | .tables elements => some (names.zip (elements.map (Toml.table .header)))
  | .moment _ => some []
  | _ => none

def text? : Toml → Option String
  | .string value => some value
  | _ => none

def count? : Toml → Option Nat
  | .integer (.ofNat value) => some value
  | _ => none

def isHollow : Toml → Bool
  | .array items => items.isEmpty
  | .table _ members => members.isEmpty
  | .tables elements => elements.isEmpty
  | _ => false

def label? : Toml → Option String
  | .string value => some value
  | .table _ [(name, content)] => if isHollow content then some name else none
  | _ => none

def required? (members : Members) (name : String) (decode : Toml → Option α) : Option α :=
  (member? name members).bind decode

def optional? (members : Members) (name : String) (absent : α) (decode : Toml → Option α) :
    Option α :=
  match member? name members with
  | none => some absent
  | some value => decode value

def backend? (value : Toml) : Option BackendPreset :=
  (label? value).bind fun name => BackendPreset.all.find? (·.text = name)

def policy? (value : Toml) : Option ArbitrationPolicy :=
  (label? value).bind ArbitrationPolicy.ofText?

def systemSettings? (value : Toml) : Option SystemSettings := do
  let fields ← fields? ["name", "version", "design", "description"] value
  let name ← required? fields "name" text?
  let version ← optional? fields "version" defaultVersion text?
  let design ← required? fields "design" text?
  let description ← optional? fields "description" "" text?
  return ⟨name, version, design, description⟩

def targetSettings? (value : Toml) : Option TargetSettings := do
  let fields ← fields? ["backend", "arbitration", "output_dir"] value
  let backend ← required? fields "backend" backend?
  let policy ← optional? fields "arbitration" none fun value => (policy? value).map some
  let output ← optional? fields "output_dir" none fun value => (text? value).map some
  return ⟨backend, policy, output⟩

def insertTarget (name : String) (target : TargetSettings) :
    List (String × TargetSettings) → List (String × TargetSettings)
  | [] => [(name, target)]
  | (other, held) :: rest =>
    if name < other then (name, target) :: (other, held) :: rest
    else (other, held) :: insertTarget name target rest

def targetsOfMembers? : Members → Option (List (String × TargetSettings))
  | [] => some []
  | (name, value) :: rest => do
    let target ← targetSettings? value
    let others ← targetsOfMembers? rest
    return insertTarget name target others

def targets? : Toml → Option (List (String × TargetSettings))
  | .table _ members => targetsOfMembers? members
  | _ => none

def buildOutput? (value : Toml) : Option Path := do
  let fields ← fields? ["output_dir"] value
  optional? fields "output_dir" defaultOutput text?

def cycleLimit? (value : Toml) : Option Nat := do
  let fields ← fields? ["max_cycles"] value
  optional? fields "max_cycles" defaultCycles count?

def ofMembers? (members : Members) : Option ProjectConfig := do
  let system ← required? members "system" systemSettings?
  let targets ← optional? members "targets" [] targets?
  let output ← optional? members "build" defaultOutput buildOutput?
  let maxCycles ← optional? members "sim" defaultCycles cycleLimit?
  return ⟨system, targets, output, maxCycles⟩

/-- The name of a system is part of file names, so that few characters are allowed in it. -/
def isNameChar (c : Char) : Bool := c.isAlphanum || c = '_' || c = '-'

def validate (config : ProjectConfig) : Except ConfigError Unit :=
  if config.system.name.isEmpty then .error (.missingField "system.name")
  else if config.system.design.isEmpty then .error (.missingField "system.design")
  else if !config.system.name.toList.all isNameChar then
    .error (.invalid ("system.name '" ++ config.system.name ++
      "' may only contain ASCII letters, digits, '_' and '-'"))
  else if config.output.isEmpty then .error (.missingField "build.output_dir")
  else if config.maxCycles = 0 then .error (.invalid "sim.max_cycles must be at least 1")
  else .ok ()

def ofText (text : String) : Except ConfigError ProjectConfig :=
  match Toml.read? text with
  | none => .error (.malformed "not a TOML document")
  | some members =>
    match ofMembers? members with
    | none => .error (.malformed "not a description of a project")
    | some config => (validate config).map fun () => config

end ProjectConfig

end Elastic
