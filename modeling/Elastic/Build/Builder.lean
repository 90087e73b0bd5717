import Elastic.Backend
import Elastic.Graph.Basic
import Elastic.Build.Library

namespace Elastic

/-! The state of a generation: what all modules share, and the builder on which one module is put
together. Channels and bundles are held by handles that name the construction they belong to. -/

structure Value where
  expr : ExprId
  ty : TyId
deriving DecidableEq, Repr, Inhabited

structure ChannelHandle where
  id : ChannelId
  payload : TyId
  scope : Nat
deriving DecidableEq, Repr, Inhabited

structure BundleHandle where
  id : BundleId
  ty : TyId
  scope : Nat
deriving DecidableEq, Repr, Inhabited

structure RoleChannels where
  module : String
  channels : List (String × ChannelHandle)
deriving DecidableEq, Repr, Inhabited

namespace RoleChannels

def takeFirst? (role : String) :
    List (String × ChannelHandle) → Option (ChannelHandle × List (String × ChannelHandle))
  | [] => none
  | (name, channel) :: rest =>
    if name = role then some (channel, rest)
    else (takeFirst? role rest).map fun (taken, rest) => (taken, (name, channel) :: rest)

def take (held : RoleChannels) (role : String) :
    Except BuildError (ChannelHandle × RoleChannels) :=
  match takeFirst? role held.channels with
  | some (channel, rest) => .ok (channel, { held with channels := rest })
  | none => .error (.missingRole held.module role)

end RoleChannels

inductive Holding
  | value (value : Value)
  | channel (handle : ChannelHandle)
  | bundle (handle : BundleHandle)
  | roles (held : RoleChannels)
deriving DecidableEq, Repr, Inhabited

inductive Note
  | passed
  | failed (error : BuildError)
  | capabilities (module : String) (preset : BackendPreset) (answer : Capabilities)
  | holding (held : Option Holding)

abbrev Holdings := List (Label × Holding)

namespace Holdings

def find? (holdings : Holdings) (label : Label) : Option Holding :=
  (List.find? (fun entry => entry.1 = label) holdings).map (·.2)

def erase (holdings : Holdings) (label : Label) : Holdings :=
  List.filter (fun entry => entry.1 ≠ label) holdings

def put (holdings : Holdings) (label : Label) (held : Holding) : Holdings :=
  (label, held) :: holdings.erase label

end Holdings

/-- What the modules of one generation share. -/
structure Elaboration where
  names : Names := {}
  types : TyPool := {}
  modules : Arena Module := {}
  finished : List (String × ModuleId) := []
  nextScope : Nat := 0
  notes : List Note := []
  holdings : Holdings := []
deriving Inhabited

structure Setting where
  library : Library
  preset : BackendPreset
  capabilities : Capabilities

structure Builder where
  shared : Elaboration
  name : String
  scope : Nat
  module : Module
  appIds : List AppId
deriving Inhabited

/-- A construction that may fail; what it did to the builder before stays done. -/
abbrev Construction (α : Type) := ExceptT BuildError (StateM Builder) α

end Elastic
