import Elastic.Build.Construct

namespace Elastic

/-! Running recipes. A module is elaborated the first time that it is asked for; its recipe may ask
for other modules, but for none that is under construction. -/

structure Assembly where
  builder : Builder
  holdings : Holdings := []
deriving Inhabited

abbrev Assembling (α : Type) := ExceptT BuildError (StateM Assembly) α

abbrev Elaborating (α : Type) := ExceptT BuildError (StateM Elaboration) α

namespace Assembling

def onBuilder (operation : Construction α) : Assembling α := fun assembly =>
  let (outcome, builder) := operation assembly.builder
  (outcome, { assembly with builder := builder })

def note (note : Note) : Assembling Unit :=
  modify fun assembly =>
    { assembly with builder := { assembly.builder with shared :=
      { assembly.builder.shared with notes := assembly.builder.shared.notes ++ [note] } } }

def hold (label : Option Label) (held : Holding) : Assembling Unit :=
  match label with
  | none => return
  | some label =>
      modify fun assembly => { assembly with holdings := assembly.holdings.put label held }

def release (label : Label) : Assembling Unit :=
  modify fun assembly => { assembly with holdings := assembly.holdings.erase label }

def missing (label : Label) : Assembling α :=
  throw (.internal ("nothing to use under '" ++ label ++ "'"))

def value (label : Label) : Assembling Value := do
  match (← get).holdings.find? label with
  | some (.value value) => return value
  | _ => missing label

def takeChannel (label : Label) : Assembling ChannelHandle := do
  match (← get).holdings.find? label with
  | some (.channel handle) => release label; return handle
  | _ => missing label

def takeBundle (label : Label) : Assembling BundleHandle := do
  match (← get).holdings.find? label with
  | some (.bundle handle) => release label; return handle
  | _ => missing label

def roles (label : Label) : Assembling RoleChannels := do
  match (← get).holdings.find? label with
  | some (.roles held) => return held
  | _ => missing label

def values : List Label → Assembling (List Value)
  | [] => return []
  | label :: rest => do
    let first ← value label
    return first :: (← values rest)

def namedValues : List (String × Label) → Assembling (List (String × Value))
  | [] => return []
  | (name, label) :: rest => do
    let first ← value label
    return (name, first) :: (← namedValues rest)

def takeChannels : List (String × Label) → Assembling (List (String × ChannelHandle))
  | [] => return []
  | (role, label) :: rest => do
    let first ← takeChannel label
    return (role, first) :: (← takeChannels rest)

def holdValues : List (Option Label) → List Value → Assembling Unit
  | label :: labels, value :: values => do
    hold label (.value value)
    holdValues labels values
  | _, _ => return

end Assembling

open Assembling

def Step.run (setting : Setting) (elaborate : String → Elaborating ModuleId) :
    Step → Assembling Unit
  | .port name result => do
    hold result (.value (← onBuilder (Construction.port name)))
  | .constant ty value result => do
    hold result (.value (← onBuilder (Construction.constant ty value)))
  | .bool value result => do
    hold result (.value (← onBuilder (Construction.bool value)))
  | .struct ty fields result => do
    let fields ← namedValues fields
    hold result (.value (← onBuilder (Construction.struct ty fields)))
  | .field base name result => do
    let base ← value base
    hold result (.value (← onBuilder (Construction.field base name)))
  | .and first second result => do
    let first ← value first
    let second ← value second
    hold result (.value (← onBuilder (Construction.and first second)))
  | .or first second result => do
    let first ← value first
    let second ← value second
    hold result (.value (← onBuilder (Construction.or first second)))
  | .not operand result => do
    let operand ← value operand
    hold result (.value (← onBuilder (Construction.not operand)))
  | .wrap payload data valid channel ready => do
    let data ← value data
    let valid ← value valid
    let (handle, signal) ← onBuilder (Construction.wrap payload data valid)
    hold channel (.channel handle)
    hold ready (.value signal)
  | .unwrap channel ready data valid => do
    let channel ← takeChannel channel
    let ready ← value ready
    let (payload, signal) ← onBuilder (Construction.unwrap channel ready)
    hold data (.value payload)
    hold valid (.value signal)
  | .pack ty channels bundle returned => do
    let channels ← takeChannels channels
    let (handle, back) ← onBuilder (Construction.pack ty channels)
    hold bundle (.bundle handle)
    hold returned (.roles back)
  | .unpack bundle channels returned => do
    let handle ← takeBundle bundle
    let channels ← takeChannels channels
    hold returned (.roles (← onBuilder (Construction.unpack handle channels)))
  | .take returned role channel => do
    let held ← roles returned
    match held.take role with
    | .error error => throw error
    | .ok (handle, rest) =>
      hold (some returned) (.roles rest)
      hold channel (.channel handle)
  | .call service operation bundle appId => do
    let handle ← takeBundle bundle
    onBuilder (Construction.call setting service operation handle appId)
  | .request service operation appId bundle => do
    hold bundle (.bundle (← onBuilder (Construction.request setting service operation appId)))
  | .builtin service appId tag results inputs labels => do
    let inputs ← values inputs
    holdValues labels (← onBuilder (Construction.builtin setting service appId tag results inputs))
  | .instantiate module appId connections => do
    let connections ← namedValues connections
    onBuilder (Construction.instantiate elaborate module appId connections)
  | .noteCapabilities => do
    note (.capabilities (← get).builder.name setting.preset setting.capabilities)
  | .noteHolding label => do
    note (.holding ((← get).holdings.find? label))
  | .lend label => do
    match (← get).holdings.find? label with
    | none => missing label
    | some held =>
      release label
      modify fun assembly => { assembly with builder := { assembly.builder with shared :=
        { assembly.builder.shared with holdings :=
          assembly.builder.shared.holdings.put label held } } }
  | .borrow label => do
    match (← get).builder.shared.holdings.find? label with
    | none => missing label
    | some held =>
      hold (some label) held
      modify fun assembly => { assembly with builder := { assembly.builder with shared :=
        { assembly.builder.shared with holdings :=
          assembly.builder.shared.holdings.erase label } } }

def Note.ofOutcome : Except BuildError Unit → Note
  | .ok () => .passed
  | .error error => .failed error

namespace Recipe

def run (setting : Setting) (elaborate : String → Elaborating ModuleId) :
    Recipe → Assembling Unit
  | .done => return
  | .step first rest => do
    first.run setting elaborate
    run setting elaborate rest
  | .ifHost yes no rest => do
    if setting.capabilities.hostChannels then run setting elaborate yes
    else run setting elaborate no
    run setting elaborate rest
  | .attempt body rest => do
    let outcome ← ExceptT.lift ((run setting elaborate body).run)
    note (Note.ofOutcome outcome)
    run setting elaborate rest

end Recipe

namespace Elaboration

def declarePorts (module : String) : List (String × Ty) → Elaborating (List Port)
  | [] => return []
  | (name, ty) :: rest => do
    if ty ≠ .clock ∧ !ty.isPayload then
      throw (.typeMismatch module ("port '" ++ name ++ "'") "clock, bits or struct" ty.text)
    let port ← modifyGet fun shared =>
      let (ident, names) := shared.names.intern name
      let (id, types) := shared.types.intern ty
      ((⟨ident, id⟩ : Port), { shared with names := names, types := types })
    return port :: (← declarePorts module rest)

/-- Runs a recipe on a fresh builder; gives the module as the recipe left it, even if it failed. -/
def assemble (setting : Setting) (elaborate : String → Elaborating ModuleId) (decl : ModuleDecl)
    (empty : Module) (shared : Elaboration) : Except BuildError Unit × Assembly :=
  (decl.recipe.run setting elaborate)
    { builder := {
        shared := { shared with nextScope := shared.nextScope + 1 }
        name := decl.name
        scope := shared.nextScope
        module := empty
        appIds := [] } }

def constructModule (setting : Setting) (elaborate : String → Elaborating ModuleId)
    (decl : ModuleDecl) : Elaborating ModuleId := do
  let ports ← declarePorts decl.name decl.ports
  let name ← modifyGet fun shared =>
    let (ident, names) := shared.names.intern decl.name
    (ident, { shared with names := names })
  let empty : Module := { id := 0, name := name, ports := ports, metadata := decl.metadata }
  let (outcome, assembly) := assemble setting elaborate decl empty (← get)
  set assembly.builder.shared
  match outcome with
  | .error error => throw error
  | .ok () =>
    modifyGet fun shared =>
      let id := shared.modules.nextId
      (id, { shared with
        modules := shared.modules.push { assembly.builder.module with id := id }
        finished := (decl.name, id) :: shared.finished })

def finished? (shared : Elaboration) (name : String) : Option ModuleId :=
  (shared.finished.find? (·.1 = name)).map (·.2)

/-- The number of a module, constructing it if need be. The modules under construction are given
from the outermost in. No more modules can be under construction at once than the library has, so
that `fuel` of its size plus one is enough. -/
def elaborate (setting : Setting) : Nat → List String → String → Elaborating ModuleId
  | fuel, running, name => do
    match (← get).finished? name with
    | some id => return id
    | none =>
      match running.dropWhile (· ≠ name) with
      | first :: inner => throw (.recursiveInstantiation (first :: inner ++ [name]))
      | [] =>
        match setting.library.module? name with
        | none => throw (.unknownModule name)
        | some decl =>
          match fuel with
          | 0 => throw (.internal "more modules under construction than the library has")
          | fuel + 1 =>
            constructModule setting (elaborate setting fuel (running ++ [name])) decl

def elaborateTop (setting : Setting) (name : String) : Elaborating ModuleId :=
  elaborate setting (setting.library.modules.length + 1) [] name

end Elaboration

end Elastic
