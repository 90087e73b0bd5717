import Elastic.Proofs.Build.Screening
import Elastic.Proofs.Build.Spelling
import Elastic.Proofs.Build.Unfolding

namespace Elastic

/-! How far the text of a design determines it. In the text a name is a number, given when the name
was first seen, so that modules and ports may have other names in a design of the same text. The
name of the top module stands in the paths of the instances, though, the names of roles stand in the
types of their bundles, and a backend realizes builtins of one tag only. -/

/-- The names of a module and of its ports, of the roles of each bundle and of the realizations of
its builtins, written out. -/
@[ext]
structure NameFields where
  title : String
  ports : List String
  roles : List (List String)
  tags : List String
deriving DecidableEq

namespace NameFields

def fixed (held : NameFields) : List String := held.roles.flatten ++ held.tags

def all (held : NameFields) : List String := held.title :: (held.ports ++ held.fixed)

end NameFields

namespace Module

def nameFields (names : Names) (module : Module) : NameFields where
  title := names.text module.name
  ports := module.ports.map fun port => names.text port.name
  roles := module.bundles.toList.map fun bundle =>
    bundle.roles.map fun slot => names.text slot.name
  tags := module.builtins.map fun held => names.text held.tag

def withoutNames (module : Module) : Module :=
  { module with
    name := 0
    ports := module.ports.map fun port => { port with name := 0 }
    bundles := .ofList <| module.bundles.toList.map fun bundle =>
      { bundle with roles := bundle.roles.map fun slot => { slot with name := 0 } }
    builtins := module.builtins.map fun held => { held with tag := 0 } }

def fixedIdents (module : Module) : List Ident :=
  (module.bundles.toList.map fun bundle => bundle.roles.map (·.name)).flatten ++
    module.builtins.map (·.tag)

def idents (module : Module) : List Ident :=
  module.name :: (module.ports.map (·.name) ++ module.fixedIdents)

end Module

structure ResolvedGraph where
  shape : Graph
  letterings : List NameFields

def Graph.resolve (names : Names) (graph : Graph) : ResolvedGraph where
  shape := { graph with modules := .ofList (graph.modules.toList.map Module.withoutNames) }
  letterings := graph.modules.toList.map (Module.nameFields names)

namespace Names

end Names

namespace Module

variable {setting : Setting} {names names' : Names} {types : TyPool} {module : Module}

end Module

def Setting.stock (library : Library) (preset : BackendPreset) : Setting :=
  ⟨library, preset, preset.capabilities⟩

namespace Graph.Preordered

variable {names names' : Names} {graph : Graph} {top top' : String} {last last' : ModuleId}

end Graph.Preordered

namespace Graph.NamesKnown

variable {names names' : Names} {graph : Graph} {top top' : String} {module : Module}

end Graph.NamesKnown

end Elastic
