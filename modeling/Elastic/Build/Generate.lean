import Elastic.Build.Elaborate

namespace Elastic

/-! Generation: the modules reachable from a top module, and the tree of their instances, in which
every instance comes before its children and the children in the order of their declaration. -/

namespace Instance

def placeChildren (place : ModuleId → AppPath → Option InstanceId → Arena Instance →
      InstanceId × Arena Instance)
    (path : AppPath) (parent : InstanceId) :
    List Child → Arena Instance → List InstanceId × Arena Instance
  | [], instances => ([], instances)
  | child :: rest, instances =>
    let (id, instances) :=
      place child.module (AppPath.child path child.appId) (some parent) instances
    let (ids, instances) := placeChildren place path parent rest instances
    (id :: ids, instances)

/-- Places an instance of a module with all instances below it. Children have smaller numbers than
their module, so that `fuel` of the number of modules reaches all of them. -/
def place (modules : Arena Module) :
    Nat → ModuleId → AppPath → Option InstanceId → Arena Instance → InstanceId × Arena Instance
  | 0, module, path, parent, instances =>
    (instances.nextId, instances.push ⟨instances.nextId, path, module, parent, []⟩)
  | fuel + 1, module, path, parent, instances =>
    let id := instances.nextId
    let children := ((modules.get? module).map (·.children)).getD []
    let (ids, placed) := placeChildren (place modules fuel) path id children
      (instances.push ⟨id, path, module, parent, []⟩)
    (id, placed.set id ⟨id, path, module, parent, ids⟩)

end Instance

def Graph.unfold (modules : Arena Module) (types : TyPool) (services : List Service)
    (top : ModuleId) (name : String) : Graph :=
  let (root, instances) := Instance.place modules modules.size top [⟨name, none⟩] none {}
  { modules := modules
    instances := instances
    root := root
    types := types
    services := services }

/-- What a generation leaves behind, whether it succeeded or not. -/
structure Generation where
  outcome : Except BuildError Graph
  names : Names
  notes : List Note

def generate (setting : Setting) (top : String) : Generation :=
  let (outcome, shared) := Elaboration.elaborateTop setting top ({} : Elaboration)
  { outcome := outcome.map fun id =>
      Graph.unfold shared.modules shared.types setting.library.services id top
    names := shared.names
    notes := shared.notes }

end Elastic
