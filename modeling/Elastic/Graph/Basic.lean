import Elastic.Service
import Elastic.Graph.Module

namespace Elastic

structure Instance where
  id : InstanceId
  path : AppPath
  module : ModuleId
  parent : Option InstanceId
  children : List InstanceId
deriving DecidableEq, Repr, Inhabited

structure Graph where
  modules : Arena Module
  instances : Arena Instance
  root : InstanceId
  types : TyPool
  services : List Service
deriving Inhabited

namespace Graph

def module? (graph : Graph) (id : InstanceId) : Option Module :=
  (graph.instances.get? id).bind fun held => graph.modules.get? held.module

/-- The module of an instance, an empty one for an instance that does not exist. -/
def moduleOf (graph : Graph) (id : InstanceId) : Module := (graph.module? id).getD default

def pathOf (graph : Graph) (id : InstanceId) : AppPath :=
  ((graph.instances.get? id).map (·.path)).getD []

def parentOf (graph : Graph) (id : InstanceId) : Option InstanceId :=
  (graph.instances.get? id).bind (·.parent)

def findInstance? (graph : Graph) (path : AppPath) : Option InstanceId :=
  graph.instances.items.findIdx? (·.path = path)

def chain (graph : Graph) : Nat → InstanceId → List InstanceId
  | 0, id => [id]
  | fuel + 1, id =>
    match graph.parentOf id with
    | none => [id]
    | some parent => id :: chain graph fuel parent

def ancestors (graph : Graph) (id : InstanceId) : List InstanceId :=
  graph.chain graph.instances.size id

def serviceAt? (graph : Graph) (index : Nat) : Option Service := graph.services[index]?

end Graph

end Elastic
