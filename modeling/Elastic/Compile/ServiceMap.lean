import Elastic.Compile.Validate

namespace Elastic

/-! What realizes each service instance of a design: the nearest builtin of its service, looked for
in its own instance first and then outwards, or the host. -/

/-- A service instance somewhere in the design that a builtin serves. -/
structure Client where
  inst : InstanceId
  serviceInstance : ServiceInstanceId
  path : AppPath
  operation : String
deriving DecidableEq, Repr, Inhabited

structure BuiltinSite where
  inst : InstanceId
  position : Nat
  path : AppPath
  service : Nat
  serviceName : String
  tag : String
  clients : List Client
deriving DecidableEq, Repr, Inhabited

structure HostEndpoint where
  inst : InstanceId
  serviceInstance : ServiceInstanceId
  path : AppPath
  service : String
  operation : String
  side : ServiceSide
deriving DecidableEq, Repr, Inhabited

inductive Resolution
  | builtin (index : Nat)
  | host (index : Nat)
deriving DecidableEq, Repr, Inhabited

structure ServiceMap where
  builtins : List BuiltinSite := []
  hosts : List HostEndpoint := []
  resolutions : List ((InstanceId × ServiceInstanceId) × Resolution) := []
deriving Inhabited

namespace ServiceMap

def builtinsOf (graph : Graph) (names : Names) (inst : InstanceId) : List BuiltinSite :=
  (graph.moduleOf inst).builtins.zipIdx.map fun (builtin, position) =>
    { inst := inst
      position := position
      path := AppPath.child (graph.pathOf inst) builtin.appId
      service := builtin.service
      serviceName := ((graph.serviceAt? builtin.service).map (·.name)).getD ""
      tag := names.text builtin.tag
      clients := [] }

def builtinSites (graph : Graph) (names : Names) : List BuiltinSite :=
  graph.instances.ids.flatMap (builtinsOf graph names)

def serviceSites (graph : Graph) :
    List (InstanceId × ServiceInstanceId × ServiceInstance) :=
  graph.instances.ids.flatMap fun inst =>
    (graph.moduleOf inst).services.entries.map fun (id, held) => (inst, id, held)

def builtinIn? (builtins : List BuiltinSite) (service : Nat) (inst : InstanceId) :
    Option Nat :=
  builtins.findIdx? fun site => site.inst = inst ∧ site.service = service

def nearestBuiltin? (graph : Graph) (builtins : List BuiltinSite) (inst : InstanceId)
    (service : Nat) : Option Nat :=
  (graph.ancestors inst).findSome? (builtinIn? builtins service)

def BuiltinSite.addClient (client : Client) (site : BuiltinSite) : BuiltinSite :=
  { site with clients := site.clients ++ [client] }

def resolveOne (graph : Graph) (map : ServiceMap) (inst : InstanceId)
    (id : ServiceInstanceId) (held : ServiceInstance) : Except BuildError ServiceMap :=
  match graph.serviceAt? held.service with
  | none => .error (Graph.missingService held.service)
  | some service =>
    let operation := ((service.operations[held.operation]?).map (·.name)).getD ""
    let path := AppPath.child (graph.pathOf inst) held.appId
    match service.provider with
    | .host =>
      .ok { map with
        hosts := map.hosts ++ [⟨inst, id, path, service.name, operation, held.side⟩]
        resolutions := map.resolutions ++ [((inst, id), .host map.hosts.length)] }
    | .builtin =>
      match nearestBuiltin? graph map.builtins inst held.service with
      | none => .error (.unresolvedService (AppPath.text path) service.name)
      | some index =>
        .ok { map with
          builtins := map.builtins.modify index
            (BuiltinSite.addClient ⟨inst, id, path, operation⟩)
          resolutions := map.resolutions ++ [((inst, id), .builtin index)] }

def resolveAll (graph : Graph) : ServiceMap →
    List (InstanceId × ServiceInstanceId × ServiceInstance) → Except BuildError ServiceMap
  | map, [] => .ok map
  | map, (inst, id, held) :: rest =>
    match resolveOne graph map inst id held with
    | .error error => .error error
    | .ok map => resolveAll graph map rest

def resolve (graph : Graph) (names : Names) : Except BuildError ServiceMap :=
  resolveAll graph { builtins := builtinSites graph names } (serviceSites graph)

def resolution? (map : ServiceMap) (inst : InstanceId) (id : ServiceInstanceId) :
    Option Resolution :=
  (map.resolutions.find? fun entry => entry.1 = (inst, id)).map (·.2)

def hostIndex? (map : ServiceMap) (path : String) : Option Nat :=
  map.hosts.findIdx? fun host => AppPath.text host.path = path

def idleBuiltins (map : ServiceMap) : List BuiltinSite :=
  map.builtins.filter (·.clients.isEmpty)

end ServiceMap

end Elastic
