import Elastic.Compile.Artifact
import Elastic.Sim.State

namespace Elastic

/-! The fixed part of a simulation: where each instance is connected, and what stands behind each
service instance. -/

inductive Endpoint
  | memory (memory : Nat) (port : MemoryPort) (client : Nat)
  | host (host : Nat)
deriving DecidableEq, Repr, Inhabited

/-- What stands at an end of a role; `absent` if there is no such role. -/
inductive RoleEnd
  | channel (channel : ChannelId)
  | service (serviceInstance : ServiceInstanceId)
  | nothing
  | absent
deriving DecidableEq, Repr, Inhabited

def RoleEnd.ofBundleEnd (held : BundleEnd) (channel : Option ChannelId) : RoleEnd :=
  match held with
  | .service serviceInstance => .service serviceInstance
  | .local =>
    match channel with
    | some channel => .channel channel
    | none => .nothing
  | .unbound => .nothing

structure Netlist where
  graph : Graph
  parents : List (InstanceId × InstanceId × Nat)
  endpoints : List ((InstanceId × ServiceInstanceId) × Endpoint)
deriving Inhabited

structure RoleSite where
  inst : InstanceId
  bundle : BundleId
  role : Nat
deriving DecidableEq, Repr, Inhabited

namespace Netlist

def pathText (net : Netlist) (inst : InstanceId) : String :=
  AppPath.text (net.graph.pathOf inst)

def parent? (net : Netlist) (inst : InstanceId) : Option (InstanceId × Nat) :=
  (net.parents.find? (·.1 = inst)).map (·.2)

def endpoint (net : Netlist) (inst : InstanceId) (serviceInstance : ServiceInstanceId) :
    Except SimError Endpoint :=
  match net.endpoints.find? (·.1 = (inst, serviceInstance)) with
  | some (_, endpoint) => .ok endpoint
  | none => .error (.internal
      ("service instance #" ++ toString serviceInstance ++ " of " ++ net.pathText inst ++
        " has no endpoint"))

def bundle? (net : Netlist) (inst : InstanceId) (bundle : BundleId) : Option Bundle :=
  (net.graph.moduleOf inst).bundles.get? bundle

def slot? (net : Netlist) (site : RoleSite) : Option RoleSlot :=
  (net.bundle? site.inst site.bundle).bind fun bundle => bundle.roles[site.role]?

/-- The ends of a role: the one that drives it, and the one that takes from it. -/
def roleEnds (net : Netlist) (site : RoleSite) : RoleEnd × RoleEnd :=
  match net.bundle? site.inst site.bundle with
  | none => (.absent, .absent)
  | some bundle =>
    match bundle.roles[site.role]? with
    | none => (.absent, .absent)
    | some slot =>
      let client := RoleEnd.ofBundleEnd bundle.client slot.client
      let server := RoleEnd.ofBundleEnd bundle.server slot.server
      match slot.flow with
      | .toService => (client, server)
      | .fromService => (server, client)

def source (net : Netlist) (site : RoleSite) : RoleEnd := (net.roleEnds site).1

def sink (net : Netlist) (site : RoleSite) : RoleEnd := (net.roleEnds site).2

def rolePayload? (net : Netlist) (site : RoleSite) : Option Ty :=
  (net.slot? site).map fun slot => net.graph.types.get slot.payload

def requestRole? (bundle : Bundle) : Option Nat := bundle.roles.findIdx? (·.flow = .toService)

def channelSites (net : Netlist) : List (InstanceId × ChannelId) :=
  net.graph.instances.ids.flatMap fun inst =>
    (net.graph.moduleOf inst).channels.ids.map fun channel => (inst, channel)

def isServed (bundle : Bundle) : Bool :=
  match bundle.client, bundle.server with
  | .service _, _ => true
  | _, .service _ => true
  | _, _ => false

/-- The roles of all bundles with a service at one of their ends, by instance, bundle and role. -/
def servedRoles (net : Netlist) : List RoleSite :=
  net.graph.instances.ids.flatMap fun inst =>
    (net.graph.moduleOf inst).bundles.entries.flatMap fun (id, bundle) =>
      if isServed bundle then
        (List.range bundle.roles.length).map fun role => ⟨inst, id, role⟩
      else []

def signalCount (net : Netlist) (memories : Nat) : Nat :=
  (net.graph.instances.ids.map fun inst =>
    (net.graph.moduleOf inst).exprs.size + 3 * (net.graph.moduleOf inst).channels.size).foldr
      (· + ·) 0 + 2 * memories

def parentsOf (graph : Graph) : List (InstanceId × InstanceId × Nat) :=
  (graph.instances.entries.flatMap fun (inst, held) =>
    held.children.zipIdx.map fun (child, position) => (child, inst, position)).reverse

end Netlist

end Elastic
