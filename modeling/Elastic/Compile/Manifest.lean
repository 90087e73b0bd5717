import Elastic.Graph.Json
import Elastic.Compile.ServiceMap

namespace Elastic

/-! Manifests: what outside tools have to know about a design, by name and displayed path. -/

open Json

namespace BackendPreset

def toJson (preset : BackendPreset) : Json := .str preset.text

def ofJson? : Json → Option BackendPreset :=
  asLabel? (all.map fun preset => (preset.text, preset))

end BackendPreset

namespace ArbitrationPolicy

def toJson (policy : ArbitrationPolicy) : Json := .str policy.text

def ofJson? : Json → Option ArbitrationPolicy :=
  asLabel? [("fixed-priority", .fixedPriority), ("round-robin", .roundRobin)]

end ArbitrationPolicy

namespace Manifest

structure InstanceEntry where
  path : String
  module : String
deriving DecidableEq, Repr

structure PortEntry where
  name : String
  ty : String
deriving DecidableEq, Repr

structure ModuleEntry where
  name : String
  ports : List PortEntry
  metadata : Option Metadata

structure OperationEntry where
  name : String
  bundle : String
deriving DecidableEq, Repr

structure ServiceEntry where
  name : String
  provider : Provider
  operations : List OperationEntry
deriving DecidableEq, Repr

structure ClientEntry where
  path : String
  operation : String
deriving DecidableEq, Repr

structure BuiltinEntry where
  path : String
  service : String
  tag : String
  clients : List ClientEntry
deriving DecidableEq, Repr

structure HostEntry where
  path : String
  service : String
  operation : String
  side : ServiceSide
deriving DecidableEq, Repr

end Manifest

structure Manifest where
  apiVersion : Nat
  name : String
  version : String
  backend : BackendPreset
  policy : ArbitrationPolicy
  fingerprint : String
  instances : List Manifest.InstanceEntry
  modules : List Manifest.ModuleEntry
  services : List Manifest.ServiceEntry
  builtins : List Manifest.BuiltinEntry
  hosts : List Manifest.HostEntry

namespace Manifest

def currentVersion : Nat := 1

def moduleEntry (graph : Graph) (names : Names) (module : Module) : ModuleEntry where
  name := names.text module.name
  ports := module.ports.map fun port => ⟨names.text port.name, (graph.types.get port.ty).text⟩
  metadata := module.metadata

def serviceEntry (service : Service) : ServiceEntry where
  name := service.name
  provider := service.provider
  operations := service.operations.map fun operation =>
    ⟨operation.name, BundleTy.text operation.bundle⟩

def builtinEntry (site : BuiltinSite) : BuiltinEntry where
  path := AppPath.text site.path
  service := site.serviceName
  tag := site.tag
  clients := site.clients.map fun client => ⟨AppPath.text client.path, client.operation⟩

def hostEntry (host : HostEndpoint) : HostEntry where
  path := AppPath.text host.path
  service := host.service
  operation := host.operation
  side := host.side

def collect (name version : String) (backend : BackendPreset) (policy : ArbitrationPolicy)
    (fingerprint : ContentHash) (graph : Graph) (names : Names) (map : ServiceMap) :
    Manifest where
  apiVersion := currentVersion
  name := name
  version := version
  backend := backend
  policy := policy
  fingerprint := fingerprint.hex
  instances := graph.instances.toList.map fun held =>
    ⟨AppPath.text held.path,
      names.text (((graph.modules.get? held.module).map (·.name)).getD 0)⟩
  modules := graph.modules.toList.map (moduleEntry graph names)
  services := graph.services.map serviceEntry
  builtins := map.builtins.map builtinEntry
  hosts := map.hosts.map hostEntry

def module? (manifest : Manifest) (name : String) : Option ModuleEntry :=
  manifest.modules.find? (·.name = name)

namespace InstanceEntry

def toJson (entry : InstanceEntry) : Json :=
  .obj [("path", .str entry.path), ("module", .str entry.module)]

def ofJson? (json : Json) : Option InstanceEntry := do
  let fields ← asRecord? ["path", "module"] json
  let path ← required? fields "path" asText?
  let module ← required? fields "module" asText?
  return ⟨path, module⟩

end InstanceEntry

namespace PortEntry

def toJson (entry : PortEntry) : Json :=
  .obj [("name", .str entry.name), ("type", .str entry.ty)]

def ofJson? (json : Json) : Option PortEntry := do
  let fields ← asRecord? ["name", "type"] json
  let name ← required? fields "name" asText?
  let ty ← required? fields "type" asText?
  return ⟨name, ty⟩

end PortEntry

namespace ModuleEntry

def toJson (entry : ModuleEntry) : Json :=
  .obj <|
    [("name", .str entry.name), ("ports", list PortEntry.toJson entry.ports)] ++
    match entry.metadata with
    | none => []
    | some metadata => [("metadata", metadata.toJson)]

def ofJson? (json : Json) : Option ModuleEntry := do
  let fields ← asRecord? ["name", "ports", "metadata"] json
  let name ← required? fields "name" asText?
  let ports ← required? fields "ports" (asList? PortEntry.ofJson?)
  let metadata ← nullable? fields "metadata" Metadata.ofJson?
  return ⟨name, ports, metadata⟩

end ModuleEntry

namespace OperationEntry

def toJson (entry : OperationEntry) : Json :=
  .obj [("name", .str entry.name), ("bundle", .str entry.bundle)]

def ofJson? (json : Json) : Option OperationEntry := do
  let fields ← asRecord? ["name", "bundle"] json
  let name ← required? fields "name" asText?
  let bundle ← required? fields "bundle" asText?
  return ⟨name, bundle⟩

end OperationEntry

namespace ServiceEntry

def toJson (entry : ServiceEntry) : Json :=
  .obj [
    ("name", .str entry.name),
    ("provider", entry.provider.toJson),
    ("operations", list OperationEntry.toJson entry.operations)]

def ofJson? (json : Json) : Option ServiceEntry := do
  let fields ← asRecord? ["name", "provider", "operations"] json
  let name ← required? fields "name" asText?
  let provider ← required? fields "provider" Provider.ofJson?
  let operations ← required? fields "operations" (asList? OperationEntry.ofJson?)
  return ⟨name, provider, operations⟩

end ServiceEntry

namespace ClientEntry

def toJson (entry : ClientEntry) : Json :=
  .obj [("path", .str entry.path), ("operation", .str entry.operation)]

def ofJson? (json : Json) : Option ClientEntry := do
  let fields ← asRecord? ["path", "operation"] json
  let path ← required? fields "path" asText?
  let operation ← required? fields "operation" asText?
  return ⟨path, operation⟩

end ClientEntry

namespace BuiltinEntry

def toJson (entry : BuiltinEntry) : Json :=
  .obj [
    ("path", .str entry.path),
    ("service", .str entry.service),
    ("tag", .str entry.tag),
    ("clients", list ClientEntry.toJson entry.clients)]

def ofJson? (json : Json) : Option BuiltinEntry := do
  let fields ← asRecord? ["path", "service", "tag", "clients"] json
  let path ← required? fields "path" asText?
  let service ← required? fields "service" asText?
  let tag ← required? fields "tag" asText?
  let clients ← required? fields "clients" (asList? ClientEntry.ofJson?)
  return ⟨path, service, tag, clients⟩

end BuiltinEntry

namespace HostEntry

def toJson (entry : HostEntry) : Json :=
  .obj [
    ("path", .str entry.path),
    ("service", .str entry.service),
    ("operation", .str entry.operation),
    ("role", entry.side.toJson)]

def ofJson? (json : Json) : Option HostEntry := do
  let fields ← asRecord? ["path", "service", "operation", "role"] json
  let path ← required? fields "path" asText?
  let service ← required? fields "service" asText?
  let operation ← required? fields "operation" asText?
  let side ← required? fields "role" ServiceSide.ofJson?
  return ⟨path, service, operation, side⟩

end HostEntry

def toJson (manifest : Manifest) : Json :=
  .obj [
    ("api_version", .nat manifest.apiVersion),
    ("system", .obj [("name", .str manifest.name), ("version", .str manifest.version)]),
    ("backend", manifest.backend.toJson),
    ("arbitration", manifest.policy.toJson),
    ("fingerprint", .str manifest.fingerprint),
    ("instances", list InstanceEntry.toJson manifest.instances),
    ("modules", list ModuleEntry.toJson manifest.modules),
    ("services", list ServiceEntry.toJson manifest.services),
    ("builtins", list BuiltinEntry.toJson manifest.builtins),
    ("host_endpoints", list HostEntry.toJson manifest.hosts)]

def systemOfJson? (json : Json) : Option (String × String) := do
  let fields ← asRecord? ["name", "version"] json
  let name ← required? fields "name" asText?
  let version ← required? fields "version" asText?
  return (name, version)

def ofJson? (json : Json) : Option Manifest := do
  let fields ← asRecord?
    ["api_version", "system", "backend", "arbitration", "fingerprint", "instances", "modules",
      "services", "builtins", "host_endpoints"] json
  let apiVersion ← required? fields "api_version" (asNat? limit32)
  let (name, version) ← required? fields "system" systemOfJson?
  let backend ← required? fields "backend" BackendPreset.ofJson?
  let policy ← required? fields "arbitration" ArbitrationPolicy.ofJson?
  let fingerprint ← required? fields "fingerprint" asText?
  let instances ← required? fields "instances" (asList? InstanceEntry.ofJson?)
  let modules ← required? fields "modules" (asList? ModuleEntry.ofJson?)
  let services ← required? fields "services" (asList? ServiceEntry.ofJson?)
  let builtins ← required? fields "builtins" (asList? BuiltinEntry.ofJson?)
  let hosts ← optional? fields "host_endpoints" [] (asList? HostEntry.ofJson?)
  return ⟨apiVersion, name, version, backend, policy, fingerprint, instances, modules, services,
    builtins, hosts⟩

def text (manifest : Manifest) : String := manifest.toJson.pretty

end Manifest

end Elastic
