import Elastic.Digest.Content
import Elastic.Json.Printer
import Elastic.Graph.Basic

namespace Elastic

open Json

def idOfJson? : Json → Option Nat := asNat? limit32

namespace Expr

def toJson : Expr → Json
  | .const value => variant "Const" (.nat value.toNat)
  | .port index => variant "Port" (.nat index)
  | .channelData channel => variant "ChannelData" (.nat channel)
  | .channelValid channel => variant "ChannelValid" (.nat channel)
  | .channelReady channel => variant "ChannelReady" (.nat channel)
  | .struct fields => variant "Struct" (list .nat fields)
  | .field base index =>
    variant "Field" (.obj [("base", .nat base), ("index", .nat index)])
  | .and first second => variant "And" (.arr [.nat first, .nat second])
  | .or first second => variant "Or" (.arr [.nat first, .nat second])
  | .not operand => variant "Not" (.nat operand)
  | .builtinResult builtin index =>
    variant "BuiltinResult" (.obj [("builtin", .nat builtin), ("index", .nat index)])

def idPair? (first second : String) (json : Json) : Option (Nat × Nat) := do
  let fields ← asRecord? [first, second] json
  let a ← required? fields first idOfJson?
  let b ← required? fields second idOfJson?
  return (a, b)

def ofVariant? : String → Json → Option Expr
  | "Const", json => (asNat? limit64 json).map fun value => .const (UInt64.ofNat value)
  | "Port", json => (idOfJson? json).map .port
  | "ChannelData", json => (idOfJson? json).map .channelData
  | "ChannelValid", json => (idOfJson? json).map .channelValid
  | "ChannelReady", json => (idOfJson? json).map .channelReady
  | "Struct", json => (asList? idOfJson? json).map .struct
  | "Field", json => (idPair? "base" "index" json).map fun (base, index) => .field base index
  | "And", json => (asPair? idOfJson? idOfJson? json).map fun (a, b) => .and a b
  | "Or", json => (asPair? idOfJson? idOfJson? json).map fun (a, b) => .or a b
  | "Not", json => (idOfJson? json).map .not
  | "BuiltinResult", json =>
    (idPair? "builtin" "index" json).map fun (builtin, index) => .builtinResult builtin index
  | _, _ => none

def ofJson? (json : Json) : Option Expr := do
  let (name, content) ← asVariant? json
  ofVariant? name content

end Expr

namespace Port

def toJson (port : Port) : Json :=
  .obj [("name", .nat port.name), ("ty", .nat port.ty)]

def ofJson? (json : Json) : Option Port := do
  let fields ← asRecord? ["name", "ty"] json
  let name ← required? fields "name" idOfJson?
  let ty ← required? fields "ty" idOfJson?
  return ⟨name, ty⟩

end Port

namespace Producer

def toJson : Producer → Json
  | .wrapped data valid => variant "Wrapped" (.obj [("data", .nat data), ("valid", .nat valid)])
  | .bundle held role => variant "Bundle" (.obj [("bundle", .nat held), ("role", .nat role)])

def ofJson? (json : Json) : Option Producer := do
  match ← asVariant? json with
  | ("Wrapped", content) =>
    (Expr.idPair? "data" "valid" content).map fun (data, valid) => .wrapped data valid
  | ("Bundle", content) =>
    (Expr.idPair? "bundle" "role" content).map fun (held, role) => .bundle held role
  | _ => none

end Producer

namespace Consumer

def toJson : Consumer → Json
  | .unbound => .str "Unbound"
  | .unwrapped ready => variant "Unwrapped" (.obj [("ready", .nat ready)])
  | .bundle held role => variant "Bundle" (.obj [("bundle", .nat held), ("role", .nat role)])

def ofJson? (json : Json) : Option Consumer := do
  match ← asVariant? json with
  | ("Unbound", .null) => some .unbound
  | ("Unwrapped", content) =>
    let fields ← asRecord? ["ready"] content
    (required? fields "ready" idOfJson?).map .unwrapped
  | ("Bundle", content) =>
    (Expr.idPair? "bundle" "role" content).map fun (held, role) => .bundle held role
  | _ => none

end Consumer

namespace Channel

def toJson (channel : Channel) : Json :=
  .obj [
    ("payload", .nat channel.payload),
    ("producer", channel.producer.toJson),
    ("consumer", channel.consumer.toJson)]

def ofJson? (json : Json) : Option Channel := do
  let fields ← asRecord? ["payload", "producer", "consumer"] json
  let payload ← required? fields "payload" idOfJson?
  let producer ← required? fields "producer" Producer.ofJson?
  let consumer ← required? fields "consumer" Consumer.ofJson?
  return ⟨payload, producer, consumer⟩

end Channel

namespace BundleEnd

def toJson : BundleEnd → Json
  | .unbound => .str "Unbound"
  | .local => .str "Local"
  | .service serviceInstance => variant "Service" (.nat serviceInstance)

def ofJson? (json : Json) : Option BundleEnd := do
  match ← asVariant? json with
  | ("Unbound", .null) => some .unbound
  | ("Local", .null) => some .local
  | ("Service", content) => (idOfJson? content).map .service
  | _ => none

end BundleEnd

namespace RoleSlot

def toJson (slot : RoleSlot) : Json :=
  .obj [
    ("name", .nat slot.name),
    ("direction", slot.flow.toJson),
    ("payload", .nat slot.payload),
    ("client", ofOption .nat slot.client),
    ("server", ofOption .nat slot.server)]

def ofJson? (json : Json) : Option RoleSlot := do
  let fields ← asWholeRecord? ["name", "direction", "payload", "client", "server"] json
  let name ← required? fields "name" idOfJson?
  let flow ← required? fields "direction" Flow.ofJson?
  let payload ← required? fields "payload" idOfJson?
  let client ← nullable? fields "client" idOfJson?
  let server ← nullable? fields "server" idOfJson?
  return ⟨name, flow, payload, client, server⟩

end RoleSlot

namespace Bundle

def toJson (bundle : Bundle) : Json :=
  .obj [
    ("ty", .nat bundle.ty),
    ("roles", list RoleSlot.toJson bundle.roles),
    ("client", bundle.client.toJson),
    ("server", bundle.server.toJson)]

def ofJson? (json : Json) : Option Bundle := do
  let fields ← asRecord? ["ty", "roles", "client", "server"] json
  let ty ← required? fields "ty" idOfJson?
  let roles ← required? fields "roles" (asList? RoleSlot.ofJson?)
  let client ← required? fields "client" BundleEnd.ofJson?
  let server ← required? fields "server" BundleEnd.ofJson?
  return ⟨ty, roles, client, server⟩

end Bundle

namespace ServiceSide

def toJson (side : ServiceSide) : Json := .str side.text

def ofJson? : Json → Option ServiceSide :=
  asLabel? [("server", .server), ("client", .client)]

end ServiceSide

namespace ServiceInstance

def toJson (held : ServiceInstance) : Json :=
  .obj [
    ("appid", held.appId.toJson),
    ("service", .nat held.service),
    ("operation", .nat held.operation),
    ("bundle", .nat held.bundle),
    ("role", held.side.toJson)]

def ofJson? (json : Json) : Option ServiceInstance := do
  let fields ← asRecord? ["appid", "service", "operation", "bundle", "role"] json
  let appId ← required? fields "appid" AppId.ofJson?
  let service ← required? fields "service" idOfJson?
  let operation ← required? fields "operation" idOfJson?
  let bundle ← required? fields "bundle" idOfJson?
  let side ← required? fields "role" ServiceSide.ofJson?
  return ⟨appId, service, operation, bundle, side⟩

end ServiceInstance

namespace Builtin

def toJson (builtin : Builtin) : Json :=
  .obj [
    ("appid", builtin.appId.toJson),
    ("service", .nat builtin.service),
    ("tag", .nat builtin.tag),
    ("results", list .nat builtin.results),
    ("inputs", list .nat builtin.inputs)]

def ofJson? (json : Json) : Option Builtin := do
  let fields ← asRecord? ["appid", "service", "tag", "results", "inputs"] json
  let appId ← required? fields "appid" AppId.ofJson?
  let service ← required? fields "service" idOfJson?
  let tag ← required? fields "tag" idOfJson?
  let results ← required? fields "results" (asList? idOfJson?)
  let inputs ← required? fields "inputs" (asList? idOfJson?)
  return ⟨appId, service, tag, results, inputs⟩

end Builtin

namespace Child

def toJson (child : Child) : Json :=
  .obj [
    ("appid", child.appId.toJson),
    ("module", .nat child.module),
    ("connections", list .nat child.connections)]

def ofJson? (json : Json) : Option Child := do
  let fields ← asRecord? ["appid", "module", "connections"] json
  let appId ← required? fields "appid" AppId.ofJson?
  let module ← required? fields "module" idOfJson?
  let connections ← required? fields "connections" (asList? idOfJson?)
  return ⟨appId, module, connections⟩

end Child

namespace Module

def toJson (module : Module) : Json :=
  .obj [
    ("id", .nat module.id),
    ("name", .nat module.name),
    ("ports", list Port.toJson module.ports),
    ("metadata", ofOption Metadata.toJson module.metadata),
    ("exprs", module.exprs.toJson Expr.toJson),
    ("channels", module.channels.toJson Channel.toJson),
    ("bundles", module.bundles.toJson Bundle.toJson),
    ("services", module.services.toJson ServiceInstance.toJson),
    ("builtins", list Builtin.toJson module.builtins),
    ("children", list Child.toJson module.children)]

def ofJson? (json : Json) : Option Module := do
  let fields ← asRecord?
    ["id", "name", "ports", "metadata", "exprs", "channels", "bundles", "services", "builtins",
      "children"] json
  let id ← required? fields "id" idOfJson?
  let name ← required? fields "name" idOfJson?
  let ports ← required? fields "ports" (asList? Port.ofJson?)
  let metadata ← nullable? fields "metadata" Metadata.ofJson?
  let exprs ← required? fields "exprs" (Arena.ofJson? Expr.ofJson?)
  let channels ← required? fields "channels" (Arena.ofJson? Channel.ofJson?)
  let bundles ← required? fields "bundles" (Arena.ofJson? Bundle.ofJson?)
  let services ← required? fields "services" (Arena.ofJson? ServiceInstance.ofJson?)
  let builtins ← required? fields "builtins" (asList? Builtin.ofJson?)
  let children ← required? fields "children" (asList? Child.ofJson?)
  return ⟨id, name, ports, metadata, exprs, channels, bundles, services, builtins, children⟩

end Module

namespace Instance

def toJson (held : Instance) : Json :=
  .obj [
    ("id", .nat held.id),
    ("path", AppPath.toJson held.path),
    ("module", .nat held.module),
    ("parent", ofOption .nat held.parent),
    ("children", list .nat held.children)]

def ofJson? (json : Json) : Option Instance := do
  let fields ← asRecord? ["id", "path", "module", "parent", "children"] json
  let id ← required? fields "id" idOfJson?
  let path ← required? fields "path" AppPath.ofJson?
  let module ← required? fields "module" idOfJson?
  let parent ← nullable? fields "parent" idOfJson?
  let children ← required? fields "children" (asList? idOfJson?)
  return ⟨id, path, module, parent, children⟩

end Instance

namespace Graph

def toJson (graph : Graph) : Json :=
  .obj [
    ("modules", graph.modules.toJson Module.toJson),
    ("instances", graph.instances.toJson Instance.toJson),
    ("root", .nat graph.root),
    ("types", graph.types.toJson),
    ("services", list Service.toJson graph.services)]

def ofJson? (json : Json) : Option Graph := do
  let fields ← asRecord? ["modules", "instances", "root", "types", "services"] json
  let modules ← required? fields "modules" (Arena.ofJson? Module.ofJson?)
  let instances ← required? fields "instances" (Arena.ofJson? Instance.ofJson?)
  let root ← required? fields "root" idOfJson?
  let types ← required? fields "types" TyPool.ofJson?
  let services ← required? fields "services" (asList? Service.ofJson?)
  return ⟨modules, instances, root, types, services⟩

def fingerprint (graph : Graph) : ContentHash :=
  ContentHash.ofText graph.toJson.compact

end Graph

end Elastic
