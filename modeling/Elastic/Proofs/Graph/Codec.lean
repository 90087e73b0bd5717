import Elastic.Graph.Json
import Elastic.Proofs.Json.Sorting
import Elastic.Proofs.Ty.Codec

namespace Elastic

open Json

/-! Designs are read back from their JSON form. Their numbers are of 32 bits. -/

theorem reads_id {id : Nat} (bound : id < limit32) : Reads idOfJson? (.nat id) id :=
  reads_nat bound (by decide)

theorem reads_ids {ids : List Nat} (bound : ∀ id ∈ ids, id < limit32) :
    Reads (asList? idOfJson?) (list .nat ids) ids :=
  reads_list fun id member => reads_id (bound id member)

theorem reads_optionalId {id : Option Nat} (bound : ∀ held, id = some held → held < limit32) :
    Reads (asNullable? idOfJson?) (ofOption .nat id) id :=
  reads_option nofun fun held same => reads_id (bound held same)

namespace Expr

/-- The numbers in an expression are of 32 bits. -/
def Narrow : Expr → Prop
  | .const _ => True
  | .port id | .channelData id | .channelValid id | .channelReady id | .not id => id < limit32
  | .struct ids => ∀ id ∈ ids, id < limit32
  | .field first second | .and first second | .or first second | .builtinResult first second =>
    first < limit32 ∧ second < limit32

theorem reads_idPair {first second : String} {a b : Nat} (apart : first ≠ second)
    (bounds : a < limit32 ∧ b < limit32) :
    Reads (idPair? first second) (.obj [(first, .nat a), (second, .nat b)]) (a, b) := by
  have one := reads_id bounds.1
  have other := reads_id bounds.2
  exact reads_record (by simp [apart]) (by simp [one.plain, other.plain])
    (by simp [required?, member?, one.decodes, other.decodes, apart])

theorem reads {expr : Expr} (narrow : expr.Narrow) : Reads ofJson? expr.toJson expr := by
  have tagged {name : String} {content : Json} (plain : content.isPlain = true)
      (decodes : ofVariant? name content = some expr) : Reads ofJson? (variant name content) expr :=
    reads_variant plain decodes
  cases expr with
  | const value =>
      have number : Reads (asNat? limit64) (.nat value.toNat) value.toNat :=
        reads_nat value.toNat_lt (Nat.le_refl _)
      exact tagged number.plain (by simp [ofVariant?, number.decodes])
  | port id | channelData id | channelValid id | channelReady id | not id =>
      have number := reads_id narrow
      exact tagged number.plain (by simp [ofVariant?, number.decodes])
  | struct ids =>
      have numbers := reads_ids narrow
      exact tagged numbers.plain (by simp [ofVariant?, numbers.decodes])
  | and first second | or first second =>
      have pair := reads_pair (reads_id narrow.1) (reads_id narrow.2)
      exact tagged pair.plain (by simp [ofVariant?, pair.decodes])
  | field first second =>
      have pair : Reads (idPair? "base" "index") _ _ := reads_idPair (by decide) narrow
      exact tagged pair.plain (by simp [ofVariant?, pair.decodes])
  | builtinResult first second =>
      have pair : Reads (idPair? "builtin" "index") _ _ := reads_idPair (by decide) narrow
      exact tagged pair.plain (by simp [ofVariant?, pair.decodes])

end Expr

namespace Port

structure Narrow (port : Port) : Prop where
  name : port.name < limit32
  ty : port.ty < limit32

theorem reads {port : Port} (narrow : port.Narrow) : Reads ofJson? port.toJson port := by
  have name := reads_id narrow.name
  have ty := reads_id narrow.ty
  exact reads_record (by simp) (by simp [name.plain, ty.plain])
    (by simp [required?, member?, name.decodes, ty.decodes])

end Port

namespace Producer

def Narrow : Producer → Prop
  | .wrapped first second | .bundle first second => first < limit32 ∧ second < limit32

theorem reads {producer : Producer} (narrow : producer.Narrow) :
    Reads ofJson? producer.toJson producer := by
  cases producer with
  | wrapped data valid =>
      have pair : Reads (Expr.idPair? "data" "valid") _ _ := Expr.reads_idPair (by decide) narrow
      exact reads_variant pair.plain (by simp [pair.decodes])
  | bundle held role =>
      have pair : Reads (Expr.idPair? "bundle" "role") _ _ := Expr.reads_idPair (by decide) narrow
      exact reads_variant pair.plain (by simp [pair.decodes])

end Producer

namespace Consumer

def Narrow : Consumer → Prop
  | .unbound => True
  | .unwrapped ready => ready < limit32
  | .bundle held role => held < limit32 ∧ role < limit32

theorem reads {consumer : Consumer} (narrow : consumer.Narrow) :
    Reads ofJson? consumer.toJson consumer := by
  cases consumer with
  | unbound => exact reads_label rfl
  | unwrapped ready =>
      have number := reads_id narrow
      have content : Reads (fun json => (asRecord? ["ready"] json).bind fun fields =>
          required? fields "ready" idOfJson?) (.obj [("ready", .nat ready)]) ready :=
        reads_record (by simp) (by simp [number.plain])
          (by simp [required?, member?, number.decodes])
      exact reads_variant content.plain
        (by simp [asRecord?_obj, required?, member?, number.decodes])
  | bundle held role =>
      have pair : Reads (Expr.idPair? "bundle" "role") _ _ := Expr.reads_idPair (by decide) narrow
      exact reads_variant pair.plain (by simp [pair.decodes])

end Consumer

namespace Channel

structure Narrow (channel : Channel) : Prop where
  payload : channel.payload < limit32
  producer : channel.producer.Narrow
  consumer : channel.consumer.Narrow

theorem reads {channel : Channel} (narrow : channel.Narrow) :
    Reads ofJson? channel.toJson channel := by
  have payload := reads_id narrow.payload
  have producer := Producer.reads narrow.producer
  have consumer := Consumer.reads narrow.consumer
  exact reads_record (by simp) (by simp [payload.plain, producer.plain, consumer.plain])
    (by simp [required?, member?, payload.decodes, producer.decodes, consumer.decodes])

end Channel

namespace BundleEnd

def Narrow : BundleEnd → Prop
  | .unbound | .local => True
  | .service held => held < limit32

theorem reads {bundleEnd : BundleEnd} (narrow : bundleEnd.Narrow) :
    Reads ofJson? bundleEnd.toJson bundleEnd := by
  cases bundleEnd with
  | unbound => exact reads_label rfl
  | «local» => exact reads_label rfl
  | service held =>
      have number := reads_id narrow
      exact reads_variant number.plain (by simp [number.decodes])

end BundleEnd

namespace RoleSlot

structure Narrow (slot : RoleSlot) : Prop where
  name : slot.name < limit32
  payload : slot.payload < limit32
  client : ∀ channel, slot.client = some channel → channel < limit32
  server : ∀ channel, slot.server = some channel → channel < limit32

theorem reads {slot : RoleSlot} (narrow : slot.Narrow) : Reads ofJson? slot.toJson slot := by
  have name := reads_id narrow.name
  have flow := slot.flow.reads
  have payload := reads_id narrow.payload
  have client := reads_optionalId narrow.client
  have server := reads_optionalId narrow.server
  exact reads_wholeRecord (by simp)
    (by simp [name.plain, flow.plain, payload.plain, client.plain, server.plain])
    (by simp [required?, nullable?, optional?, member?, name.decodes, flow.decodes,
      payload.decodes, client.decodes, server.decodes])

end RoleSlot

namespace Bundle

structure Narrow (bundle : Bundle) : Prop where
  ty : bundle.ty < limit32
  roles : ∀ slot ∈ bundle.roles, slot.Narrow
  client : bundle.client.Narrow
  server : bundle.server.Narrow

theorem reads {bundle : Bundle} (narrow : bundle.Narrow) : Reads ofJson? bundle.toJson bundle := by
  have ty := reads_id narrow.ty
  have roles := reads_list fun slot member => RoleSlot.reads (narrow.roles slot member)
  have client := BundleEnd.reads narrow.client
  have server := BundleEnd.reads narrow.server
  exact reads_record (by simp) (by simp [ty.plain, roles.plain, client.plain, server.plain])
    (by simp [required?, member?, ty.decodes, roles.decodes, client.decodes, server.decodes])

end Bundle

theorem ServiceSide.reads (side : ServiceSide) : Reads ofJson? side.toJson side := by
  cases side <;> exact ⟨rfl, rfl⟩

theorem AppId.reads (appId : AppId) : Reads ofJson? appId.toJson appId := by
  obtain ⟨title, index⟩ := appId
  have name := reads_text title
  cases index with
  | none =>
      exact reads_record (by simp) (by simp [name.plain])
        (by simp [required?, nullable?, optional?, member?, name.decodes])
  | some index =>
      have number : Reads (asNat? limit32) (.nat index.toNat) index.toNat :=
        reads_nat index.toNat_lt (by decide)
      have present := reads_present number (by rintro ⟨⟩)
      exact reads_record (by simp) (by simp [name.plain, present.plain])
        (by simp [required?, nullable?, optional?, member?, name.decodes, present.decodes])

theorem AppPath.reads (path : AppPath) : Reads ofJson? path.toJson path :=
  reads_list fun appId _ => appId.reads

namespace ServiceInstance

structure Narrow (held : ServiceInstance) : Prop where
  service : held.service < limit32
  operation : held.operation < limit32
  bundle : held.bundle < limit32

theorem reads {held : ServiceInstance} (narrow : held.Narrow) : Reads ofJson? held.toJson held := by
  have appId := held.appId.reads
  have service := reads_id narrow.service
  have operation := reads_id narrow.operation
  have bundle := reads_id narrow.bundle
  have side := held.side.reads
  exact reads_record (by simp)
    (by simp [appId.plain, service.plain, operation.plain, bundle.plain, side.plain])
    (by simp [required?, member?, appId.decodes, service.decodes, operation.decodes,
      bundle.decodes, side.decodes])

end ServiceInstance

namespace Builtin

structure Narrow (builtin : Builtin) : Prop where
  service : builtin.service < limit32
  tag : builtin.tag < limit32
  results : ∀ ty ∈ builtin.results, ty < limit32
  inputs : ∀ expr ∈ builtin.inputs, expr < limit32

theorem reads {builtin : Builtin} (narrow : builtin.Narrow) :
    Reads ofJson? builtin.toJson builtin := by
  have appId := builtin.appId.reads
  have service := reads_id narrow.service
  have tag := reads_id narrow.tag
  have results := reads_ids narrow.results
  have inputs := reads_ids narrow.inputs
  exact reads_record (by simp)
    (by simp [appId.plain, service.plain, tag.plain, results.plain, inputs.plain])
    (by simp [required?, member?, appId.decodes, service.decodes, tag.decodes, results.decodes,
      inputs.decodes])

end Builtin

namespace Child

structure Narrow (child : Child) : Prop where
  module : child.module < limit32
  connections : ∀ expr ∈ child.connections, expr < limit32

theorem reads {child : Child} (narrow : child.Narrow) : Reads ofJson? child.toJson child := by
  have appId := child.appId.reads
  have module := reads_id narrow.module
  have connections := reads_ids narrow.connections
  exact reads_record (by simp) (by simp [appId.plain, module.plain, connections.plain])
    (by simp [required?, member?, appId.decodes, module.decodes, connections.decodes])

end Child

theorem Arena.reads {encode : α → Json} {decode : Json → Option α} {arena : Arena α}
    (each : ∀ item ∈ arena.toList, Reads decode (encode item) item) :
    Reads (ofJson? decode) (arena.toJson encode) arena := by
  have items := reads_list each
  have same : ofList arena.toList = arena := by simp [ofList, toList]
  exact reads_record (by simp) (by simp [items.plain])
    (by simp [required?, member?, items.decodes, same])

namespace Metadata

/-- The entries and all objects in them are in the order of their keys, as they are set, and there
is no real among them. -/
structure Orderly (metadata : Metadata) : Prop where
  sorted : (Json.obj metadata.entries).sorted = .obj metadata.entries
  plain : (Json.obj metadata.entries).isPlain = true

theorem orderly_empty : Orderly empty := ⟨rfl, rfl⟩

theorem Orderly.withVersion {metadata : Metadata} (orderly : metadata.Orderly) (version : String) :
    (metadata.withVersion version).Orderly := ⟨orderly.sorted, orderly.plain⟩

theorem Orderly.withEntry {metadata : Metadata} (orderly : metadata.Orderly) (key : String)
    {value : Json} (plain : value.isPlain = true) : (metadata.withEntry key value).Orderly where
  sorted := ((inOrder_of_sorted orderly.sorted).insertSorted (sorted_sorted value)).sorted_obj
  plain := membersPlain_insertSorted orderly.plain (isPlain_sorted value plain)

theorem reads {metadata : Metadata} (orderly : metadata.Orderly) :
    Reads ofJson? metadata.toJson metadata := by
  obtain ⟨version, entries⟩ := metadata
  have entered : entriesOfJson? (.obj entries) = some entries :=
    congrArg some (Json.obj.inj orderly.sorted)
  have plain := orderly.plain
  cases version with
  | none =>
      cases entries with
      | nil => exact ⟨rfl, rfl⟩
      | cons entry rest =>
          exact reads_record (by simp) (by simpa using plain)
            (by simp [nullable?, optional?, member?, entered])
  | some text =>
      have version := reads_present (reads_text text) (by rintro ⟨⟩)
      cases entries with
      | nil =>
          exact reads_record (by simp) (by simp [version.plain])
            (by simp [nullable?, optional?, member?, version.decodes])
      | cons entry rest =>
          exact reads_record (by simp) (by simpa [version.plain] using plain)
            (by simp [nullable?, optional?, member?, version.decodes, entered])

end Metadata

namespace Module

structure Narrow (module : Module) : Prop where
  id : module.id < limit32
  name : module.name < limit32
  ports : ∀ port ∈ module.ports, port.Narrow
  metadata : ∀ metadata, module.metadata = some metadata → metadata.Orderly
  exprs : ∀ expr ∈ module.exprs.toList, expr.Narrow
  channels : ∀ channel ∈ module.channels.toList, channel.Narrow
  bundles : ∀ bundle ∈ module.bundles.toList, bundle.Narrow
  services : ∀ held ∈ module.services.toList, held.Narrow
  builtins : ∀ builtin ∈ module.builtins, builtin.Narrow
  children : ∀ child ∈ module.children, child.Narrow

theorem reads {module : Module} (narrow : module.Narrow) : Reads ofJson? module.toJson module := by
  have id := reads_id narrow.id
  have name := reads_id narrow.name
  have ports := reads_list fun port member => Port.reads (narrow.ports port member)
  have metadata : Reads (asNullable? Metadata.ofJson?) (ofOption Metadata.toJson module.metadata)
      module.metadata :=
    reads_option (fun _ => nofun) fun held same => Metadata.reads (narrow.metadata held same)
  have exprs := Arena.reads fun expr member => Expr.reads (narrow.exprs expr member)
  have channels := Arena.reads fun channel member => Channel.reads (narrow.channels channel member)
  have bundles := Arena.reads fun bundle member => Bundle.reads (narrow.bundles bundle member)
  have services := Arena.reads fun held member =>
    ServiceInstance.reads (narrow.services held member)
  have builtins := reads_list fun builtin member => Builtin.reads (narrow.builtins builtin member)
  have children := reads_list fun child member => Child.reads (narrow.children child member)
  exact reads_record (by simp)
    (by simp [id.plain, name.plain, ports.plain, metadata.plain, exprs.plain, channels.plain,
      bundles.plain, services.plain, builtins.plain, children.plain])
    (by simp [required?, nullable?, optional?, member?, id.decodes, name.decodes, ports.decodes,
      metadata.decodes, exprs.decodes, channels.decodes, bundles.decodes, services.decodes,
      builtins.decodes, children.decodes])

end Module

namespace Instance

structure Narrow (held : Instance) : Prop where
  id : held.id < limit32
  module : held.module < limit32
  parent : ∀ outer, held.parent = some outer → outer < limit32
  children : ∀ below ∈ held.children, below < limit32

theorem reads {held : Instance} (narrow : held.Narrow) : Reads ofJson? held.toJson held := by
  have id := reads_id narrow.id
  have path := held.path.reads
  have module := reads_id narrow.module
  have parent := reads_optionalId narrow.parent
  have children := reads_ids narrow.children
  exact reads_record (by simp)
    (by simp [id.plain, path.plain, module.plain, parent.plain, children.plain])
    (by simp [required?, nullable?, optional?, member?, id.decodes, path.decodes, module.decodes,
      parent.decodes, children.decodes])

end Instance

namespace Graph

/-- The numbers of a design are of 32 bits, and the metadata of its modules are in order. -/
structure Narrow (graph : Graph) : Prop where
  modules : ∀ module ∈ graph.modules.toList, module.Narrow
  instances : ∀ held ∈ graph.instances.toList, held.Narrow
  root : graph.root < limit32

theorem reads {graph : Graph} (narrow : graph.Narrow) : Reads ofJson? graph.toJson graph := by
  have modules := Arena.reads fun module member => Module.reads (narrow.modules module member)
  have instances := Arena.reads fun held member => Instance.reads (narrow.instances held member)
  have root := reads_id narrow.root
  have types := graph.types.reads
  have services : Reads (asList? Service.ofJson?) (list Service.toJson graph.services) _ :=
    reads_list fun service _ => service.reads
  exact reads_record (by simp)
    (by simp [modules.plain, instances.plain, root.plain, types.plain, services.plain])
    (by simp [required?, member?, modules.decodes, instances.decodes, root.decodes,
      types.decodes, services.decodes])

end Graph

end Elastic
