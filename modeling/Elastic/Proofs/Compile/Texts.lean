import Elastic.Compile.Manifest
import Elastic.Designs
import Elastic.Proofs.Graph.Codec

namespace Elastic

open Json

/-! Designs and manifests are read back from their texts, so that a text stands for one design. -/

theorem BackendPreset.reads (preset : BackendPreset) : Reads ofJson? preset.toJson preset := by
  cases preset <;> exact ⟨rfl, rfl⟩

theorem ArbitrationPolicy.reads (policy : ArbitrationPolicy) :
    Reads ofJson? policy.toJson policy := by
  cases policy <;> exact ⟨rfl, rfl⟩

namespace Manifest

theorem InstanceEntry.reads (entry : InstanceEntry) : Reads ofJson? entry.toJson entry := by
  have path := reads_text entry.path
  have module := reads_text entry.module
  exact reads_record (by simp) (by simp [path.plain, module.plain])
    (by simp [required?, member?, path.decodes, module.decodes])

theorem PortEntry.reads (entry : PortEntry) : Reads ofJson? entry.toJson entry := by
  have name := reads_text entry.name
  have ty := reads_text entry.ty
  exact reads_record (by simp) (by simp [name.plain, ty.plain])
    (by simp [required?, member?, name.decodes, ty.decodes])

theorem ModuleEntry.reads {entry : ModuleEntry}
    (orderly : ∀ metadata, entry.metadata = some metadata → metadata.Orderly) :
    Reads ofJson? entry.toJson entry := by
  obtain ⟨title, held, metadata⟩ := entry
  have name := reads_text title
  have ports : Reads (asList? PortEntry.ofJson?) (list PortEntry.toJson held) held :=
    reads_list fun port _ => port.reads
  cases metadata with
  | none =>
      exact reads_record (by simp) (by simp [name.plain, ports.plain])
        (by simp [required?, nullable?, optional?, member?, name.decodes, ports.decodes])
  | some metadata =>
      have metadata := reads_present (Metadata.reads (orderly metadata rfl)) (by rintro ⟨⟩)
      exact reads_record (by simp) (by simp [name.plain, ports.plain, metadata.plain])
        (by simp [required?, nullable?, optional?, member?, name.decodes, ports.decodes,
          metadata.decodes])

theorem OperationEntry.reads (entry : OperationEntry) : Reads ofJson? entry.toJson entry := by
  have name := reads_text entry.name
  have bundle := reads_text entry.bundle
  exact reads_record (by simp) (by simp [name.plain, bundle.plain])
    (by simp [required?, member?, name.decodes, bundle.decodes])

theorem ServiceEntry.reads (entry : ServiceEntry) : Reads ofJson? entry.toJson entry := by
  have name := reads_text entry.name
  have provider := entry.provider.reads
  have operations : Reads (asList? OperationEntry.ofJson?)
      (list OperationEntry.toJson entry.operations) entry.operations :=
    reads_list fun operation _ => operation.reads
  exact reads_record (by simp) (by simp [name.plain, provider.plain, operations.plain])
    (by simp [required?, member?, name.decodes, provider.decodes, operations.decodes])

theorem ClientEntry.reads (entry : ClientEntry) : Reads ofJson? entry.toJson entry := by
  have path := reads_text entry.path
  have operation := reads_text entry.operation
  exact reads_record (by simp) (by simp [path.plain, operation.plain])
    (by simp [required?, member?, path.decodes, operation.decodes])

theorem BuiltinEntry.reads (entry : BuiltinEntry) : Reads ofJson? entry.toJson entry := by
  have path := reads_text entry.path
  have service := reads_text entry.service
  have tag := reads_text entry.tag
  have clients : Reads (asList? ClientEntry.ofJson?) (list ClientEntry.toJson entry.clients)
      entry.clients :=
    reads_list fun client _ => client.reads
  exact reads_record (by simp) (by simp [path.plain, service.plain, tag.plain, clients.plain])
    (by simp [required?, member?, path.decodes, service.decodes, tag.decodes, clients.decodes])

theorem HostEntry.reads (entry : HostEntry) : Reads ofJson? entry.toJson entry := by
  have path := reads_text entry.path
  have service := reads_text entry.service
  have operation := reads_text entry.operation
  have side := entry.side.reads
  exact reads_record (by simp) (by simp [path.plain, service.plain, operation.plain, side.plain])
    (by simp [required?, member?, path.decodes, service.decodes, operation.decodes, side.decodes])

theorem reads_system (name version : String) :
    Reads systemOfJson? (.obj [("name", .str name), ("version", .str version)])
      (name, version) := by
  have title := reads_text name
  have edition := reads_text version
  exact reads_record (by simp) (by simp [title.plain, edition.plain])
    (by simp [required?, member?, title.decodes, edition.decodes])

structure Narrow (manifest : Manifest) : Prop where
  apiVersion : manifest.apiVersion < limit32
  metadata : ∀ entry ∈ manifest.modules, ∀ metadata, entry.metadata = some metadata →
    metadata.Orderly

theorem reads {manifest : Manifest} (narrow : manifest.Narrow) :
    Reads ofJson? manifest.toJson manifest := by
  have apiVersion : Reads (asNat? limit32) (.nat manifest.apiVersion) _ :=
    reads_nat narrow.apiVersion (by decide)
  have system := reads_system manifest.name manifest.version
  have backend := manifest.backend.reads
  have policy := manifest.policy.reads
  have fingerprint := reads_text manifest.fingerprint
  have instances : Reads (asList? InstanceEntry.ofJson?)
      (list InstanceEntry.toJson manifest.instances) _ :=
    reads_list fun entry _ => entry.reads
  have modules : Reads (asList? ModuleEntry.ofJson?) (list ModuleEntry.toJson manifest.modules) _ :=
    reads_list fun entry member => ModuleEntry.reads (narrow.metadata entry member)
  have services : Reads (asList? ServiceEntry.ofJson?)
      (list ServiceEntry.toJson manifest.services) _ :=
    reads_list fun entry _ => entry.reads
  have builtins : Reads (asList? BuiltinEntry.ofJson?)
      (list BuiltinEntry.toJson manifest.builtins) _ :=
    reads_list fun entry _ => entry.reads
  have hosts : Reads (asList? HostEntry.ofJson?) (list HostEntry.toJson manifest.hosts) _ :=
    reads_list fun entry _ => entry.reads
  exact reads_record (by simp)
    (by simp [apiVersion.plain, system.plain, backend.plain, policy.plain, fingerprint.plain,
      instances.plain, modules.plain, services.plain, builtins.plain, hosts.plain])
    (by simp [required?, optional?, member?, apiVersion.decodes, system.decodes, backend.decodes,
      policy.decodes, fingerprint.decodes, instances.decodes, modules.decodes, services.decodes,
      builtins.decodes, hosts.decodes])

end Manifest

theorem Json.Reads.texts {decode : Json → Option α} {tree : Json} {value : α}
    (reads : Reads decode tree value) (shallow : tree.depth ≤ nestingLimit) :
    (read? tree.compact).bind decode = some value ∧
      (read? tree.pretty).bind decode = some value := by
  rw [read?_compact reads.plain shallow, read?_pretty reads.plain shallow]
  exact ⟨reads.decodes, reads.decodes⟩

/-- A design and a manifest are decoded from their compact and their indented texts. So no two
designs have one compact text, and a decoded design has the fingerprint of the one it was. -/
theorem texts_decode_to_what_was_written :
    (∀ graph : Graph, graph.Narrow → graph.toJson.depth ≤ nestingLimit →
      ((read? graph.toJson.compact).bind Graph.ofJson? = some graph ∧
        (read? graph.toJson.pretty).bind Graph.ofJson? = some graph) ∧
      (∀ other : Graph, other.Narrow → other.toJson.depth ≤ nestingLimit →
        other.toJson.compact = graph.toJson.compact → other = graph) ∧
      ∀ text, text = graph.toJson.compact ∨ text = graph.toJson.pretty →
        ∀ decoded, (read? text).bind Graph.ofJson? = some decoded →
          decoded.fingerprint = graph.fingerprint) ∧
    ∀ manifest : Manifest, manifest.Narrow → manifest.toJson.depth ≤ nestingLimit →
      (read? manifest.toJson.compact).bind Manifest.ofJson? = some manifest ∧
        (read? manifest.text).bind Manifest.ofJson? = some manifest := by
  refine ⟨fun graph narrow shallow => ?_, fun manifest narrow shallow =>
    (Manifest.reads narrow).texts shallow⟩
  have texts := (Graph.reads narrow).texts shallow
  refine ⟨texts, fun other narrow' shallow' same => ?_, fun text written decoded read => ?_⟩
  · have decoded := ((Graph.reads narrow').texts shallow').1
    rw [same, texts.1] at decoded
    exact (Option.some.inj decoded).symm
  · have known : (read? text).bind Graph.ofJson? = some graph := by
      rcases written with rfl | rfl
      · exact texts.1
      · exact texts.2
    rw [known] at read
    rw [Option.some.inj read]

namespace SmallDesign

def notes : Metadata := (Metadata.empty.withVersion "0.1").withEntry "size" (.nat 1)

def module : Module where
  id := 0
  name := 0
  ports := [⟨1, 0⟩]
  metadata := some notes
  exprs := .ofList [.port 0, .const 7, .struct [1, 0]]
  channels := .ofList [⟨1, .wrapped 1 0, .unbound⟩]

def graph : Graph where
  modules := .ofList [module]
  instances := .ofList [⟨0, [], 0, none, []⟩]
  root := 0
  types := ⟨#[.clock, .bits 8]⟩
  services := [MemoryDesign.memoryService]

def manifest : Manifest where
  apiVersion := Manifest.currentVersion
  name := "small"
  version := "0.1"
  backend := .cosim
  policy := .roundRobin
  fingerprint := "00"
  instances := [⟨"", "Top"⟩]
  modules := [⟨"Top", [⟨"clk", "clock"⟩], some notes⟩]
  services := [Manifest.serviceEntry MemoryDesign.memoryService]
  builtins := []
  hosts := []

theorem notes_orderly : notes.Orderly :=
  (Metadata.orderly_empty.withVersion "0.1").withEntry "size" rfl

theorem module_narrow : module.Narrow where
  id := by decide
  name := by decide
  ports := by
    intro port member
    obtain rfl := List.mem_singleton.1 member
    exact ⟨by decide, by decide⟩
  metadata := fun metadata held => Option.some.inj held ▸ notes_orderly
  exprs := by simp [module, Arena.ofList, Arena.toList, Expr.Narrow, limit32]
  channels := by
    intro channel member
    obtain rfl := List.mem_singleton.1 member
    exact ⟨by decide, ⟨by decide, by decide⟩, trivial⟩
  bundles := nofun
  services := nofun
  builtins := nofun
  children := nofun

theorem graph_narrow : graph.Narrow where
  modules := fun held member => List.mem_singleton.1 member ▸ module_narrow
  instances := by
    intro held member
    obtain rfl := List.mem_singleton.1 member
    exact ⟨by decide, by decide, nofun, nofun⟩
  root := by decide

theorem texts_are_read_back :
    (graph.Narrow ∧ graph.toJson.depth ≤ nestingLimit ∧
      (read? graph.toJson.pretty).bind Graph.ofJson? = some graph) ∧
    manifest.Narrow ∧ manifest.toJson.depth ≤ nestingLimit ∧
      (read? manifest.text).bind Manifest.ofJson? = some manifest := by
  have shallow : graph.toJson.depth ≤ nestingLimit := by decide +kernel
  have shallow' : manifest.toJson.depth ≤ nestingLimit := by decide +kernel
  have narrow : manifest.Narrow := ⟨by decide, by
    rintro entry member metadata held
    obtain rfl := List.mem_singleton.1 member
    obtain rfl := Option.some.inj held
    exact notes_orderly⟩
  have texts := texts_decode_to_what_was_written
  exact ⟨⟨graph_narrow, shallow, (texts.1 graph graph_narrow shallow).1.2⟩, narrow, shallow',
    (texts.2 manifest narrow shallow').2⟩

end SmallDesign

end Elastic
