import Elastic.Proofs.Compile.Resolution
import Elastic.Proofs.Compile.Texts

namespace Elastic

open Json

/-! The table of host endpoints, read back from its text. Entries stand in the order of the
endpoints, and list the roles of the operation in the order of its bundle. -/

structure TableChannel where
  name : String
  sends : Bool
  payload : String
deriving DecidableEq, Repr

structure TableEntry where
  path : String
  service : String
  operation : String
  side : ServiceSide
  channels : List TableChannel
deriving DecidableEq, Repr

structure EndpointTable where
  system : String
  entries : List TableEntry
deriving DecidableEq, Repr

namespace TableChannel

def toJson (channel : TableChannel) : Json :=
  .obj [
    ("name", .str channel.name),
    ("direction", .str (if channel.sends then "send" else "recv")),
    ("type", .str channel.payload)]

def ofJson? (json : Json) : Option TableChannel := do
  let fields ← asRecord? ["name", "direction", "type"] json
  let name ← required? fields "name" asText?
  let sends ← required? fields "direction" (asLabel? [("send", true), ("recv", false)])
  let payload ← required? fields "type" asText?
  return ⟨name, sends, payload⟩

theorem reads_direction (sends : Bool) :
    Reads (asLabel? [("send", true), ("recv", false)]) (.str (if sends then "send" else "recv"))
      sends := by
  cases sends <;> exact ⟨rfl, rfl⟩

theorem reads (channel : TableChannel) : Reads ofJson? channel.toJson channel := by
  have name := reads_text channel.name
  have direction := reads_direction channel.sends
  have payload := reads_text channel.payload
  exact reads_record (by simp) (by simp [name.plain, direction.plain, payload.plain])
    (by simp [required?, member?, name.decodes, direction.decodes, payload.decodes])

def ofRole (side : ServiceSide) (role : Role) : TableChannel :=
  ⟨role.name, hostSends side role.flow, role.payload.text⟩

end TableChannel

namespace TableEntry

def toJson (entry : TableEntry) : Json :=
  .obj [
    ("path", .str entry.path),
    ("service", .str entry.service),
    ("operation", .str entry.operation),
    ("role", entry.side.toJson),
    ("channels", list TableChannel.toJson entry.channels)]

def ofJson? (json : Json) : Option TableEntry := do
  let fields ← asRecord? ["path", "service", "operation", "role", "channels"] json
  let path ← required? fields "path" asText?
  let service ← required? fields "service" asText?
  let operation ← required? fields "operation" asText?
  let side ← required? fields "role" ServiceSide.ofJson?
  let channels ← required? fields "channels" (asList? TableChannel.ofJson?)
  return ⟨path, service, operation, side, channels⟩

theorem reads (entry : TableEntry) : Reads ofJson? entry.toJson entry := by
  have path := reads_text entry.path
  have service := reads_text entry.service
  have operation := reads_text entry.operation
  have side := entry.side.reads
  have channels : Reads (asList? TableChannel.ofJson?) (list TableChannel.toJson entry.channels)
      entry.channels :=
    reads_list fun channel _ => channel.reads
  exact reads_record (by simp)
    (by simp [path.plain, service.plain, operation.plain, side.plain, channels.plain])
    (by simp [required?, member?, path.decodes, service.decodes, operation.decodes, side.decodes,
      channels.decodes])

def ofEndpoint (host : HostEndpoint) (operation : Operation) : TableEntry where
  path := AppPath.text host.path
  service := host.service
  operation := host.operation
  side := host.side
  channels := operation.bundle.map (TableChannel.ofRole host.side)

end TableEntry

theorem Json.depth_list_le {encode : α → Json} {bound : Nat} {values : List α}
    (each : ∀ value ∈ values, (encode value).depth ≤ bound) :
    (list encode values).depth ≤ bound + 1 := by
  refine Nat.succ_le_succ ?_
  induction values with
  | nil => exact Nat.zero_le _
  | cons value rest induction =>
      obtain ⟨first, others⟩ := List.forall_mem_cons.1 each
      exact Nat.max_le.2 ⟨first, induction others⟩

namespace EndpointTable

def toJson (table : EndpointTable) : Json :=
  .obj [("system", .str table.system), ("endpoints", list TableEntry.toJson table.entries)]

def ofJson? (json : Json) : Option EndpointTable := do
  let fields ← asRecord? ["system", "endpoints"] json
  let system ← required? fields "system" asText?
  let entries ← required? fields "endpoints" (asList? TableEntry.ofJson?)
  return ⟨system, entries⟩

def read? (text : String) : Option EndpointTable := (Json.read? text).bind ofJson?

theorem reads (table : EndpointTable) : Reads ofJson? table.toJson table := by
  have system := reads_text table.system
  have entries : Reads (asList? TableEntry.ofJson?) (list TableEntry.toJson table.entries)
      table.entries :=
    reads_list fun entry _ => entry.reads
  exact reads_record (by simp) (by simp [system.plain, entries.plain])
    (by simp [required?, member?, system.decodes, entries.decodes])

theorem shallow (table : EndpointTable) : table.toJson.depth ≤ nestingLimit := by
  have channels (entry : TableEntry) :
      (list TableChannel.toJson entry.channels).depth ≤ 2 :=
    depth_list_le fun channel _ => Nat.le_refl 1
  have entries : (list TableEntry.toJson table.entries).depth ≤ 4 :=
    depth_list_le fun entry _ => by
      have inner := channels entry
      simp only [TableEntry.toJson, ServiceSide.toJson, depth, depthMembers] at inner ⊢
      omega
  simp only [toJson, depth, depthMembers, nestingLimit] at entries ⊢
  omega

/-- A table is read back from its text. -/
theorem read?_pretty (table : EndpointTable) : read? table.toJson.pretty = some table :=
  (table.reads.texts table.shallow).2

end EndpointTable

namespace Artifact

variable {graph : Graph} {host : HostEndpoint} {hosts : List HostEndpoint}

/-- An entry for an endpoint lists the roles of its operation, which is looked up by name. -/
def Describes (graph : Graph) (host : HostEndpoint) (entry : TableEntry) : Prop :=
  ∃ service operation, graph.services.find? (·.name = host.service) = some service ∧
    service.operation? host.operation = some operation ∧ entry = .ofEndpoint host operation

theorem paths_of_describes {entries : List TableEntry}
    (describes : List.Forall₂ (Describes graph) hosts entries) :
    entries.map (·.path) = hosts.map fun host => AppPath.text host.path := by
  induction describes with
  | nil => rfl
  | cons first _ induction =>
      obtain ⟨_, _, -, -, rfl⟩ := first
      exact congrArg (_ :: ·) induction

theorem describes_get {entries : List TableEntry}
    (describes : List.Forall₂ (Describes graph) hosts entries) {place : Nat} {entry : TableEntry}
    (listed : hosts[place]? = some host) (present : entries[place]? = some entry) :
    Describes graph host entry := by
  obtain ⟨inside, rfl⟩ := List.getElem?_eq_some_iff.1 listed
  obtain ⟨beside, rfl⟩ := List.getElem?_eq_some_iff.1 present
  exact describes.get inside beside

theorem endpointJson_ok {json : Json} (lowered : endpointJson graph host = .ok json) :
    ∃ entry, Describes graph host entry ∧ json = TableEntry.toJson entry := by
  unfold endpointJson at lowered
  split at lowered
  · cases lowered
  · rename_i service known
    split at lowered
    · cases lowered
    · rename_i operation inside
      cases lowered
      have channels : list (channelJson host.side) operation.bundle =
          list TableChannel.toJson (operation.bundle.map (TableChannel.ofRole host.side)) := by
        rw [list, list, List.map_map]
        rfl
      refine ⟨_, ⟨service, operation, known, inside, rfl⟩, ?_⟩
      rw [channels]
      rfl

theorem endpointsJson_entries {endpoints : List Json}
    (lowered : endpointsJson graph hosts = .ok endpoints) :
    ∃ entries, List.Forall₂ (Describes graph) hosts entries ∧
      endpoints = entries.map TableEntry.toJson := by
  induction hosts generalizing endpoints with
  | nil =>
      cases lowered
      exact ⟨[], .nil, rfl⟩
  | cons host rest induction =>
      unfold endpointsJson at lowered
      cases first : endpointJson graph host with
      | error error =>
          rw [first] at lowered
          cases lowered
      | ok json =>
          cases more : endpointsJson graph rest with
          | error error =>
              rw [first, more] at lowered
              cases lowered
          | ok others =>
              rw [first, more] at lowered
              cases lowered
              obtain ⟨entry, describes, rfl⟩ := endpointJson_ok first
              obtain ⟨entries, all, rfl⟩ := induction more
              exact ⟨entry :: entries, .cons describes all, rfl⟩

theorem lower_cosim_ok {name : String} {policy : ArbitrationPolicy} {map : ServiceMap}
    {manifest : Manifest} {artifacts : List Artifact}
    (lowered : lower .cosim name policy graph map manifest = .ok artifacts) :
    ∃ endpoints, endpointsJson graph map.hosts = .ok endpoints ∧
      artifacts = shared name graph manifest ++
        [ofText "cosim/endpoints.json" (endpointTable name endpoints)] := by
  unfold lower at lowered
  cases namedWith : endpointsJson graph map.hosts with
  | error error =>
      rw [namedWith] at lowered
      cases lowered
  | ok endpoints =>
      rw [namedWith] at lowered
      cases lowered
      exact ⟨endpoints, rfl, rfl⟩

end Artifact

namespace CompiledDesign

/-- On a backend with host channels there is a table with an entry for each host endpoint, in
order. -/
theorem table_of_compile {name version : String} {graph : Graph} {names : Names}
    {capabilities : Capabilities} {policy : ArbitrationPolicy} {design : CompiledDesign}
    {warnings : List Diagnostic}
    (compiled : compile name version graph names .cosim capabilities policy =
      (.ok design, warnings)) :
    ∃ artifact entries, design.artifact? "cosim/endpoints.json" = some artifact ∧
      artifact.text?.bind EndpointTable.read? = some ⟨name, entries⟩ ∧
      List.Forall₂ (Artifact.Describes graph) design.services.hosts entries := by
  obtain ⟨endpoints, namedWith, made⟩ := Artifact.lower_cosim_ok (lower_of_compile compiled)
  obtain ⟨entries, describes, rfl⟩ := Artifact.endpointsJson_entries namedWith
  have written : Artifact.endpointTable name (entries.map TableEntry.toJson) =
      (EndpointTable.toJson ⟨name, entries⟩).pretty := rfl
  rw [written] at made
  refine ⟨.ofText "cosim/endpoints.json" (EndpointTable.toJson ⟨name, entries⟩).pretty, entries,
    ?_, ?_, describes⟩
  · rw [artifact?, made, Artifact.find?_shared (by decide) (by decide)]
    exact List.find?_cons_of_pos (decide_eq_true (Artifact.path_ofText _ _))
  · exact Option.bind_eq_some_iff.2
      ⟨_, Artifact.text?_ofText _ _, EndpointTable.read?_pretty ⟨name, entries⟩⟩

end CompiledDesign

end Elastic
