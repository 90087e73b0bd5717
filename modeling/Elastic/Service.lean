import Elastic.Ty.Json

namespace Elastic

/-! Services: what a design asks for by name, either realized by a builtin inside the design or
answered by the host. -/

inductive Provider
  | builtin
  | host
deriving DecidableEq, Repr, Inhabited

namespace Provider

def text : Provider → String
  | .builtin => "builtin"
  | .host => "host"

def toJson (provider : Provider) : Json := .str provider.text

def ofJson? : Json → Option Provider :=
  Json.asLabel? [("builtin", .builtin), ("host", .host)]

end Provider

structure Operation where
  name : String
  bundle : BundleTy
deriving DecidableEq

namespace Operation

def toJson (operation : Operation) : Json :=
  .obj [("name", .str operation.name), ("bundle", BundleTy.toJson operation.bundle)]

def ofJson? (json : Json) : Option Operation := do
  let fields ← Json.asRecord? ["name", "bundle"] json
  let name ← Json.required? fields "name" Json.asText?
  let bundle ← Json.required? fields "bundle" BundleTy.ofJson?
  return ⟨name, bundle⟩

end Operation

/-- The number of address bits of a memory: the least that tells `depth` words apart, and at least
one. -/
def addressWidth (depth : UInt32) : UInt32 :=
  if depth ≤ 2 then 1 else UInt32.ofNat ((depth.toNat - 1).log2 + 1)

structure MemoryShape where
  word : Ty
  depth : UInt32
deriving DecidableEq

namespace MemoryShape

def toJson (shape : MemoryShape) : Json :=
  .obj [("data", shape.word.toJson), ("depth", .nat shape.depth.toNat)]

def ofJson? (json : Json) : Option MemoryShape := do
  let fields ← Json.asRecord? ["data", "depth"] json
  let word ← Json.required? fields "data" Ty.ofJson?
  let depth ← Json.required? fields "depth" (Json.asNat? Json.limit32)
  return ⟨word, UInt32.ofNat depth⟩

end MemoryShape

structure Service where
  name : String
  provider : Provider
  operations : List Operation
  memory : Option MemoryShape := none
deriving DecidableEq

namespace Service

def readBundle (word : Ty) (depth : UInt32) : BundleTy :=
  [⟨"address", .toService, .bits (addressWidth depth)⟩, ⟨"data", .fromService, word⟩]

def writeBundle (word : Ty) (depth : UInt32) : BundleTy :=
  [⟨"req", .toService,
      .struct [("address", .bits (addressWidth depth)), ("data", word)]⟩,
    ⟨"ack", .fromService, .bits 0⟩]

def randomAccessMemory (name : String) (word : Ty) (depth : UInt32) : Service where
  name := name
  provider := .builtin
  operations := [⟨"read", readBundle word depth⟩, ⟨"write", writeBundle word depth⟩]
  memory := some ⟨word, depth⟩

def host (name : String) : Service where
  name := name
  provider := .host
  operations := []

def withOperation (service : Service) (name : String) (bundle : BundleTy) : Service :=
  { service with operations := service.operations ++ [⟨name, bundle⟩] }

def operation? (service : Service) (name : String) : Option Operation :=
  service.operations.find? (·.name = name)

def operationIndex? (service : Service) (name : String) : Option Nat :=
  service.operations.findIdx? (·.name = name)

def toJson (service : Service) : Json :=
  .obj <|
    [("name", .str service.name), ("provider", service.provider.toJson),
      ("operations", Json.list Operation.toJson service.operations)] ++
    match service.memory with
    | none => []
    | some shape => [("memory", shape.toJson)]

def ofJson? (json : Json) : Option Service := do
  let fields ← Json.asRecord? ["name", "provider", "operations", "memory"] json
  let name ← Json.required? fields "name" Json.asText?
  let provider ← Json.required? fields "provider" Provider.ofJson?
  let operations ← Json.required? fields "operations" (Json.asList? Operation.ofJson?)
  let memory ← Json.nullable? fields "memory" MemoryShape.ofJson?
  return ⟨name, provider, operations, memory⟩

end Service

end Elastic
