import Elastic.Backend
import Elastic.Build.Library

namespace Elastic

/-! The catalog of designs: libraries with a root module, under the names that project files use. -/

structure DesignEntry where
  name : String
  top : String
  summary : String
  library : Library

namespace MemoryDesign

def word : Ty := .bits 64

def depth : UInt32 := 8

def addressTy : Ty := .bits (addressWidth depth)

def memoryService : Service := .randomAccessMemory "RamI64x8" word depth

/-- The host's counterpart of the memory service, with the same operations. -/
def hostService : Service :=
  memoryService.operations.foldl
    (fun service operation => service.withOperation operation.name operation.bundle)
    (.host "MemComms")

def sourceAddress : UInt64 := 2

def targetAddress : UInt64 := 3

def requestTy : Ty := .struct [("address", addressTy), ("data", word)]

def placeholder : ModuleDecl where
  name := "Dummy"

def writerSteps : List Step := [
  .constant addressTy sourceAddress (some "source"),
  .bool true (some "always"),
  .wrap addressTy "source" "always" (some "address") none,
  .pack (Service.readBundle word depth) [("address", "address")] (some "reads") (some "answers"),
  .take "answers" "data" (some "answer"),
  .unwrap "answer" "always" (some "data") (some "valid"),
  .call memoryService "read" "reads" ⟨"int_reader", none⟩,
  .constant addressTy targetAddress (some "target"),
  .struct requestTy [("data", "data"), ("address", "target")] (some "request"),
  .wrap requestTy "request" "valid" (some "requests") none,
  .pack (Service.writeBundle word depth) [("req", "requests")] (some "writes") none,
  .call memoryService "write" "writes" ⟨"int_writer", none⟩]

/-- Copies one word of the memory to another, once for every response to its read. The
acknowledgements of its writes are left alone. -/
def writer : ModuleDecl where
  name := "MemWriter"
  ports := [("clk", .clock), ("rst", .bit)]
  metadata := some <|
    ((Metadata.empty.withVersion "0.1").withEntry "numWriters" (.nat 1)).withEntry
      "style" (.str "stupid")
  recipe := .ofSteps writerSteps .done

def passThrough : List Step := [
  .request hostService "write" ⟨"write", none⟩ (some "write"),
  .call memoryService "write" "write" ⟨"ram_write", none⟩,
  .request hostService "read" ⟨"read", none⟩ (some "read"),
  .call memoryService "read" "read" ⟨"ram_read", none⟩]

def children : List Step := [
  .port "clk" (some "clk"),
  .port "rst" (some "rst"),
  .instantiate "Dummy" ⟨"dummy", none⟩ [],
  .instantiate "MemWriter" ⟨"mem_writer", none⟩ [("clk", "clk"), ("rst", "rst")]]

def realization : List Step := [
  .builtin memoryService ⟨"mem", none⟩ memoryTag [] ["clk", "rst"] []]

def root (always : Bool) : ModuleDecl where
  name := "Top"
  ports := [("clk", .clock), ("rst", .bit)]
  recipe :=
    .ofSteps children <|
      if always then .ofSteps passThrough (.ofSteps realization .done)
      else .ifHost (.ofSteps passThrough .done) .done (.ofSteps realization .done)

def library (always : Bool) : Library where
  modules := [placeholder, writer, root always]
  services := [memoryService, hostService]

end MemoryDesign

def designCatalog : List DesignEntry := [
  { name := "esi_ram"
    top := "Top"
    summary := "8x64-bit RAM with a word-copying writer and host pass-through"
    library := MemoryDesign.library false },
  { name := "esi_ram_host"
    top := "Top"
    summary := "esi_ram with host pass-through required on every backend"
    library := MemoryDesign.library true }]

def findDesign? (name : String) : Option DesignEntry :=
  designCatalog.find? (·.name = name)

end Elastic
