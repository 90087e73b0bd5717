import Elastic.Arbitration
import Elastic.Graph.Basic
import Elastic.Sim.Value

namespace Elastic

/-! The state of a simulation between cycles: top-level inputs, memories, and host endpoints. -/

inductive MemoryPort
  | read
  | write
deriving DecidableEq, Repr, Inhabited

namespace MemoryPort

def text : MemoryPort → String
  | .read => "read"
  | .write => "write"

def ofOperation? : String → Option MemoryPort
  | "read" => some .read
  | "write" => some .write
  | _ => none

def title : MemoryPort → String
  | .read => "Read"
  | .write => "Write"

end MemoryPort

structure PortClient where
  inst : InstanceId
  serviceInstance : ServiceInstanceId
  pending : Option SimValue := none
deriving DecidableEq, Inhabited

structure PortState where
  clients : List PortClient := []
  arbiter : Arbiter
deriving DecidableEq, Inhabited

namespace PortState

def setPending (port : PortState) (client : Nat) (response : Option SimValue) : PortState :=
  { port with clients := port.clients.modify client fun held => { held with pending := response } }

def clear (port : PortState) : PortState :=
  { port with clients := port.clients.map fun held => { held with pending := none } }

end PortState

structure Memory where
  path : String
  word : Ty
  words : Array SimValue
  readPort : PortState
  writePort : PortState
  inst : InstanceId
  reset : Option ExprId
deriving DecidableEq, Inhabited

inductive Request
  | read (address : Nat)
  | write (address : Nat) (word : SimValue)
deriving DecidableEq, Inhabited

namespace Request

def port : Request → MemoryPort
  | .read _ => .read
  | .write _ _ => .write

end Request

namespace Memory

def port (memory : Memory) : MemoryPort → PortState
  | .read => memory.readPort
  | .write => memory.writePort

def modifyPort (memory : Memory) (port : MemoryPort) (change : PortState → PortState) : Memory :=
  match port with
  | .read => { memory with readPort := change memory.readPort }
  | .write => { memory with writePort := change memory.writePort }

def depth (memory : Memory) : Nat := memory.words.size

def place (memory : Memory) (address : UInt64) : Except SimError Nat :=
  if address.toNat < memory.depth then .ok address.toNat
  else .error (.addressOutOfRange memory.path address memory.depth)

def malformed (memory : Memory) (port : MemoryPort) : SimError :=
  .internal ("malformed " ++ port.title ++ " request to " ++ memory.path)

/-- The request that a value on a port stands for: an address to read from, or an address with the
word to write there. -/
def request (memory : Memory) (port : MemoryPort) (value : SimValue) : Except SimError Request :=
  match port, value with
  | .read, .bits address => (memory.place address).map .read
  | .write, .struct [.bits address, word] =>
    (memory.place address).map fun place => .write place word
  | port, _ => .error (memory.malformed port)

/-- Serves a request of a client. A read answers with the word as it is, a write with no bits. -/
def accept (memory : Memory) (client : Nat) : Request → Memory
  | .read address =>
    { memory with readPort :=
      { memory.readPort.setPending client (some (memory.words.getD address (.bits 0))) with
        arbiter := memory.readPort.arbiter.commit client } }
  | .write address word =>
    { memory with
      words := memory.words.setIfInBounds address word
      writePort :=
      { memory.writePort.setPending client (some (.bits 0)) with
        arbiter := memory.writePort.arbiter.commit client } }

def retire (memory : Memory) (port : MemoryPort) (client : Nat) : Memory :=
  memory.modifyPort port fun held => held.setPending client none

def clear (memory : Memory) : Memory :=
  { memory with readPort := memory.readPort.clear, writePort := memory.writePort.clear }

def poke (memory : Memory) (address : UInt64) (value : SimValue) : Except SimError Memory :=
  if value.conforms memory.word then
    (memory.place address).map fun place =>
      { memory with words := memory.words.setIfInBounds place value }
  else .error (.invalidValue value.text memory.word.text "does not match the memory word type")

end Memory

/-- One role of a host endpoint, with the values on their way in either direction. -/
structure HostRole where
  name : String
  payload : Ty
  sends : Bool
  outbound : List SimValue := []
  inbound : List SimValue := []
deriving DecidableEq, Inhabited

structure Host where
  path : String
  roles : List HostRole
deriving DecidableEq, Inhabited

namespace Host

def roleIndex (host : Host) (role : String) : Except SimError Nat :=
  match host.roles.findIdx? (·.name = role) with
  | some index => .ok index
  | none => .error (.unknownRole host.path role)

def modifyRole (host : Host) (index : Nat) (change : HostRole → HostRole) : Host :=
  { host with roles := host.roles.modify index change }

end Host

/-- A place among the clients of a memory port. -/
structure ClientRef where
  memory : Nat
  port : MemoryPort
  client : Nat
deriving DecidableEq, Repr

structure SimState where
  inputs : List SimValue := []
  memories : List Memory := []
  hosts : List Host := []
deriving DecidableEq, Inhabited

namespace SimState

def client? (state : SimState) (ref : ClientRef) : Option PortClient :=
  (state.memories[ref.memory]?).bind fun held => (held.port ref.port).clients[ref.client]?

def hostRole? (state : SimState) (host role : Nat) : Option HostRole :=
  (state.hosts[host]?).bind fun held => held.roles[role]?

def modifyMemory (state : SimState) (memory : Nat) (change : Memory → Memory) : SimState :=
  { state with memories := state.memories.modify memory change }

def modifyHostRole (state : SimState) (host role : Nat) (change : HostRole → HostRole) :
    SimState :=
  { state with hosts := state.hosts.modify host fun held => held.modifyRole role change }

end SimState

end Elastic
