import Elastic.Compile.Design
import Elastic.Sim.Monitor
import Elastic.Sim.Settle

namespace Elastic

/-! The cycle loop. In each cycle all channels settle and are observed, the transfers of services
complete, and then the memories and the host take them over at once. -/

structure Simulator where
  name : String
  net : Netlist
  state : SimState
  inputNames : List String
  monitor : Monitor := {}
  policy : ArbitrationPolicy
  cycle : Nat := 0
deriving Inhabited

/-- What a transfer does to a memory or to the host at the end of its cycle. -/
inductive Effect
  | retire (memory : Nat) (port : MemoryPort) (client : Nat)
  | accept (memory : Nat) (client : Nat) (request : Request)
  | pop (host role : Nat)
  | push (host role : Nat) (value : SimValue)
deriving DecidableEq, Inhabited

namespace Effect

def apply (state : SimState) : Effect → SimState
  | .retire memory port client => state.modifyMemory memory fun held => held.retire port client
  | .accept memory client request => state.modifyMemory memory fun held =>
    held.accept client request
  | .pop host role => state.modifyHostRole host role fun held =>
    { held with outbound := held.outbound.drop 1 }
  | .push host role value => state.modifyHostRole host role fun held =>
    { held with inbound := held.inbound ++ [value] }

def applyAll (state : SimState) (effects : List Effect) : SimState :=
  effects.foldl apply state

end Effect

structure RunResult where
  cycles : Nat
  transfers : Nat
  violations : Nat
deriving DecidableEq, Repr, Inhabited

namespace Simulator

def newPort (policy : ArbitrationPolicy) : PortState := { arbiter := { policy := policy } }

def newMemory (graph : Graph) (policy : ArbitrationPolicy) (site : BuiltinSite) :
    Except SimError Memory :=
  if site.tag ≠ memoryTag then
    .error (.unsupportedBuiltin (AppPath.text site.path) site.tag)
  else
    match (graph.serviceAt? site.service).bind (·.memory) with
    | none => .error (.internal ("service '" ++ site.serviceName ++ "' is not a memory"))
    | some shape =>
      .ok {
        path := AppPath.text site.path
        word := shape.word
        words := Array.replicate shape.depth.toNat (.zero shape.word)
        readPort := newPort policy
        writePort := newPort policy
        inst := site.inst
        reset := ((graph.moduleOf site.inst).builtins[site.position]?).bind (·.inputs[1]?) }

def addClient (memory : Memory) (port : MemoryPort) (client : Client) : Memory :=
  memory.modifyPort port fun held =>
    { held with clients := held.clients ++ [⟨client.inst, client.serviceInstance, none⟩] }

def addClients (index : Nat) : Memory → List Client →
    Except SimError (Memory × List ((InstanceId × ServiceInstanceId) × Endpoint))
  | memory, [] => .ok (memory, [])
  | memory, client :: rest =>
    match MemoryPort.ofOperation? client.operation with
    | none => .error (.unsupported ("operation '" ++ client.operation ++ "' of " ++ memory.path))
    | some port => do
      let position := (memory.port port).clients.length
      let (full, endpoints) ← addClients index (addClient memory port client) rest
      return (full, ((client.inst, client.serviceInstance), .memory index port position) ::
        endpoints)

def newMemories (graph : Graph) (policy : ArbitrationPolicy) : Nat → List BuiltinSite →
    Except SimError (List Memory × List ((InstanceId × ServiceInstanceId) × Endpoint))
  | _, [] => .ok ([], [])
  | index, site :: rest => do
    let empty ← newMemory graph policy site
    let (memory, endpoints) ← addClients index empty site.clients
    let (memories, others) ← newMemories graph policy (index + 1) rest
    return (memory :: memories, endpoints ++ others)

def newHostRole (graph : Graph) (names : Names) (side : ServiceSide) (slot : RoleSlot) :
    HostRole where
  name := names.text slot.name
  payload := graph.types.get slot.payload
  sends := hostSends side slot.flow

def bundleOf? (graph : Graph) (inst : InstanceId) (serviceInstance : ServiceInstanceId) :
    Option Bundle :=
  let module := graph.moduleOf inst
  (module.services.get? serviceInstance).bind fun held => module.bundles.get? held.bundle

def newHost (graph : Graph) (names : Names) (host : HostEndpoint) : Host where
  path := AppPath.text host.path
  roles := ((bundleOf? graph host.inst host.serviceInstance).map (·.roles)).getD []
    |>.map (newHostRole graph names host.side)

def hostEndpoints (hosts : List HostEndpoint) :
    List ((InstanceId × ServiceInstanceId) × Endpoint) :=
  hosts.zipIdx.map fun (host, index) => ((host.inst, host.serviceInstance), .host index)

/-- A simulator of a design with the given arbitration, before the first cycle. -/
def withPolicy (design : CompiledDesign) (policy : ArbitrationPolicy) :
    Except SimError Simulator := do
  let graph := design.graph
  let (memories, endpoints) ← newMemories graph policy 0 design.services.builtins
  let root := graph.moduleOf graph.root
  return {
    name := design.name
    net := {
      graph := graph
      parents := Netlist.parentsOf graph
      endpoints := endpoints ++ hostEndpoints design.services.hosts }
    state := {
      inputs := root.ports.map fun port => .zero (graph.types.get port.ty)
      memories := memories
      hosts := design.services.hosts.map (newHost graph design.names) }
    inputNames := root.ports.map fun port => design.names.text port.name
    policy := design.policy }

def new (design : CompiledDesign) : Except SimError Simulator :=
  withPolicy design design.policy

def fuel (sim : Simulator) : Nat := Settling.fuelFor sim.net sim.state

def settle (sim : Simulator) (query : Query α) : Settling α :=
  Settling.query sim.net sim.state sim.fuel query

/-- The handshake of a channel. Its data settles only while it is valid. -/
def observation (sim : Simulator) (inst : InstanceId) (channel : ChannelId) :
    Settling Observation := do
  let valid ← sim.settle (Query.valid inst channel)
  let ready ← sim.settle (Query.ready inst channel)
  let data ← if valid then some <$> sim.settle (Query.data inst channel) else pure none
  return ⟨sim.cycle, (inst, channel), sim.net.pathText inst, valid, ready, data⟩

/-- Observes channels in order. The monitor keeps what it saw before a channel that does not
settle. -/
def observeAll (sim : Simulator) :
    List (InstanceId × ChannelId) → Memo → Monitor → Except SimError Memo × Monitor
  | [], memo, monitor => (.ok memo, monitor)
  | (inst, channel) :: rest, memo, monitor =>
    match (sim.observation inst channel).run memo with
    | .error error => (.error error, monitor)
    | .ok (seen, memo) => observeAll sim rest memo (monitor.observe seen)

def sourceEffect (role : Nat) : Endpoint → Effect
  | .memory memory port client => .retire memory port client
  | .host host => .pop host role

def sinkEffect (state : SimState) (role : Nat) (value : SimValue) :
    Endpoint → Except SimError Effect
  | .memory memory port client =>
    match state.memories[memory]? with
    | none => .error (.internal "no such memory")
    | some held => (held.request port value).map fun request => .accept memory client request
  | .host host => .ok (.push host role value)

def sourceEffects (sim : Simulator) (site : RoleSite) : Except SimError (List Effect) :=
  match sim.net.source site with
  | .service serviceInstance =>
    (sim.net.endpoint site.inst serviceInstance).map fun endpoint =>
      [sourceEffect site.role endpoint]
  | _ => .ok []

def sinkEffects (sim : Simulator) (site : RoleSite) (value : SimValue) :
    Except SimError (List Effect) :=
  match sim.net.sink site with
  | .service serviceInstance => do
    let endpoint ← sim.net.endpoint site.inst serviceInstance
    let effect ← sinkEffect sim.state site.role value endpoint
    return [effect]
  | _ => .ok []

/-- The value that a role transfers in this cycle, if it transfers one. -/
def transfer? (sim : Simulator) (site : RoleSite) : Settling (Option SimValue) := do
  if !(← sim.settle (Query.roleValid sim.net sim.state site)) then return none
  if !(← sim.settle (Query.roleReady sim.net site)) then return none
  return some (← sim.settle (Query.roleData sim.net sim.state site))

def transfers (sim : Simulator) : List RoleSite → Settling (Nat × List Effect)
  | [] => return (0, [])
  | site :: rest => do
    match ← sim.transfer? site with
    | none => transfers sim rest
    | some value =>
      let first ← sim.sourceEffects site
      let second ← sim.sinkEffects site value
      let (count, effects) ← transfers sim rest
      return (count + 1, first ++ second ++ effects)

def resets (sim : Simulator) : List Nat → Settling (List Nat)
  | [] => return []
  | memory :: rest => do
    let high ← sim.settle (Query.inReset sim.state memory)
    let others ← resets sim rest
    return if high then memory :: others else others

/-- What happens at the end of a cycle in which all channels settled. -/
def outcome (sim : Simulator) : Settling (Nat × List Effect × List Nat) := do
  let (count, effects) ← sim.transfers sim.net.servedRoles
  let memories ← sim.resets (List.range sim.state.memories.length)
  return (count, effects, memories)

/-- The state after the effects and resets of a cycle. -/
def nextState (state : SimState) (effects : List Effect) (memories : List Nat) : SimState :=
  memories.foldl (fun state memory => state.modifyMemory memory Memory.clear)
    (Effect.applyAll state effects)

/-- Runs one cycle; gives the number of transfers. -/
def step (sim : Simulator) : Except SimError Nat × Simulator :=
  match sim.observeAll sim.net.channelSites [] sim.monitor with
  | (.error error, monitor) => (.error error, { sim with monitor := monitor })
  | (.ok memo, monitor) =>
    match sim.outcome.run memo with
    | .error error => (.error error, { sim with monitor := monitor })
    | .ok ((count, effects, memories), _) =>
      (.ok count, { sim with
        monitor := monitor
        state := nextState sim.state effects memories
        cycle := sim.cycle + 1 })

def runCycles (sim : Simulator) : Nat → Nat → Except SimError Nat × Simulator
  | 0, count => (.ok count, sim)
  | cycles + 1, count =>
    match sim.step with
    | (.error error, sim) => (.error error, sim)
    | (.ok more, sim) => runCycles sim cycles (count + more)

def run (sim : Simulator) (cycles : Nat) : Except SimError RunResult × Simulator :=
  let (outcome, sim) := sim.runCycles cycles 0
  (outcome.map fun count => ⟨sim.cycle, count, sim.monitor.violations.length⟩, sim)

/-- Runs a design from its first cycle on; gives the simulator as the run left it. -/
def simulate (design : CompiledDesign) (cycles : Nat) : Except SimError
    (RunResult × Simulator) := do
  let (outcome, sim) := (← new design).run cycles
  return (← outcome, sim)

def runUntil (sim : Simulator) (holds : Simulator → Bool) : Nat → Except SimError Bool × Simulator
  | 0 => (.ok (holds sim), sim)
  | cycles + 1 =>
    if holds sim then (.ok true, sim)
    else
      match sim.step with
      | (.error error, sim) => (.error error, sim)
      | (.ok _, sim) => runUntil sim holds cycles

def violations (sim : Simulator) : List Violation := sim.monitor.violations

def inputTy (sim : Simulator) (index : Nat) : Ty :=
  let ports := (sim.net.graph.moduleOf sim.net.graph.root).ports
  sim.net.graph.types.get (((ports[index]?).map (·.ty)).getD 0)

def setInput (sim : Simulator) (name : String) (value : SimValue) : Except SimError Simulator :=
  match sim.inputNames.findIdx? (· = name) with
  | none => .error (.unknownInput name)
  | some index =>
    let ty := sim.inputTy index
    if value.conforms ty then
      .ok { sim with state := { sim.state with inputs := sim.state.inputs.set index value } }
    else .error (.invalidValue value.text ty.text ("input '" ++ name ++ "'"))

def hostRole (sim : Simulator) (path role : String) : Except SimError (Nat × Nat × HostRole) :=
  match sim.state.hosts.findIdx? (·.path = path) with
  | none => .error (.unknownEndpoint path)
  | some host =>
    match sim.state.hosts[host]? with
    | none => .error (.unknownEndpoint path)
    | some held => do
      let index ← held.roleIndex role
      match held.roles[index]? with
      | none => .error (.unknownRole path role)
      | some slot => return (host, index, slot)

def setHostRole (sim : Simulator) (host role : Nat) (change : HostRole → HostRole) : Simulator :=
  { sim with state := sim.state.modifyHostRole host role change }

/-- Queues a value for a role that the host drives. -/
def hostSend (sim : Simulator) (path role : String) (value : SimValue) :
    Except SimError Simulator := do
  let (host, index, slot) ← sim.hostRole path role
  if !slot.sends then .error (.wrongDirection path role "sent")
  else if !value.conforms slot.payload then
    .error (.invalidValue value.text slot.payload.text
      ("role '" ++ role ++ "' of '" ++ path ++ "'"))
  else
    return sim.setHostRole host index fun held => { held with outbound := held.outbound ++ [value] }

/-- Takes the first value that a role brought to the host. -/
def hostReceive (sim : Simulator) (path role : String) :
    Except SimError (Option SimValue × Simulator) := do
  let (host, index, slot) ← sim.hostRole path role
  if slot.sends then .error (.wrongDirection path role "received")
  else
    return (slot.inbound.head?,
      sim.setHostRole host index fun held => { held with inbound := held.inbound.drop 1 })

def hostPending (sim : Simulator) (path role : String) : Except SimError Nat := do
  let (_, _, slot) ← sim.hostRole path role
  return slot.inbound.length

def memoryIndex (sim : Simulator) (path : String) : Except SimError Nat :=
  match sim.state.memories.findIdx? (·.path = path) with
  | some index => .ok index
  | none => .error (.unknownMemory path)

def memory (sim : Simulator) (path : String) : Except SimError (Array SimValue) := do
  let index ← sim.memoryIndex path
  return ((sim.state.memories[index]?).map (·.words)).getD #[]

def pokeMemory (sim : Simulator) (path : String) (address : UInt64) (value : SimValue) :
    Except SimError Simulator := do
  let index ← sim.memoryIndex path
  match sim.state.memories[index]? with
  | none => .error (.unknownMemory path)
  | some held =>
    let poked ← held.poke address value
    return { sim with state := sim.state.modifyMemory index fun _ => poked }

end Simulator

end Elastic
