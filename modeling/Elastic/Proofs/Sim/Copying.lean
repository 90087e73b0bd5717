import Elastic.Proofs.Sim.HostTraffic
import Elastic.Proofs.Sim.LostWrites
import Elastic.Proofs.Sim.Ordering
import Elastic.Proofs.Sim.Words

namespace Elastic

open Query

/-! What the memory design does while the host is silent. In one cycle the memory takes a read of
the writer, in the next one the writer takes the answer and the memory its write. So from the second
cycle on the one word is a copy of the other, and nothing else is ever written. -/

def Expr.isResult : Expr → Bool
  | .builtinResult _ _ => true
  | _ => false

namespace MemoryDesign

/-- The order in which the signals of the design settle: the responses, what the writer makes of
them, its requests, the grants, and who is ready. -/
def rank : Signal → Nat
  | .expr 2 2 | .expr 2 7 => 7
  | .ready _ _ => 6
  | .grant _ _ => 5
  | .valid _ 2 | .data _ 2 => 4
  | .expr 2 6 => 3
  | .expr 2 3 | .expr 2 4 => 2
  | .valid _ _ | .data _ _ => 1
  | .expr _ _ => 0

def isHosted (net : Netlist) (client : ServiceSite) : Bool :=
  match net.clientRole? client .toService with
  | none => false
  | some request =>
    match net.source request with
    | .service id =>
      match net.endpoint request.inst id with
      | .ok (.host _) => true
      | _ => false
    | _ => false

/-- What a fresh simulator of the design is seen to have besides. -/
@[mk_iff]
structure FreshShape (sim : Simulator) : Prop where
  ranked : ∀ signal ∈ sim.net.allSignals sim.state,
    ∀ other ∈ sim.net.demands sim.state.wires signal, rank other < rank signal
  results : ∀ inst ∈ sim.net.graph.instances.ids,
    ∀ expr ∈ (sim.net.graph.moduleOf inst).exprs.toList, expr.isResult = false
  clients : ∀ port ∈ [MemoryPort.read, .write], ∀ client ∈ sim.state.wires.clients 0 port,
    client = (2, 0) ∨ client = (2, 1) ∨ isHosted sim.net client = true
  source : sim.net.source ⟨2, 0, 0⟩ = .channel 0
  shapes : sim.state.frame.memories.map (fun frame => (frame.word, frame.depth)) =
    [(word, depth.toNat)]

instance (sim : Simulator) : Decidable (FreshShape sim) := decidable_of_iff' _ (freshShape_iff sim)

theorem freshShape_of_simulator (preset : BackendPreset) (arbitration : ArbitrationPolicy) :
    ((simulator? preset arbitration).map fun sim => decide (FreshShape sim)) = some true := by
  cases preset <;> cases arbitration <;> decide +kernel

/-- A simulator of the design in which the host has nothing to send. -/
structure HostSilent (client : Nat) (sim : Simulator) : Prop extends CopySetup client sim where
  built : Built sim.net
  source : sim.net.source ⟨2, 0, 0⟩ = .channel 0
  conforms : sim.net.Conforms .shapes sim.state
  ranked : sim.net.Ranked sim.state.wires rank
  results : ∀ error, ¬ sim.net.IsResult error
  clients : ∀ ref site, sim.state.clientSite? ref = some site →
    site = (2, 0) ∨ site = (2, 1) ∨ isHosted sim.net site = true
  shapes : sim.state.frame.memories.map (fun frame => (frame.word, frame.depth)) =
    [(word, depth.toNat)]
  silent : ∀ (ref : HostRef) held, sim.state.hostRole? ref.host ref.role = some held →
    held.outbound = []

section

variable {sim : Simulator} {client : Nat} {ref : ClientRef} {value : SimValue}
  (hostSilent : HostSilent client sim)

include hostSilent

theorem HostSilent.ref_of_accepts (accepts : sim.Accepts ref value) :
    ref = readRef client ∨ ref = writeRef client := by
  obtain ⟨site, request, taken, named, moves⟩ := accepts
  have leads := (hostSilent.routed.endpoint site.1 site.2 ref).2 taken
  have same {other : ClientRef} (taken' : sim.state.clientSite? other = some site) :
    ref = other := by
    have leads' := (hostSilent.routed.endpoint site.1 site.2 other).2 taken'
    obtain ⟨_, _, _⟩ := ref
    obtain ⟨_, _, _⟩ := other
    cases Except.ok.inj (leads.symm.trans leads')
    rfl
  obtain rfl | rfl | hosted := hostSilent.clients ref site taken
  · exact .inl (same hostSilent.reads)
  · exact .inr (same hostSilent.writes)
  · unfold isHosted at hosted
    simp only [named] at hosted
    split at hosted
    · rename_i id source
      split at hosted
      · rename_i host stands
        have queued := Simulator.offered_of_source source stands moves.valid moves.data
        obtain ⟨held, known, queued⟩ := Option.bind_eq_some_iff.1 queued
        rw [hostSilent.silent ⟨host, request.role⟩ held known] at queued
        cases queued
      · cases hosted
    · cases hosted

theorem HostSilent.client_of_write {other : Nat} (accepts : sim.Accepts (writeRef other) value) :
    other = client := by
  obtain same | same := hostSilent.ref_of_accepts accepts
  · cases same
  · exact congrArg ClientRef.client same

theorem HostSilent.asks : sim.net.SameSignals sim.state ⟨2, 0, 0⟩ 0 := by
  obtain ⟨held, known, -, ends⟩ := hostSilent.built.channel 0 rfl
  exact Netlist.sameSignals_of_source hostSilent.source known ends

theorem HostSilent.read_request (accepts : sim.Accepts (readRef client) value) :
    value = .bits sourceAddress := by
  obtain ⟨site, request, taken, named, moves⟩ := accepts
  cases hostSilent.reads.symm.trans taken
  cases hostSilent.reading.requests.symm.trans named
  exact hostSilent.copies.address _ _ ((hostSilent.asks.data value).2 moves.data)

theorem HostSilent.write_request (accepts : sim.Accepts (writeRef client) value) :
    (Signal.valid 2 2).Settles sim.net sim.state true ∧
      ∃ word, (Signal.data 2 1).Settles sim.net sim.state word ∧ value = order word := by
  obtain ⟨site, request, taken, named, moves⟩ := accepts
  cases hostSilent.writes.symm.trans taken
  cases hostSilent.writing.requests.symm.trans named
  have offers := hostSilent.copies.offers sim.state
  exact ⟨(offers.valid true).2 moves.valid,
    hostSilent.copies.copies _ _ ((offers.data value).2 moves.data)⟩

theorem HostSilent.shape_of_mem {held : Memory} (member : held ∈ sim.state.memories) :
    held.word = word ∧ held.depth = depth.toNat := by
  have listed : (held.word, held.depth) ∈
      sim.state.frame.memories.map fun frame => (frame.word, frame.depth) :=
    List.mem_map_of_mem (List.mem_map_of_mem member)
  rw [hostSilent.shapes] at listed
  exact Prod.mk.inj (List.mem_singleton.1 listed)

theorem HostSilent.serves {held : Memory} (member : held ∈ sim.state.memories)
    (accepts : sim.Accepts ref value) :
    ∃ request, held.request ref.port value = .ok request := by
  have placed {address : UInt64} (inside : address.toNat < depth.toNat) :
      held.place address = .ok address.toNat := by
    rw [Memory.place, (hostSilent.shape_of_mem member).2, if_pos inside]
  obtain rfl | rfl := hostSilent.ref_of_accepts accepts
  · obtain rfl := hostSilent.read_request accepts
    exact ⟨.read sourceAddress.toNat, by
      simp only [readRef, Memory.request, placed (show sourceAddress.toNat < _ by decide)]
      rfl⟩
  · obtain ⟨-, word, -, rfl⟩ := hostSilent.write_request accepts
    exact ⟨.write targetAddress.toNat word, by
      simp only [writeRef, Memory.request, order, placed (show targetAddress.toNat < _ by decide)]
      rfl⟩

theorem HostSilent.takes {site : RoleSite} (member : site ∈ sim.net.servedRoles)
    (moves : sim.net.Transfers sim.state site value) :
    ∃ effects, sim.sinkEffects site value = .ok effects := by
  obtain ⟨slot, here⟩ := Simulator.slot_of_mem_servedRoles member
  have attached := hostSilent.conforms.complete.sink here
  unfold Simulator.sinkEffects
  cases sink : sim.net.sink site with
  | channel channel => exact ⟨[], rfl⟩
  | nothing | absent => exact ⟨[], rfl⟩
  | service id =>
      rw [sink] at attached
      cases attached with
      | @service _ endpoint bundle leads present known stands suits =>
          dsimp only
          rw [leads]
          cases endpoint with
          | host host => exact ⟨_, rfl⟩
          | memory memory port other =>
              obtain ⟨stands, taken, role⟩ :=
                @Netlist.Routed.request_of_sink _ _ _ _ ⟨memory, port, other⟩ hostSilent.routed
                  sink leads
              obtain ⟨held, client?, -⟩ := Option.map_eq_some_iff.1 taken
              obtain ⟨memory', found, -⟩ := Option.bind_eq_some_iff.1 client?
              obtain ⟨request, served⟩ :=
                hostSilent.serves (List.mem_of_getElem? found) ⟨stands, site, taken, role, moves⟩
              have effect : Simulator.sinkEffect sim.state site.role value
                  (.memory memory port other) = .ok (.accept memory other request) := by
                simp only [Simulator.sinkEffect, found, served]
                rfl
              refine ⟨[.accept memory other request], ?_⟩
              simp only [bind, Except.bind, effect]
              rfl

theorem HostSilent.completes : sim.Completes .step :=
  Simulator.completes_of_ranked hostSilent.conforms hostSilent.ranked hostSilent.results
    fun _ _ member moves => hostSilent.takes member moves

end

section

variable {sim : Simulator} {client : Nat} {effects : List Effect} {high : List Nat}
  {words : Array SimValue} {word : SimValue} (hostSilent : HostSilent client sim)
    (runs : Runs client sim)

include hostSilent runs

theorem HostSilent.spares_words (idle : sim.state.pendingAt? (readRef client) = none) (other : Nat)
    (value : SimValue) : ¬ sim.Accepts (writeRef other) value := by
  intro accepts
  obtain rfl := hostSilent.client_of_write accepts
  have answered := runs.valid_answers (runs.copies.passes _ _ (hostSilent.write_request accepts).1)
  rw [idle] at answered
  cases answered

variable (cycle : sim.Cycle effects high)

include cycle

theorem HostSilent.accepts_read (idle : sim.state.pendingAt? (readRef client) = none) :
    sim.Accepts (readRef client) (.bits sourceAddress) := by
  have accepted : ∃ value, sim.Accepts (readRef client) value := by
    by_contra refused
    have asks : sim.Asks (readRef client) := by
      refine ⟨_, _, hostSilent.reads, hostSilent.reading.requests, ?_, idle⟩
      obtain (low | ⟨offers, -⟩) | ⟨value, moves⟩ :=
        cycle.performs.settled hostSilent.reading.served.1
      · exact absurd ((hostSilent.asks.valid false).2 low) (hostSilent.copies.asks _)
      · exact offers
      · exact moves.valid
    obtain ⟨other, value, apart, accepts⟩ :=
      cycle.exists_rival hostSilent.routed (runs.calm cycle) asks (not_exists.1 refused)
    obtain same | same := hostSilent.ref_of_accepts accepts
    · exact apart (congrArg ClientRef.client same)
    · cases same
  obtain ⟨value, accepts⟩ := accepted
  rwa [hostSilent.read_request accepts] at accepts

theorem HostSilent.reads_word (idle : sim.state.pendingAt? (readRef client) = none)
    (held : sim.state.words? 0 = some words) (source : words[sourceAddress.toNat]? = some word) :
    (Simulator.nextState sim.state effects high).pendingAt? (readRef client) = some word := by
  obtain ⟨site, request, taken, named, moves⟩ := hostSilent.accepts_read runs cycle idle
  cases hostSilent.reads.symm.trans taken
  cases hostSilent.reading.requests.symm.trans named
  obtain ⟨answer, answers⟩ :=
    Simulator.exists_answer hostSilent.routed hostSilent.reads hostSilent.reading cycle moves
  rw [cycle.pendingAt? hostSilent.reads (runs.calm cycle)
    (Simulator.holds_of_answers hostSilent.routed hostSilent.reads hostSilent.reading cycle
      moves answers)]
  cases answers with
  | read port reached known present =>
      obtain ⟨earlier, later, before, equal, performs, rfl⟩ := reached
      have spared : before.flatMap (Effect.written 0) = [] :=
        performs.spares_words hostSilent.routed fun site _ other stands value taken role moves =>
          hostSilent.spares_words runs idle other value ⟨stands, site, taken, role, moves⟩
      rw [Effect.words?_applyAll, show (readRef client).memory = 0 from rfl, held, spared] at known
      cases known
      rw [← source, ← present]
      rfl

theorem HostSilent.accepts_write (apart : sim.state.pendingAt? (readRef client) = none ∨
      sim.state.pendingAt? (writeRef client) = none)
    (pending : sim.state.pendingAt? (readRef client) = some word) :
    sim.Accepts (writeRef client) (order word) := by
  have offers : (Signal.valid 2 2).Settles sim.net sim.state true := by
    refine ((hostSilent.copies.offers sim.state).valid true).2 ?_
    obtain (low | ⟨offers, -⟩) | ⟨value, moves⟩ :=
      cycle.performs.settled hostSilent.writing.served.1
    · have silent := ((hostSilent.copies.offers sim.state).valid false).2 low
      have answered := runs.valid_answers (runs.copies.passes _ _ silent)
      rw [pending] at answered
      cases answered
    · exact offers
    · exact moves.valid
  have accepted : ∃ value, sim.Accepts (writeRef client) value := by
    by_contra refused
    obtain ⟨other, value, before, accepts⟩ :=
      runs.exists_accepts cycle apart offers (not_exists.1 refused)
    exact Nat.ne_of_lt before (hostSilent.client_of_write accepts)
  obtain ⟨value, accepts⟩ := accepted
  obtain ⟨-, read, carries, rfl⟩ := hostSilent.write_request accepts
  rwa [runs.data_answers carries pending] at accepts

end

theorem HostRole.outbound_handle {held : HostRole} (effects : List Effect)
    (empty : held.outbound = []) : (effects.foldl HostRole.handle held).outbound = [] := by
  induction effects generalizing held with
  | nil => exact empty
  | cons effect rest induction =>
      apply induction
      cases effect <;> simp [HostRole.handle, empty]

theorem HostSilent.act {sim : Simulator} {client : Nat} (hostSilent : HostSilent client sim)
    {action : Action} (silent : ∀ path role value, action ≠ .hostSend path role value) :
    HostSilent client (sim.act action) := by
  obtain ⟨keeps, conforms⟩ := Simulator.keeps_after hostSilent.conforms [action]
  have wires := Simulator.wires_after hostSilent.conforms [action]
  have turns := sim.turns action
  change sim.Keeps (sim.act action) at keeps
  change (sim.act action).state.wires = _ at wires
  refine ⟨hostSilent.toCopySetup.act action, ?_, ?_, conforms, ?_, ?_, ?_, ?_, ?_⟩
  · rw [keeps.net]
    exact hostSilent.built
  · rw [keeps.net]
    exact hostSilent.source
  · rw [keeps.net, wires]
    exact hostSilent.ranked
  · rw [keeps.net]
    exact hostSilent.results
  · rw [keeps.net, turns.clientSite?]
    exact hostSilent.clients
  · rw [keeps.frame]
    exact hostSilent.shapes
  · intro ref held known
    have acts := sim.acts action
    generalize sim.act action = next at acts known
    cases acts with
    | cycle completed cycle watches all =>
        rw [Simulator.hostRole?_nextState] at known
        obtain ⟨before, present, rfl⟩ := Option.map_eq_some_iff.1 known
        exact HostRole.outbound_handle _ (hostSilent.silent ref before present)
    | hostSend found sends fits succeeds => exact absurd rfl (silent _ _ _)
    | hostReceive found receives succeeds =>
        rw [Simulator.setHostRole, SimState.hostRole?_modifyHostRole] at known
        split at known
        · obtain ⟨before, present, rfl⟩ := Option.map_eq_some_iff.1 known
          exact hostSilent.silent ref before present
        · exact hostSilent.silent ref held known
    | stall failed watches | setInput fits | refused refuses
    | pokeMemory found present pokes succeeds => exact hostSilent.silent ref held known

end MemoryDesign

end Elastic
