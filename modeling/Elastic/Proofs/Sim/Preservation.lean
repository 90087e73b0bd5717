import Elastic.Proofs.Sim.Conformity
import Elastic.Proofs.Sim.Runs

namespace Elastic

/-! Runs keep values of their types. The effects of a cycle carry settled values, and what comes
from outside is checked. -/

variable {meaning : Denotation}

section Lists

variable {α β : Type} {change : α → α} {items : List α} {index : Nat}

theorem map_modify_of_same {view : α → β}
    (same : ∀ item, items[index]? = some item → view (change item) = view item) :
    (items.modify index change).map view = items.map view := by
  refine List.ext_getElem? fun place => ?_
  rw [List.getElem?_map, List.getElem?_map, List.getElem?_modify]
  cases held : items[place]? with
  | none => rfl
  | some item =>
      by_cases here : index = place
      · simp [here, same item (here ▸ held)]
      · simp [here]

theorem forall_mem_modify {fact : α → Prop} (all : ∀ item ∈ items, fact item)
    (changed : ∀ item, items[index]? = some item → fact item → fact (change item)) :
    ∀ item ∈ items.modify index change, fact item := by
  intro item member
  obtain ⟨place, found⟩ := List.mem_iff_getElem?.1 member
  rw [List.getElem?_modify] at found
  obtain ⟨before, held, rfl⟩ := Option.map_eq_some_iff.1 found
  have old := all before (List.mem_of_getElem? held)
  by_cases here : index = place
  · rw [if_pos here]
    exact changed before (here ▸ held) old
  · rwa [if_neg here]

theorem forall₂_set {relation : α → β → Prop} {others : List β} {value : α}
    (all : List.Forall₂ relation items others)
    (fits : ∀ other, others[index]? = some other → relation value other) :
    List.Forall₂ relation (items.set index value) others := by
  obtain ⟨length, each⟩ := List.forall₂_iff_get.1 all
  refine List.forall₂_iff_get.2 ⟨(List.length_set ..).trans length, fun place bound inside => ?_⟩
  simp only [List.get_eq_getElem, List.getElem_set]
  split
  · rename_i same
    subst same
    exact fits _ (List.getElem?_eq_getElem inside)
  · exact each place _ inside

end Lists

theorem PortState.Typed.setPending {ty : Ty} {port : PortState} (typed : port.Typed meaning ty)
    (client : Nat) {response : Option SimValue}
    (fits : ∀ value, response = some value → meaning.fits value ty) :
    (port.setPending client response).Typed meaning ty :=
  forall_mem_modify typed fun _ _ _ value pending => fits value pending

theorem PortState.typed_clear (ty : Ty) (port : PortState) : port.clear.Typed meaning ty := by
  intro client member response pending
  obtain ⟨before, -, rfl⟩ := List.mem_map.1 member
  cases pending

namespace Memory

variable {memory : Memory}

theorem frame_accept (client : Nat) (request : Request) :
    (memory.accept client request).frame = memory.frame := by
  cases request with
  | read address => rfl
  | write address word => simp [frame, accept, depth]

theorem frame_retire (port : MemoryPort) (client : Nat) :
    (memory.retire port client).frame = memory.frame :=
  frame_modifyPort _ _ _

theorem Typed.retire (typed : memory.Typed meaning) (port : MemoryPort) (client : Nat) :
    (memory.retire port client).Typed meaning := by
  constructor
  · cases port <;> exact typed.words
  · intro other
    cases port <;> cases other <;> first
      | exact typed.pending _
      | exact (typed.pending _).setPending client nofun

theorem Typed.clear (typed : memory.Typed meaning) : memory.clear.Typed meaning := by
  refine ⟨typed.words, fun port => ?_⟩
  cases port <;> exact PortState.typed_clear _ _

end Memory

def Request.Typed (meaning : Denotation) (frame : MemoryFrame) : Request → Prop
  | .read address => address < frame.depth
  | .write _ word => meaning.fits word frame.word

namespace Memory

variable {memory : Memory} {request : Request} {port : MemoryPort} {value : SimValue}
  {depth : UInt32}

theorem Typed.accept (typed : memory.Typed meaning) (client : Nat)
    (fits : request.Typed meaning memory.frame) : (memory.accept client request).Typed meaning := by
  cases request with
  | read address =>
      refine ⟨typed.words, fun port => ?_⟩
      cases port with
      | write => exact typed.pending .write
      | read =>
          refine (typed.pending .read).setPending client fun value same => ?_
          cases same
          have bound : address < memory.words.size := fits
          rw [Array.getD_eq_getD_getElem?, Array.getElem?_eq_getElem bound, Option.getD_some]
          exact typed.words _ (Array.getElem_mem bound)
  | write address word =>
      constructor
      · intro stored member
        rcases Array.mem_or_eq_of_mem_setIfInBounds member with old | rfl
        · exact typed.words stored old
        · exact fits
      · intro port
        cases port with
        | read => exact typed.pending .read
        | write =>
            refine (typed.pending .write).setPending client fun value same => ?_
            cases same
            exact meaning.word (by decide)

/-- An address of the width for a memory that is not the address of one of its words. -/
def Beyond (meaning : Denotation) (memory : Memory) (address : UInt64) : Prop :=
  memory.depth ≤ address.toNat ∧ ∃ depth : UInt32, memory.depth = depth.toNat ∧
    meaning.fits (.bits address) (.bits (addressWidth depth))

theorem request_of_fits (deep : memory.depth = depth.toNat)
    (fits : meaning.fits value (port.question memory.word depth)) :
    (∃ request, memory.request port value = .ok request ∧ request.Typed meaning memory.frame) ∨
      ∃ address, memory.Beyond meaning address ∧ memory.request port value =
        .error (.addressOutOfRange memory.path address memory.depth) := by
  cases port with
  | read =>
      obtain ⟨address, rfl⟩ := meaning.bits fits
      rcases memory.place_cases address with ⟨placed, bound⟩ | ⟨outside, beyond⟩
      · exact .inl ⟨.read address.toNat, by simp only [request, placed]; rfl, bound⟩
      · exact .inr ⟨address, ⟨outside, depth, deep, fits⟩, by simp only [request, beyond]; rfl⟩
  | write =>
      obtain ⟨values, rfl⟩ := meaning.fields fits
      obtain ⟨address, _, numbered, rest, rfl⟩ :=
        List.forall₂_cons_right_iff.1 (meaning.struct.1 fits)
      obtain ⟨word, _, stored, last, rfl⟩ := List.forall₂_cons_right_iff.1 rest
      cases last
      obtain ⟨address, rfl⟩ := meaning.bits numbered
      rcases memory.place_cases address with ⟨placed, bound⟩ | ⟨outside, beyond⟩
      · exact .inl ⟨.write address.toNat word, by simp only [request, placed]; rfl, stored⟩
      · refine .inr ⟨address, ⟨outside, depth, deep, numbered⟩, ?_⟩
        simp only [request, beyond]
        rfl

theorem Typed.poke (typed : memory.Typed meaning) (conforms : value.conforms memory.word = true)
    (address : Nat) :
    Typed meaning { memory with words := memory.words.setIfInBounds address value } := by
  refine ⟨fun word member => ?_, fun port => ?_⟩
  · rcases Array.mem_or_eq_of_mem_setIfInBounds member with old | rfl
    · exact typed.words word old
    · exact meaning.conforming conforms
  · cases port <;> exact typed.pending _

theorem frame_poke (memory : Memory) (address : Nat) (value : SimValue) :
    frame { memory with words := memory.words.setIfInBounds address value } = memory.frame := by
  simp [frame, depth]

end Memory

namespace SimState

variable {net : Netlist} {state : SimState}

theorem frame_modifyMemory {memory : Nat} {change : Memory → Memory}
    (same : ∀ held, state.memories[memory]? = some held → (change held).frame = held.frame) :
    (state.modifyMemory memory change).frame = state.frame := by
  simp only [frame, modifyMemory, map_modify_of_same same]

theorem Typed.modifyMemory (typed : state.Typed meaning net) {memory : Nat}
    {change : Memory → Memory}
    (changed : ∀ held, state.memories[memory]? = some held → held.Typed meaning →
      (change held).Typed meaning) : (state.modifyMemory memory change).Typed meaning net :=
  ⟨typed.inputs, forall_mem_modify typed.memories changed, typed.hosts⟩

theorem frame_modifyHostRole {host role : Nat} {change : HostRole → HostRole}
    (same : ∀ held, (change held).payload = held.payload) :
    (state.modifyHostRole host role change).frame = state.frame := by
  have hosts : (state.hosts.modify host fun held => held.modifyRole role change).map
      (fun host => host.roles.map (·.payload)) =
        state.hosts.map fun host => host.roles.map (·.payload) :=
    map_modify_of_same fun held _ => map_modify_of_same fun slot _ => same slot
  simp only [frame, modifyHostRole, hosts]

theorem Typed.modifyHostRole (typed : state.Typed meaning net) {host role : Nat}
    {change : HostRole → HostRole}
    (changed : ∀ held, state.hostRole? host role = some held → held.Typed meaning →
      (change held).Typed meaning) : (state.modifyHostRole host role change).Typed meaning net := by
  refine ⟨typed.inputs, typed.memories, forall_mem_modify typed.hosts fun held found roles => ?_⟩
  refine forall_mem_modify roles fun slot inside => changed slot ?_
  rw [hostRole?, found, Option.bind_some, inside]

end SimState

def Effect.Typed (meaning : Denotation) (frame : StateFrame) : Effect → Prop
  | .accept memory _ request => ∀ held, frame.memories[memory]? = some held →
    request.Typed meaning held
  | .push host role value => ∀ payloads payload, frame.hosts[host]? = some payloads →
    payloads[role]? = some payload → meaning.fits value payload
  | .retire _ _ _ | .pop _ _ => True

namespace Effect

variable {net : Netlist} {state : SimState} {effect : Effect}

theorem frame_apply (state : SimState) (effect : Effect) :
    (effect.apply state).frame = state.frame := by
  cases effect with
  | retire memory port client =>
      exact SimState.frame_modifyMemory fun held _ => held.frame_retire port client
  | accept memory client request =>
      exact SimState.frame_modifyMemory fun held _ => held.frame_accept client request
  | pop host role => exact SimState.frame_modifyHostRole fun _ => rfl
  | push host role value => exact SimState.frame_modifyHostRole fun _ => rfl

theorem typed_apply (typed : state.Typed meaning net) (fits : effect.Typed meaning state.frame) :
    (effect.apply state).Typed meaning net := by
  cases effect with
  | retire memory port client =>
      exact typed.modifyMemory fun held _ typed => typed.retire port client
  | accept memory client request =>
      refine typed.modifyMemory fun held found typed => typed.accept client (fits _ ?_)
      rw [SimState.frame, List.getElem?_map, found, Option.map_some]
  | pop host role =>
      refine typed.modifyHostRole fun held _ typed => ⟨fun value member => ?_, typed.inbound⟩
      exact typed.outbound value (List.mem_of_mem_drop member)
  | push host role value =>
      refine typed.modifyHostRole fun held found typed => ⟨typed.outbound, fun other member => ?_⟩
      rcases List.mem_append.1 member with old | new
      · exact typed.inbound other old
      · obtain rfl := List.mem_singleton.1 new
        obtain ⟨around, present, inside⟩ := Option.bind_eq_some_iff.1 found
        refine fits (around.roles.map (·.payload)) held.payload ?_ ?_
        · rw [SimState.frame, List.getElem?_map, present, Option.map_some]
        · rw [List.getElem?_map, inside, Option.map_some]

theorem typed_applyAll {effects : List Effect} (typed : state.Typed meaning net)
    (fits : ∀ effect ∈ effects, effect.Typed meaning state.frame) :
    (applyAll state effects).Typed meaning net ∧ (applyAll state effects).frame = state.frame := by
  induction effects generalizing state with
  | nil => exact ⟨typed, rfl⟩
  | cons effect rest induction =>
      have same := frame_apply state effect
      rw [applyAll_cons, ← same]
      refine induction (typed_apply typed (fits effect List.mem_cons_self)) fun other member => ?_
      rw [same]
      exact fits other (List.mem_cons_of_mem _ member)

end Effect

namespace Simulator

variable {net : Netlist} {state : SimState} {effects : List Effect} {high : List Nat}

theorem typed_nextState (typed : state.Typed meaning net)
    (fits : ∀ effect ∈ effects, effect.Typed meaning state.frame) :
    (nextState state effects high).Typed meaning net ∧
      (nextState state effects high).frame = state.frame := by
  obtain ⟨typed, same⟩ := Effect.typed_applyAll typed fits
  rw [← same]
  unfold nextState
  generalize Effect.applyAll state effects = last at typed
  clear same
  induction high generalizing last with
  | nil => exact ⟨typed, rfl⟩
  | cons memory rest induction =>
      have same : (last.modifyMemory memory Memory.clear).frame = last.frame :=
        SimState.frame_modifyMemory fun _ _ => rfl
      rw [List.foldl_cons, ← same]
      exact induction _ (typed.modifyMemory fun _ _ typed => typed.clear)

variable {sim : Simulator} {site : RoleSite} {value : SimValue}

theorem slot_of_mem_servedRoles (member : site ∈ net.servedRoles) :
    ∃ slot, net.slot? site = some slot := by
  obtain ⟨-, bundle, present, -, inside⟩ := Netlist.mem_servedRoles.1 member
  exact ⟨_, Netlist.slot?_eq_some.2 ⟨bundle, present, List.getElem?_eq_getElem inside⟩⟩

/-- What a transferred value does at the service that takes it: the value is of the type that goes
there, or it is a request beyond the memory. -/
theorem sinkEffects_cases (conforms : sim.net.Conforms meaning sim.state) {slot : RoleSlot}
    (here : sim.net.slot? site = some slot)
    (fits : meaning.fits value (sim.net.graph.types.get slot.payload)) :
    (∃ effects, sim.sinkEffects site value = .ok effects ∧
        ∀ effect ∈ effects, effect.Typed meaning sim.state.frame) ∨
      ∃ memory ∈ sim.state.memories, ∃ address, memory.Beyond meaning address ∧
        sim.sinkEffects site value =
          .error (.addressOutOfRange memory.path address memory.depth) := by
  have attached := conforms.complete.sink here
  unfold sinkEffects
  generalize sim.net.sink site = sink at attached
  cases attached with
  | channel known payload => exact .inl ⟨[], rfl, nofun⟩
  | nothing => exact .inl ⟨[], rfl, nofun⟩
  | service leads present known stands suits =>
      dsimp only
      rw [leads]
      cases suits with
      | @host host held =>
          refine .inl ⟨[.push host site.role value], rfl, fun effect member => ?_⟩
          obtain rfl := List.mem_singleton.1 member
          intro payloads payload listed inside
          cases held.symm.trans listed
          rw [List.getElem?_map, known, Option.map_some] at inside
          cases inside
          exact fits
      | @memory ref frame depth held slots deep =>
          obtain ⟨memory, found, rfl⟩ := Query.exists_memory held
          rw [(Query.payload_of_ref conforms leads present known stands slots).2 rfl] at fits
          have effect : sinkEffect sim.state site.role value ref.endpoint =
              (memory.request ref.port value).map fun request =>
                .accept ref.memory ref.client request := by
            simp only [ClientRef.endpoint, sinkEffect, found]
          rcases Memory.request_of_fits deep fits with
            ⟨request, asked, typed⟩ | ⟨address, outside, beyond⟩
          · refine .inl ⟨[.accept ref.memory ref.client request], ?_, fun effect member => ?_⟩
            · simp only [bind, Except.bind, effect, asked]
              rfl
            · obtain rfl := List.mem_singleton.1 member
              intro frame listed
              cases held.symm.trans listed
              exact typed
          · refine .inr ⟨memory, List.mem_of_getElem? found, address, outside, ?_⟩
            simp only [bind, Except.bind, effect, beyond]
            rfl

theorem fits_of_transfers (conforms : sim.net.Conforms meaning sim.state) {slot : RoleSlot}
    (here : sim.net.slot? site = some slot) (moves : sim.net.Transfers sim.state site value) :
    meaning.fits value (sim.net.graph.types.get slot.payload) :=
  moves.data.meets (Query.kept_contract conforms) (Query.meets_roleData conforms here)

theorem Cycle.typed (cycle : sim.Cycle effects high)
    (conforms : sim.net.Conforms meaning sim.state) :
    ∀ effect ∈ effects, effect.Typed meaning sim.state.frame := by
  intro effect member
  obtain ⟨site, inside, value, first, second, moves, source, sink, origin⟩ :=
    cycle.performs.origin member
  rcases origin with origin | origin
  · unfold sourceEffects at source
    split at source
    · cases leads : sim.net.endpoint site.inst _ with
      | error error =>
          rw [leads] at source
          cases source
      | ok endpoint =>
          rw [leads] at source
          cases source
          obtain rfl := List.mem_singleton.1 origin
          cases endpoint <;> exact trivial
    · cases source
      cases origin
  · obtain ⟨slot, here⟩ := slot_of_mem_servedRoles inside
    rcases sinkEffects_cases conforms here (fits_of_transfers conforms here moves) with
      ⟨effects, given, typed⟩ | ⟨_, _, _, _, failed⟩
    · cases sink.symm.trans given
      exact typed effect origin
    · cases sink.symm.trans failed

end Simulator

namespace Simulator

variable {sim : Simulator}

structure Keeps (before after : Simulator) : Prop where
  net : after.net = before.net
  names : after.inputNames = before.inputNames
  frame : after.state.frame = before.state.frame

theorem Acts.keeps {action : Action} {next : Simulator} (acts : sim.Acts action next)
    (conforms : sim.net.Conforms meaning sim.state) :
    sim.Keeps next ∧ next.state.Typed meaning sim.net := by
  have typed := conforms.typed
  cases acts with
  | cycle completed cycle watches all =>
      obtain ⟨typed, same⟩ := typed_nextState typed (cycle.typed conforms)
      exact ⟨⟨rfl, rfl, same⟩, typed⟩
  | stall failed watches => exact ⟨⟨rfl, rfl, rfl⟩, typed⟩
  | setInput fits =>
      refine ⟨⟨rfl, rfl, rfl⟩, forall₂_set typed.inputs fun port held => ?_, typed.memories,
        typed.hosts⟩
      rw [inputTy, held, Option.map_some, Option.getD_some] at fits
      exact meaning.conforming fits
  | hostSend found sends fits succeeds =>
      have present := hostRole?_of_hostRole found
      refine ⟨⟨rfl, rfl, SimState.frame_modifyHostRole fun _ => rfl⟩, ?_⟩
      refine typed.modifyHostRole fun held found typed => ⟨fun other member => ?_, typed.inbound⟩
      rcases List.mem_append.1 member with old | new
      · exact typed.outbound other old
      · obtain rfl := List.mem_singleton.1 new
        cases present.symm.trans found
        exact meaning.conforming fits
  | hostReceive found receives succeeds =>
      refine ⟨⟨rfl, rfl, SimState.frame_modifyHostRole fun _ => rfl⟩, ?_⟩
      refine typed.modifyHostRole fun held _ typed => ⟨typed.outbound, fun value member => ?_⟩
      exact typed.inbound value (List.mem_of_mem_drop member)
  | pokeMemory found present pokes succeeds =>
      obtain ⟨fits, rfl⟩ := (Memory.answers_poke _ _ _).of_ok pokes
      refine ⟨⟨rfl, rfl, SimState.frame_modifyMemory fun before found => ?_⟩, ?_⟩
      · cases present.symm.trans found
        exact Memory.frame_poke _ _ _
      · refine typed.modifyMemory fun before found typed => ?_
        cases present.symm.trans found
        exact typed.poke fits _
  | refused refuses => exact ⟨⟨rfl, rfl, rfl⟩, typed⟩

theorem keeps_after {start : Simulator} (conforms : start.net.Conforms meaning start.state)
    (actions : List Action) :
    start.Keeps (start.after actions) ∧
      (start.after actions).net.Conforms meaning (start.after actions).state := by
  induction actions generalizing start with
  | nil => exact ⟨⟨rfl, rfl, rfl⟩, conforms⟩
  | cons action rest induction =>
      obtain ⟨keeps, typed⟩ := (start.acts action).keeps conforms
      have next : (start.act action).net.Conforms meaning (start.act action).state := by
        obtain ⟨complete, routed, plain, -⟩ := conforms
        have clients := (start.turns action).clientSite?
        rw [keeps.net]
        exact ⟨keeps.frame ▸ complete, clients ▸ routed, keeps.frame ▸ plain, typed⟩
      obtain ⟨others, last⟩ := induction next
      exact ⟨⟨others.net.trans keeps.net, others.names.trans keeps.names,
        others.frame.trans keeps.frame⟩, last⟩

end Simulator

end Elastic
