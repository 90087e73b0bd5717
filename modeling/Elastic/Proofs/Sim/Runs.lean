import Elastic.Proofs.Sim.Calls
import Elastic.Proofs.Sim.Handshake

namespace Elastic

/-! Runs of a simulator: any sequence of cycles and of accesses from outside. An access that fails
leaves the simulator as it is, a failing cycle all but the monitor. -/

inductive Action
  | step
  | setInput (name : String) (value : SimValue)
  | hostSend (path role : String) (value : SimValue)
  | hostReceive (path role : String)
  | pokeMemory (path : String) (address : UInt64) (value : SimValue)

namespace Simulator

/-- The simulator after an action, whether it succeeded or not. -/
def act (sim : Simulator) : Action → Simulator
  | .step => sim.step.2
  | .setInput name value => (sim.setInput name value).toOption.getD sim
  | .hostSend path role value => (sim.hostSend path role value).toOption.getD sim
  | .hostReceive path role => ((sim.hostReceive path role).map (·.2)).toOption.getD sim
  | .pokeMemory path address value => (sim.pokeMemory path address value).toOption.getD sim

def after (sim : Simulator) (actions : List Action) : Simulator := actions.foldl act sim

def Refuses (sim : Simulator) : Action → Prop
  | .step => False
  | .setInput name value => ∃ error, sim.setInput name value = .error error
  | .hostSend path role value => ∃ error, sim.hostSend path role value = .error error
  | .hostReceive path role => ∃ error, sim.hostReceive path role = .error error
  | .pokeMemory path address value => ∃ error, sim.pokeMemory path address value = .error error

/-- All that an action can do. -/
inductive Acts (sim : Simulator) : Action → Simulator → Prop
  | cycle {count : Nat} {seen : List Observation} {effects : List Effect} {high : List Nat}
      (completed : sim.step.1 = .ok count) (cycle : sim.Cycle effects high)
      (watches : sim.Watches sim.net.channelSites seen)
      (all : seen.map (·.site) = sim.net.channelSites) :
      Acts sim .step { sim with
        monitor := seen.foldl Monitor.observe sim.monitor
        state := nextState sim.state effects high
        cycle := sim.cycle + 1 }
  | stall {error : SimError} {seen : List Observation} (failed : sim.step.1 = .error error)
      (watches : sim.Watches sim.net.channelSites seen) :
      Acts sim .step { sim with monitor := seen.foldl Monitor.observe sim.monitor }
  | setInput {name : String} {value : SimValue} {index : Nat}
      (fits : value.conforms (sim.inputTy index) = true) :
      Acts sim (.setInput name value) { sim with
        state := { sim.state with inputs := sim.state.inputs.set index value } }
  | hostSend {path role : String} {value : SimValue} {host index : Nat} {slot : HostRole}
      (found : sim.hostRole path role = .ok (host, index, slot)) (sends : slot.sends = true)
      (fits : value.conforms slot.payload = true)
      (succeeds : sim.hostSend path role value = .ok (sim.setHostRole host index fun held =>
        { held with outbound := held.outbound ++ [value] })) :
      Acts sim (.hostSend path role value) (sim.setHostRole host index fun held =>
        { held with outbound := held.outbound ++ [value] })
  | hostReceive {path role : String} {host index : Nat} {slot : HostRole}
      (found : sim.hostRole path role = .ok (host, index, slot)) (receives : slot.sends = false)
      (succeeds : sim.hostReceive path role =
        .ok (slot.inbound.head?, sim.setHostRole host index fun held =>
          { held with inbound := held.inbound.drop 1 })) :
      Acts sim (.hostReceive path role) (sim.setHostRole host index fun held =>
        { held with inbound := held.inbound.drop 1 })
  | pokeMemory {path : String} {address : UInt64} {value : SimValue} {index : Nat}
      {held poked : Memory} (found : sim.memoryIndex path = .ok index)
      (present : sim.state.memories[index]? = some held)
      (pokes : held.poke address value = .ok poked)
      (succeeds : sim.pokeMemory path address value =
        .ok { sim with state := sim.state.modifyMemory index fun _ => poked }) :
      Acts sim (.pokeMemory path address value)
        { sim with state := sim.state.modifyMemory index fun _ => poked }
  | refused {action : Action} (refuses : sim.Refuses action) : Acts sim action sim

theorem acts (sim : Simulator) (action : Action) : sim.Acts action (sim.act action) := by
  cases action with
  | step =>
      obtain ⟨error, seen, watches, failed⟩ |
        ⟨count, seen, effects, high, cycle, watches, all, completed⟩ := sim.step_cases
      · have failed := failed sim.monitor
        rw [act, show sim.step = _ from failed]
        exact .stall (congrArg Prod.fst failed) watches
      · have completed := completed sim.monitor
        rw [act, show sim.step = _ from completed]
        exact .cycle (congrArg Prod.fst completed) cycle watches all
  | setInput name value =>
      rw [act]
      cases made : sim.setInput name value with
      | error error => exact .refused ⟨error, made⟩
      | ok next =>
          obtain ⟨index, fits, rfl⟩ := (sim.answers_setInput name value).of_ok made
          exact .setInput fits
  | hostSend path role value =>
      rw [act]
      cases made : sim.hostSend path role value with
      | error error => exact .refused ⟨error, made⟩
      | ok next =>
          obtain ⟨host, index, slot, found, sends, fits, rfl⟩ :=
            (sim.answers_hostSend path role value).of_ok made
          exact .hostSend found sends fits made
  | hostReceive path role =>
      rw [act]
      cases made : sim.hostReceive path role with
      | error error => exact .refused ⟨error, made⟩
      | ok taken =>
          obtain ⟨host, index, slot, found, receives, rfl⟩ :=
            (sim.answers_hostReceive path role).of_ok made
          exact .hostReceive found receives made
  | pokeMemory path address value =>
      rw [act]
      cases made : sim.pokeMemory path address value with
      | error error => exact .refused ⟨error, made⟩
      | ok next =>
          obtain ⟨index, held, poked, found, present, pokes, rfl⟩ :=
            (sim.answers_pokeMemory path address value).of_ok made
          exact .pokeMemory found present pokes made

def Completes (sim : Simulator) (action : Action) : Prop :=
  action = .step ∧ ∃ count, sim.step.1 = .ok count

theorem completes_of_isSome {sim : Simulator} (ends : sim.step.1.toOption.isSome = true) :
    sim.Completes .step :=
  ⟨rfl, (Option.isSome_iff_exists.1 ends).imp fun _ => eq_ok_of_toOption⟩

/-- What an action does to the netlist and the memories. -/
inductive Turns (sim : Simulator) (action : Action) : Simulator → Prop
  | cycle {next : Simulator} {effects : List Effect} {high : List Nat}
      (completes : sim.Completes action) (cycle : sim.Cycle effects high)
      (net : next.net = sim.net) (state : next.state = nextState sim.state effects high) :
      Turns sim action next
  | poke {next : Simulator} {path : String} {address : UInt64} {value : SimValue} {index : Nat}
      {held poked : Memory} (called : action = .pokeMemory path address value)
      (found : sim.memoryIndex path = .ok index) (known : sim.state.memories[index]? = some held)
      (pokes : held.poke address value = .ok poked)
      (succeeds : sim.pokeMemory path address value = .ok next) (net : next.net = sim.net)
      (state : next.state = sim.state.modifyMemory index fun _ => poked) : Turns sim action next
  | aside {next : Simulator} (between : ¬ sim.Completes action)
      (refused : ∀ path address value, action = .pokeMemory path address value →
        ∃ error, sim.pokeMemory path address value = .error error)
      (net : next.net = sim.net) (memories : next.state.memories = sim.state.memories) :
      Turns sim action next

theorem Acts.turns {sim next : Simulator} {action : Action} (acts : sim.Acts action next) :
    sim.Turns action next := by
  cases acts with
  | cycle completed cycle watches all => exact .cycle ⟨rfl, _, completed⟩ cycle rfl rfl
  | stall failed watches =>
      refine .aside (fun completes => ?_) nofun rfl rfl
      obtain ⟨-, count, completed⟩ := completes
      cases failed.symm.trans completed
  | setInput fits => exact .aside (fun completes => nomatch completes.1) nofun rfl rfl
  | hostSend found sends fits succeeds =>
      exact .aside (fun completes => nomatch completes.1) nofun rfl rfl
  | hostReceive found receives succeeds =>
      exact .aside (fun completes => nomatch completes.1) nofun rfl rfl
  | pokeMemory found present pokes succeeds => exact .poke rfl found present pokes succeeds rfl rfl
  | refused refuses =>
      refine .aside (fun completes => ?_) (fun path address value called => ?_) rfl rfl
      · rw [completes.1] at refuses
        exact refuses
      · rw [called] at refuses
        exact refuses

theorem turns (sim : Simulator) (action : Action) : sim.Turns action (sim.act action) :=
  (sim.acts action).turns

theorem ports_of_poke {memory poked : Memory} {address : UInt64} {value : SimValue}
    (pokes : memory.poke address value = .ok poked) :
    poked.port = memory.port ∧ poked.words = memory.words.setIfInBounds address.toNat value := by
  obtain ⟨-, rfl⟩ := (memory.answers_poke address value).of_ok pokes
  refine ⟨?_, rfl⟩
  funext port
  cases port <;> rfl

theorem client?_poke {state : SimState} {index : Nat} {held poked : Memory} {address : UInt64}
    {value : SimValue} (known : state.memories[index]? = some held)
    (pokes : held.poke address value = .ok poked) :
    (state.modifyMemory index fun _ => poked).client? = state.client? := by
  funext ref
  unfold SimState.client?
  rw [SimState.memory?_modifyMemory]
  split
  · rename_i same
    rw [← same, known, Option.map_some, Option.bind_some, Option.bind_some, (ports_of_poke pokes).1]
  · rfl

theorem client?_of_memories {first second : SimState}
    (same : first.memories = second.memories) : first.client? = second.client? := by
  unfold SimState.client?
  rw [same]

variable {sim next : Simulator} {action : Action}

theorem Turns.net (turns : sim.Turns action next) : next.net = sim.net := by
  cases turns <;> assumption

theorem Turns.of_completes (turns : sim.Turns action next) (completes : sim.Completes action) :
    ∃ effects high, sim.Cycle effects high ∧ next.state = nextState sim.state effects high := by
  cases turns with
  | cycle completes cycle net state => exact ⟨_, _, cycle, state⟩
  | poke called found known pokes succeeds net state =>
      subst called
      cases completes.1
  | aside between refused net memories => exact absurd completes between

theorem Turns.client?_of_not_completes (turns : sim.Turns action next)
    (between : ¬ sim.Completes action) : next.state.client? = sim.state.client? := by
  cases turns with
  | cycle completes cycle net state => exact absurd completes between
  | poke called found known pokes succeeds net state => rw [state, client?_poke known pokes]
  | aside between refused net memories => exact client?_of_memories memories

theorem Turns.clientSite? (turns : sim.Turns action next) :
    next.state.clientSite? = sim.state.clientSite? := by
  cases turns with
  | cycle completes cycle net state => rw [state, clientSite?_nextState]
  | poke called found known pokes succeeds net state =>
      unfold SimState.clientSite?
      rw [state, client?_poke known pokes]
  | aside between refused net memories =>
      unfold SimState.clientSite?
      rw [client?_of_memories memories]

theorem Turns.routed (turns : sim.Turns action next)
    (routed : sim.net.Routed sim.state.clientSite?) :
    next.net.Routed next.state.clientSite? := by
  rwa [turns.net, turns.clientSite?]

/-- The netlist and the places of clients are those of the beginning throughout a run. -/
theorem after_keeps (sim : Simulator) (actions : List Action) :
    (sim.after actions).net = sim.net ∧
      (sim.after actions).state.clientSite? = sim.state.clientSite? := by
  induction actions generalizing sim with
  | nil => exact ⟨rfl, rfl⟩
  | cons action rest induction =>
      obtain ⟨net, clients⟩ := induction (sim.act action)
      exact ⟨net.trans (sim.turns action).net, clients.trans (sim.turns action).clientSite?⟩

theorem routed_after {start : Simulator} (routed : start.net.Routed start.state.clientSite?)
    (actions : List Action) :
    (start.after actions).net.Routed (start.after actions).state.clientSite? := by
  obtain ⟨net, clients⟩ := start.after_keeps actions
  rwa [net, clients]

theorem Acts.cycle_of_completes (acts : sim.Acts action next) (completes : sim.Completes action) :
    next.cycle = sim.cycle + 1 := by
  obtain ⟨rfl, count, completed⟩ := completes
  cases acts with
  | cycle completed' cycle watches all => rfl
  | stall failed watches => cases failed.symm.trans completed
  | refused refuses => exact refuses.elim

theorem exists_run {sim : Simulator} {cycles : Nat}
    (completes : ∀ earlier < cycles,
      (sim.after (List.replicate earlier .step)).Completes .step) :
    ∃ result, sim.run cycles = (.ok result, sim.after (List.replicate cycles .step)) ∧
      result.cycles = (sim.after (List.replicate cycles .step)).cycle ∧
      result.violations = (sim.after (List.replicate cycles .step)).violations.length := by
  have counted (count : Nat) : ∃ total, sim.runCycles cycles count =
      (.ok total, sim.after (List.replicate cycles .step)) := by
    induction cycles generalizing sim count with
    | zero => exact ⟨count, rfl⟩
    | succ cycles induction =>
        obtain ⟨-, more, first⟩ := completes 0 (Nat.succ_pos _)
        have stepped : sim.step = (.ok more, sim.act .step) := Prod.ext first rfl
        obtain ⟨total, rest⟩ := @induction (sim.act .step)
          (fun earlier bound => completes (earlier + 1) (Nat.succ_lt_succ bound)) (count + more)
        refine ⟨total, ?_⟩
        unfold runCycles
        rw [stepped]
        exact rest
  obtain ⟨total, ran⟩ := counted 0
  unfold run
  rw [ran]
  exact ⟨_, rfl, rfl, rfl⟩

/-- The events of a run, put together from those of its actions. -/
inductive Log {Event : Type} (sees : Simulator → Action → List Event → Prop) :
    Simulator → List Action → List Event → Prop
  | nil (sim : Simulator) : Log sees sim [] []
  | cons {sim : Simulator} {action : Action} {actions : List Action} {events others : List Event}
      (first : sees sim action events) (rest : Log sees (sim.act action) actions others) :
      Log sees sim (action :: actions) (events ++ others)

/-- A run has a log if every action shows something wherever an invariant holds. -/
theorem exists_log_of_kept {Event : Type} {sees : Simulator → Action → List Event → Prop}
    {holds : Simulator → Prop} (kept : ∀ sim action, holds sim → holds (sim.act action))
    (shows : ∀ sim action, holds sim → ∃ events, sees sim action events) {start : Simulator}
    (initial : holds start) (actions : List Action) : ∃ events, Log sees start actions events := by
  induction actions generalizing start with
  | nil => exact ⟨[], .nil start⟩
  | cons action rest induction =>
      obtain ⟨events, first⟩ := shows start action initial
      obtain ⟨others, log⟩ := induction (kept start action initial)
      exact ⟨events ++ others, .cons first log⟩

theorem Log.origin {Event : Type} {sees : Simulator → Action → List Event → Prop}
    {start : Simulator} {actions : List Action} {events : List Event} {event : Event}
    (log : Log sees start actions events) (member : event ∈ events) :
    ∃ earlier action later own, actions = earlier ++ action :: later ∧
      sees (start.after earlier) action own ∧ event ∈ own := by
  induction log with
  | nil => cases member
  | cons first rest induction =>
      obtain own | other := List.mem_append.1 member
      · exact ⟨[], _, _, _, rfl, first, own⟩
      · obtain ⟨earlier, action, later, own, rfl, sees, inside⟩ := induction other
        exact ⟨_ :: earlier, action, later, own, rfl, sees, inside⟩

end Simulator

end Elastic
