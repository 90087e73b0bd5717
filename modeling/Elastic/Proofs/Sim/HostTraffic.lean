import Elastic.Proofs.Sim.HostRoles

namespace Elastic

open Query

/-! Traffic with the host is exactly once and in order. What the host sends on a role reaches the
hardware in the order of sending, and what the hardware delivers reaches the host in the order of
delivery; the rest of it is queued. -/

/-- What becomes of a value at a role of the host: the host sends it, the hardware takes or delivers
it, or the host receives it. -/
inductive HostEvent
  | sent (value : SimValue)
  | moved (value : SimValue)
  | received (value : SimValue)

namespace HostEvent

def sent? : HostEvent → Option SimValue
  | .sent value => some value
  | .moved _ | .received _ => none

def moved? : HostEvent → Option SimValue
  | .moved value => some value
  | .sent _ | .received _ => none

def received? : HostEvent → Option SimValue
  | .received value => some value
  | .sent _ | .moved _ => none

inductive Steps : HostRole → HostEvent → HostRole → Prop
  | send {held : HostRole} (value : SimValue) (sends : held.sends = true) :
      Steps held (.sent value) { held with outbound := held.outbound ++ [value] }
  | drive {held : HostRole} {value : SimValue} {rest : List SimValue} (sends : held.sends = true)
      (first : held.outbound = value :: rest) :
      Steps held (.moved value) { held with outbound := rest }
  | deliver {held : HostRole} (value : SimValue) (receives : held.sends = false) :
      Steps held (.moved value) { held with inbound := held.inbound ++ [value] }
  | receive {held : HostRole} {value : SimValue} {rest : List SimValue}
      (receives : held.sends = false) (first : held.inbound = value :: rest) :
      Steps held (.received value) { held with inbound := rest }

end HostEvent

inductive Traffic : HostRole → List HostEvent → HostRole → Prop
  | nil (held : HostRole) : Traffic held [] held
  | cons {before middle after : HostRole} {event : HostEvent} {events : List HostEvent}
      (step : event.Steps before middle) (rest : Traffic middle events after) :
      Traffic before (event :: events) after

namespace Traffic

variable {before middle after : HostRole} {events others : List HostEvent}

theorem append (first : Traffic before events middle) (second : Traffic middle others after) :
    Traffic before (events ++ others) after := by
  induction first with
  | nil held => exact second
  | cons step rest induction => exact .cons step (induction second)

theorem sends_eq (traffic : Traffic before events after) : after.sends = before.sends := by
  induction traffic with
  | nil held => rfl
  | cons step rest induction => cases step <;> exact induction

/-- On a role that the host drives, what was queued and sent is what the hardware took and what is
queued now. -/
theorem driven (traffic : Traffic before events after) (sends : before.sends = true) :
    before.outbound ++ events.filterMap HostEvent.sent? =
        events.filterMap HostEvent.moved? ++ after.outbound ∧
      events.filterMap HostEvent.received? = [] ∧ after.inbound = before.inbound := by
  induction traffic with
  | nil held => simp
  | cons step rest induction =>
      cases step with
      | send value _ =>
          obtain ⟨balance, unread, same⟩ := induction sends
          refine ⟨?_, unread, same⟩
          simp only [List.filterMap_cons, HostEvent.sent?, HostEvent.moved?]
          rw [← balance, List.append_assoc, List.singleton_append]
      | drive _ first =>
          obtain ⟨balance, unread, same⟩ := induction sends
          refine ⟨?_, unread, same⟩
          simp only [List.filterMap_cons, HostEvent.sent?, HostEvent.moved?]
          rw [first, List.cons_append, List.cons_append, ← balance]
      | deliver value receives | receive receives first =>
          cases sends.symm.trans receives

/-- On a role that the host takes from, what was queued and delivered is what the host received and
what is queued now. -/
theorem delivered (traffic : Traffic before events after) (receives : before.sends = false) :
    before.inbound ++ events.filterMap HostEvent.moved? =
        events.filterMap HostEvent.received? ++ after.inbound ∧
      events.filterMap HostEvent.sent? = [] ∧ after.outbound = before.outbound := by
  induction traffic with
  | nil held => simp
  | cons step rest induction =>
      cases step with
      | send value sends | drive sends first => cases sends.symm.trans receives
      | deliver value _ =>
          obtain ⟨balance, unsent, same⟩ := induction receives
          refine ⟨?_, unsent, same⟩
          simp only [List.filterMap_cons, HostEvent.moved?, HostEvent.received?]
          rw [← balance, List.append_assoc, List.singleton_append]
      | receive _ first =>
          obtain ⟨balance, unsent, same⟩ := induction receives
          refine ⟨?_, unsent, same⟩
          simp only [List.filterMap_cons, HostEvent.moved?, HostEvent.received?]
          rw [first, List.cons_append, List.cons_append, ← balance]

end Traffic

namespace Simulator

def Sends (sim : Simulator) (ref : HostRef) (action : Action) (value : SimValue) : Prop :=
  ∃ path role slot next, action = .hostSend path role value ∧
    sim.hostRole path role = .ok (ref.host, ref.role, slot) ∧
    sim.hostSend path role value = .ok next

def Returns (sim : Simulator) (ref : HostRef) (action : Action) (value : SimValue) : Prop :=
  ∃ path role slot next, action = .hostReceive path role ∧
    sim.hostRole path role = .ok (ref.host, ref.role, slot) ∧
    sim.hostReceive path role = .ok (some value, next)

/-- The event at a role of the host in an action, if there is one. The role moves a value in a
completed cycle that transfers one at its place in the design. -/
inductive Handles (ref : HostRef) (site : RoleSite) (sim : Simulator) (action : Action) :
    List HostEvent → Prop
  | moved {value : SimValue} (completes : sim.Completes action)
      (moves : sim.net.Transfers sim.state site value) : Handles ref site sim action [.moved value]
  | rests (completes : sim.Completes action) (rests : sim.net.Rests sim.state site) :
      Handles ref site sim action []
  | sent {value : SimValue} (sends : sim.Sends ref action value) :
      Handles ref site sim action [.sent value]
  | received {value : SimValue} (returns : sim.Returns ref action value) :
      Handles ref site sim action [.received value]
  | aside (between : ¬ sim.Completes action) (unsent : ∀ value, ¬ sim.Sends ref action value)
      (empty : ∀ value, ¬ sim.Returns ref action value) : Handles ref site sim action []

variable {sim : Simulator} {ref : HostRef} {site : RoleSite} {held : HostRole}
  {action : Action} {value : SimValue}

section

variable (present : sim.state.hostRole? ref.host ref.role = some held)

include present

theorem Sends.appends (sends : sim.Sends ref action value) :
    held.sends = true ∧ (sim.act action).state.hostRole? ref.host ref.role =
      some { held with outbound := held.outbound ++ [value] } := by
  obtain ⟨path, role, slot, next, rfl, found, accepted⟩ := sends
  obtain ⟨host, index, slot', found', sends, -, rfl⟩ :=
    (sim.answers_hostSend path role value).of_ok accepted
  cases found.symm.trans found'
  cases present.symm.trans (hostRole?_of_hostRole found)
  refine ⟨sends, ?_⟩
  rw [act, accepted]
  exact (SimState.hostRole?_modifyHostRole ref).trans (by rw [if_pos rfl, present]; rfl)

theorem Returns.takes (returns : sim.Returns ref action value) :
    held.sends = false ∧ ∃ rest, held.inbound = value :: rest ∧
      (sim.act action).state.hostRole? ref.host ref.role =
        some { held with inbound := rest } := by
  obtain ⟨path, role, slot, next, rfl, found, taken⟩ := returns
  obtain ⟨host, index, slot', found', receives, equal⟩ :=
    (sim.answers_hostReceive path role).of_ok taken
  cases found.symm.trans found'
  cases present.symm.trans (hostRole?_of_hostRole found)
  obtain ⟨head, rfl⟩ := Prod.mk.inj equal
  obtain ⟨rest, queued⟩ := List.head?_eq_some_iff.1 head.symm
  refine ⟨receives, rest, queued, ?_⟩
  rw [act, taken]
  refine (SimState.hostRole?_modifyHostRole ref).trans ?_
  rw [if_pos rfl, present, Option.map_some, queued]
  rfl

theorem Acts.hostRole?_aside {next : Simulator} (acts : sim.Acts action next)
    (between : ¬ sim.Completes action) (unsent : ∀ value, ¬ sim.Sends ref action value)
    (empty : ∀ value, ¬ sim.Returns ref action value) :
    next.state.hostRole? ref.host ref.role = some held := by
  cases acts with
  | cycle completed cycle watches all => exact absurd ⟨rfl, _, completed⟩ between
  | stall failed watches | setInput fits | refused refuses
  | pokeMemory found known pokes succeeds => exact present
  | hostSend found sends fits succeeds =>
      refine (SimState.hostRole?_modifyHostRole ref).trans ((if_neg fun same => ?_).trans present)
      subst same
      exact unsent _ ⟨_, _, _, _, rfl, found, succeeds⟩
  | hostReceive found receives succeeds =>
      refine (SimState.hostRole?_modifyHostRole ref).trans ?_
      split
      · rename_i same
        subst same
        cases present.symm.trans (hostRole?_of_hostRole found)
        rw [present, Option.map_some]
        cases queued : held.inbound with
        | nil => exact congrArg some (by rw [List.drop_nil, ← queued])
        | cons value rest =>
            rw [queued, List.head?_cons] at succeeds
            exact absurd ⟨_, _, _, _, rfl, found, succeeds⟩ (empty value)
      · exact present

end

section

variable (hosts : sim.net.Hosts ref held.sends site)

include hosts

theorem exists_handles (action : Action) : ∃ events, Handles ref site sim action events := by
  by_cases completes : sim.Completes action
  · obtain ⟨effects, high, cycle, -⟩ := (sim.turns action).of_completes completes
    obtain ⟨rests, -⟩ | ⟨value, moves, -⟩ := cycle.about hosts
    · exact ⟨[], .rests completes rests⟩
    · exact ⟨[.moved value], .moved completes moves⟩
  by_cases sends : ∃ value, sim.Sends ref action value
  · obtain ⟨value, sends⟩ := sends
    exact ⟨[.sent value], .sent sends⟩
  by_cases returns : ∃ value, sim.Returns ref action value
  · obtain ⟨value, returns⟩ := returns
    exact ⟨[.received value], .received returns⟩
  exact ⟨[], .aside completes (not_exists.1 sends) (not_exists.1 returns)⟩

variable (present : sim.state.hostRole? ref.host ref.role = some held)

include present

theorem traffic_of_cycle {effects : List Effect} {high : List Nat}
    (cycle : sim.Cycle effects high) :
    (sim.net.Rests sim.state site ∧
        (nextState sim.state effects high).hostRole? ref.host ref.role = some held) ∨
      ∃ value now, sim.net.Transfers sim.state site value ∧
        (nextState sim.state effects high).hostRole? ref.host ref.role = some now ∧
        HostEvent.Steps held (.moved value) now := by
  rw [hostRole?_nextState, present, Option.map_some]
  obtain ⟨rests, none⟩ | ⟨value, moves, one⟩ := cycle.about hosts
  · rw [none]
    exact .inl ⟨rests, rfl⟩
  · rw [one]
    refine .inr ⟨value, _, moves, rfl, ?_⟩
    cases sends : held.sends with
    | true =>
        have first := outbound_of_transfer hosts sends moves
        rw [SimState.outboundAt?, present, Option.bind_some] at first
        obtain ⟨rest, queued⟩ := List.head?_eq_some_iff.1 first
        have popped : [hostEffect ref true value].foldl HostRole.handle held =
            { held with outbound := rest } := by
          simp [hostEffect, HostRole.handle, queued]
        rw [popped]
        exact .drive sends queued
    | false => exact .deliver value sends

theorem traffic_of_handles {action : Action} {events : List HostEvent}
    (handles : Handles ref site sim action events) :
    ∃ now, (sim.act action).state.hostRole? ref.host ref.role = some now ∧
      Traffic held events now := by
  cases handles with
  | moved completes moves =>
      obtain ⟨effects, high, cycle, state⟩ := (sim.turns action).of_completes completes
      rw [state]
      obtain ⟨rests, -⟩ | ⟨value', now, moves', stands, steps⟩ :=
        traffic_of_cycle hosts present cycle
      · exact absurd rests moves.not_rests
      · obtain rfl := moves.unique moves'
        exact ⟨now, stands, .cons steps (.nil now)⟩
  | rests completes rests =>
      obtain ⟨effects, high, cycle, state⟩ := (sim.turns action).of_completes completes
      rw [state]
      obtain ⟨-, stands⟩ | ⟨value, now, moves, -⟩ := traffic_of_cycle hosts present cycle
      · exact ⟨held, stands, .nil held⟩
      · exact absurd rests moves.not_rests
  | sent sends =>
      obtain ⟨drives, stands⟩ := sends.appends present
      exact ⟨_, stands, .cons (.send _ drives) (.nil _)⟩
  | received returns =>
      obtain ⟨receives, rest, first, stands⟩ := returns.takes present
      exact ⟨_, stands, .cons (.receive receives first) (.nil _)⟩
  | aside between unsent empty =>
      exact ⟨held, (sim.acts action).hostRole?_aside present between unsent empty, .nil held⟩

end

theorem exists_handles_log (hosts : sim.net.Hosts ref held.sends site) (actions : List Action) :
    ∃ events, Log (Handles ref site) sim actions events := by
  have kept (sim : Simulator) (action : Action) (hosts : sim.net.Hosts ref held.sends site) :
      (sim.act action).net.Hosts ref held.sends site := by
    rwa [(sim.turns action).net]
  exact exists_log_of_kept kept (fun _ action hosts => exists_handles hosts action) hosts actions

theorem traffic_of_log {actions : List Action} {events : List HostEvent}
    (log : Log (Handles ref site) sim actions events)
    (hosts : sim.net.Hosts ref held.sends site)
    (present : sim.state.hostRole? ref.host ref.role = some held) :
    ∃ now, (sim.after actions).state.hostRole? ref.host ref.role = some now ∧
      Traffic held events now := by
  induction log generalizing held with
  | nil sim => exact ⟨held, present, .nil held⟩
  | @cons sim action actions events others first rest induction =>
      obtain ⟨middle, stands, traffic⟩ := traffic_of_handles hosts present first
      rw [← (sim.turns action).net, ← traffic.sends_eq] at hosts
      obtain ⟨now, last, later⟩ := induction hosts stands
      exact ⟨now, last, traffic.append later⟩

theorem vacant_of_withPolicy {design : CompiledDesign} {policy : ArbitrationPolicy}
    (produced : design.Produced) (made : withPolicy design policy = .ok sim)
    (present : sim.state.hostRole? ref.host ref.role = some held) :
    held.outbound = [] ∧ held.inbound = [] := by
  obtain ⟨site, host, slot, -, rfl⟩ := (hostRole?_eq_some produced made).1 present
  exact ⟨rfl, rfl⟩

/-- Over every run of a simulator of a produced design, the values that the host sends on a role are
those that moved to the hardware, in order, and then those still queued; and the values that moved
to a role that the host takes from are those that it received, in order, and then those still
queued. In a cycle a role moves one value at most. -/
theorem host_traffic_exactly_once {design : CompiledDesign} {policy : ArbitrationPolicy}
    {start : Simulator} (produced : design.Produced)
    (made : withPolicy design policy = .ok start) (actions : List Action) (ref : HostRef)
    (slot : HostRole) (present : start.state.hostRole? ref.host ref.role = some slot) :
    ∃ site, start.net.Hosts ref slot.sends site ∧
      (∀ effects high, (start.after actions).Cycle effects high →
        (Effect.about ref effects).length ≤ 1) ∧
      (∃ events, Log (Handles ref site) start actions events) ∧
      ∀ events, Log (Handles ref site) start actions events →
        ∃ now, (start.after actions).state.hostRole? ref.host ref.role = some now ∧
          now.sends = slot.sends ∧
          (slot.sends = true →
            events.filterMap HostEvent.sent? =
              events.filterMap HostEvent.moved? ++ now.outbound ∧
            events.filterMap HostEvent.received? = [] ∧ now.inbound = []) ∧
          (slot.sends = false →
            events.filterMap HostEvent.moved? =
              events.filterMap HostEvent.received? ++ now.inbound ∧
            events.filterMap HostEvent.sent? = [] ∧ now.outbound = []) := by
  obtain ⟨site, hosts⟩ := hosts_of_withPolicy produced made present
  obtain ⟨unsent, empty⟩ := vacant_of_withPolicy produced made present
  refine ⟨site, hosts, fun effects high cycle => ?_, exists_handles_log hosts actions,
    fun events log => ?_⟩
  · rw [← (start.after_keeps actions).1] at hosts
    obtain ⟨-, none⟩ | ⟨value, -, one⟩ := cycle.about hosts
    · exact none ▸ Nat.zero_le 1
    · exact one ▸ Nat.le_refl 1
  · obtain ⟨now, stands, traffic⟩ := traffic_of_log log hosts present
    refine ⟨now, stands, traffic.sends_eq, fun sends => ?_, fun receives => ?_⟩
    · have balance := traffic.driven sends
      rwa [unsent, empty, List.nil_append] at balance
    · have balance := traffic.delivered receives
      rwa [unsent, empty, List.nil_append] at balance

end Simulator

namespace MemoryDesign

def hostReads : List Action := [
  .pokeMemory "Top.mem" 1 (.bits 5), .pokeMemory "Top.mem" 2 (.bits 7),
  .hostSend "Top.read" "address" (.bits 2), .hostSend "Top.read" "address" (.bits 1),
  .step, .step, .step, .step,
  .hostSend "Top.read" "address" (.bits 0), .hostReceive "Top.read" "data"]

theorem host_traffic_of_hostReads :
    ∃ design start, CompiledDesign.Produced design ∧
      Simulator.withPolicy design .roundRobin = .ok start ∧
      (∃ site events, start.net.Hosts ⟨1, 0⟩ true site ∧
        Simulator.Log (Simulator.Handles ⟨1, 0⟩ site) start hostReads events ∧
        events.filterMap HostEvent.sent? = events.filterMap HostEvent.moved? ++ [.bits 0]) ∧
      ∃ site events, start.net.Hosts ⟨1, 1⟩ false site ∧
        Simulator.Log (Simulator.Handles ⟨1, 1⟩ site) start hostReads events ∧
        events.filterMap HostEvent.moved? = events.filterMap HostEvent.received? ++ [.bits 5] := by
  have roles : ((hosted.simulation? "Top").map fun made =>
      ((made.2.state.hostRole? 1 0).map (·.sends), (made.2.state.hostRole? 1 1).map (·.sends))) =
      some (some true, some false) := by
    decide +kernel
  have queues : ((hosted.simulation? "Top").map fun made =>
      (((made.2.after hostReads).state.hostRole? 1 0).map (·.outbound),
        ((made.2.after hostReads).state.hostRole? 1 1).map (·.inbound))) =
      some (some [.bits 0], some [.bits 5]) := by
    decide +kernel
  obtain ⟨⟨design, start⟩, simulation, roles⟩ := Option.map_eq_some_iff.1 roles
  rw [simulation, Option.map_some, Option.some.injEq] at queues
  obtain ⟨address, data⟩ := Prod.mk.inj roles
  obtain ⟨outbound, inbound⟩ := Prod.mk.inj queues
  obtain ⟨asks, known, sends⟩ := Option.map_eq_some_iff.1 address
  obtain ⟨answers, known', receives⟩ := Option.map_eq_some_iff.1 data
  obtain ⟨produced, made⟩ := Setting.produced_of_simulation simulation
  refine ⟨design, start, produced, made, ?_, ?_⟩
  · obtain ⟨site, hosts, -, ⟨events, log⟩, balance⟩ :=
      Simulator.host_traffic_exactly_once produced made hostReads ⟨1, 0⟩ asks known
    obtain ⟨now, present, -, driven, -⟩ := balance events log
    rw [present] at outbound
    rw [← Option.some.inj outbound]
    exact ⟨site, events, sends ▸ hosts, log, (driven sends).1⟩
  · obtain ⟨site, hosts, -, ⟨events, log⟩, balance⟩ :=
      Simulator.host_traffic_exactly_once produced made hostReads ⟨1, 1⟩ answers known'
    obtain ⟨now, present, -, -, delivered⟩ := balance events log
    rw [present] at inbound
    rw [← Option.some.inj inbound]
    exact ⟨site, events, receives ▸ hosts, log, (delivered receives).1⟩

end MemoryDesign

end Elastic
