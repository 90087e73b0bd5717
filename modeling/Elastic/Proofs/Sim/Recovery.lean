import Elastic.Proofs.Sim.Stability

namespace Elastic

/-! What is left of a cycle that fails. Everything is as it was but the monitor, which keeps what it
saw of the channels that settled; and since nothing in a simulation reads the monitor, all later
calls answer as if the cycle had not been tried. -/

namespace Monitor

variable {monitor other : Monitor} {seen : Observation}

/-- Two monitors that recorded the same violations and hold the same payloads. -/
structure Agrees (monitor other : Monitor) : Prop where
  violations : monitor.violations = other.violations
  held : ∀ site, monitor.held? site = other.held? site

theorem Agrees.refl (monitor : Monitor) : monitor.Agrees monitor := ⟨rfl, fun _ => rfl⟩

theorem Agrees.trans {last : Monitor} (first : monitor.Agrees other) (second : other.Agrees last) :
    monitor.Agrees last :=
  ⟨first.violations.trans second.violations, fun site =>
    (first.held site).trans (second.held site)⟩

theorem Agrees.observe (agrees : monitor.Agrees other) (seen : Observation) :
    (monitor.observe seen).Agrees (other.observe seen) := by
  refine ⟨?_, fun site => ?_⟩
  · simp only [Monitor.observe, agrees.held, agrees.violations]
  · simp only [held?_observe, agrees.held]

theorem Agrees.foldl (agrees : monitor.Agrees other) (seen : List Observation) :
    (seen.foldl Monitor.observe monitor).Agrees (seen.foldl Monitor.observe other) := by
  induction seen generalizing monitor other with
  | nil => exact agrees
  | cons one rest induction => exact induction (agrees.observe one)

theorem agrees_observe (same : monitor.held? seen.site = waiting? seen) :
    (monitor.observe seen).Agrees monitor := by
  refine ⟨?_, fun site => ?_⟩
  · have retabled : ((monitor.held? seen.site).bind fun held => breach? held seen) = none := by
      rw [same, Option.bind_eq_none_iff]
      intro held waits
      obtain ⟨valid, -, data⟩ := waiting?_eq_some.1 waits
      simp [breach?, valid, data]
    simp [Monitor.observe, retabled]
  · rw [held?_observe]
    split
    · rename_i here
      rw [← here, same]
    · rfl

theorem held?_foldl_of_not_mem {seen : List Observation} {site : ChannelSite}
    (absent : site ∉ seen.map (·.site)) :
    (seen.foldl observe monitor).held? site = monitor.held? site := by
  induction seen generalizing monitor with
  | nil => rfl
  | cons one rest induction =>
      obtain ⟨apart, others⟩ := not_or.1 (mt List.mem_cons.2 absent)
      rw [List.foldl_cons, induction others, held?_observe, if_neg (Ne.symm apart)]

theorem held?_foldl_of_mem {seen : List Observation} (distinct : (seen.map (·.site)).Nodup)
    {one : Observation} (member : one ∈ seen) :
    (seen.foldl observe monitor).held? one.site = waiting? one := by
  induction seen generalizing monitor with
  | nil => cases member
  | cons first rest induction =>
      obtain ⟨absent, others⟩ := List.nodup_cons.1 distinct
      obtain rfl | later := List.mem_cons.1 member
      · rw [List.foldl_cons, held?_foldl_of_not_mem absent, held?_observe, if_pos rfl]
      · exact induction others later

theorem report?_of_mem_reports {seen : List Observation} {report : ChannelSite × Violation}
    (distinct : (seen.map (·.site)).Nodup) (member : report ∈ monitor.reports seen) :
    ∃ one ∈ seen, monitor.report? one = some report.2 := by
  obtain ⟨earlier, one, later, rfl, -, recorded⟩ := mem_reports member
  have apart : one.site ∉ earlier.map (·.site) := by
    rw [List.map_append, List.nodup_append] at distinct
    exact fun there => distinct.2.2 _ there _ List.mem_cons_self rfl
  refine ⟨one, List.mem_append_right _ List.mem_cons_self, ?_⟩
  rwa [report?, held?_foldl_of_not_mem apart] at recorded

/-- The monitor is left as it was exactly if it held of every channel what the channel shows now. -/
theorem agrees_foldl_iff {seen : List Observation} (distinct : (seen.map (·.site)).Nodup) :
    (seen.foldl observe monitor).Agrees monitor ↔
      ∀ one ∈ seen, monitor.held? one.site = waiting? one := by
  constructor
  · intro agrees one member
    rw [← agrees.held, held?_foldl_of_mem distinct member]
  · intro same
    induction seen generalizing monitor with
    | nil => exact .refl monitor
    | cons first rest induction =>
        obtain ⟨absent, others⟩ := List.nodup_cons.1 distinct
        have here := agrees_observe (same first List.mem_cons_self)
        refine (induction others fun one member => ?_).trans here
        rw [here.held]
        exact same one (List.mem_cons_of_mem _ member)

end Monitor

theorem Netlist.nodup_channelSites (net : Netlist) : net.channelSites.Nodup := by
  refine List.nodup_flatMap.2 ⟨fun inst _ => ?_, ?_⟩
  · exact List.nodup_range.map fun _ _ equal => (Prod.mk.inj equal).2
  · refine List.nodup_range.imp fun {inst inst'} apart site one other => ?_
    obtain ⟨_, -, rfl⟩ := List.mem_map.1 one
    obtain ⟨_, -, equal⟩ := List.mem_map.1 other
    exact apart (Prod.mk.inj equal).1.symm

namespace Simulator

inductive Reply
  | transfers (result : Except SimError Nat)
  | done (result : Except SimError Unit)
  | taken (result : Except SimError (Option SimValue))

def reply (sim : Simulator) : Action → Reply
  | .step => .transfers sim.step.1
  | .setInput name value => .done ((sim.setInput name value).map fun _ => ())
  | .hostSend path role value => .done ((sim.hostSend path role value).map fun _ => ())
  | .hostReceive path role => .taken ((sim.hostReceive path role).map (·.1))
  | .pokeMemory path address value => .done ((sim.pokeMemory path address value).map fun _ => ())

/-- A call with its answer, what it leaves, and what it shows the monitor, whichever that is. -/
structure Proceeds (sim : Simulator) (action : Action) (next : Simulator)
    (seen : List Observation) : Prop where
  answers : ∀ monitor, (sim.watched monitor).reply action = sim.reply action
  leaves : ∀ monitor, (sim.watched monitor).act action =
    next.watched (seen.foldl Monitor.observe monitor)

variable {sim : Simulator}

section

variable (sim) (monitor : Monitor)

theorem setInput_watched (name : String) (value : SimValue) :
    (sim.watched monitor).setInput name value =
      (sim.setInput name value).map fun next => next.watched monitor := by
  unfold setInput
  dsimp only [watched]
  split
  · rfl
  · rename_i index _
    change (if value.conforms (sim.inputTy index) then _ else _) = _
    split <;> rfl

theorem hostSend_watched (path role : String) (value : SimValue) :
    (sim.watched monitor).hostSend path role value =
      (sim.hostSend path role value).map fun next => next.watched monitor := by
  unfold hostSend
  change sim.hostRole path role >>= _ = _
  cases sim.hostRole path role with
  | error error => rfl
  | ok place =>
      dsimp only [Bind.bind, Except.bind]
      split
      · rfl
      · split <;> rfl

theorem hostReceive_watched (path role : String) :
    (sim.watched monitor).hostReceive path role =
      (sim.hostReceive path role).map fun taken => (taken.1, taken.2.watched monitor) := by
  unfold hostReceive
  change sim.hostRole path role >>= _ = _
  cases sim.hostRole path role with
  | error error => rfl
  | ok place =>
      dsimp only [Bind.bind, Except.bind]
      split <;> rfl

theorem pokeMemory_watched (path : String) (address : UInt64) (value : SimValue) :
    (sim.watched monitor).pokeMemory path address value =
      (sim.pokeMemory path address value).map fun next => next.watched monitor := by
  unfold pokeMemory
  change sim.memoryIndex path >>= _ = _
  cases sim.memoryIndex path with
  | error error => rfl
  | ok index =>
      dsimp only [Bind.bind, Except.bind, watched]
      split
      · rfl
      · rename_i held present
        cases held.poke address value <;> rfl

end

theorem exists_proceeds (sim : Simulator) (action : Action) :
    ∃ next seen, sim.Proceeds action next seen := by
  have same : sim.watched sim.monitor = sim := rfl
  cases action with
  | step =>
      obtain ⟨error, seen, -, failed⟩ | ⟨count, seen, effects, high, -, -, -, completed⟩ :=
        sim.step_cases
      · have own := failed sim.monitor
        refine ⟨sim, seen, fun monitor => ?_, fun monitor => ?_⟩
        · rw [reply, reply, failed, show sim.step = _ from own]
        · rw [act, failed]
      · have own := completed sim.monitor
        refine ⟨{ sim with state := nextState sim.state effects high, cycle := sim.cycle + 1 },
          seen, fun monitor => ?_, fun monitor => ?_⟩
        · rw [reply, reply, completed, show sim.step = _ from own]
        · rw [act, completed]
          rfl
  | setInput name value =>
      refine ⟨sim.act (.setInput name value), [], fun monitor => ?_, fun monitor => ?_⟩
      · rw [reply, reply, setInput_watched]
        cases sim.setInput name value <;> rfl
      · rw [act, act, setInput_watched]
        cases sim.setInput name value <;> rfl
  | hostSend path role value =>
      refine ⟨sim.act (.hostSend path role value), [], fun monitor => ?_, fun monitor => ?_⟩
      · rw [reply, reply, hostSend_watched]
        cases sim.hostSend path role value <;> rfl
      · rw [act, act, hostSend_watched]
        cases sim.hostSend path role value <;> rfl
  | hostReceive path role =>
      refine ⟨sim.act (.hostReceive path role), [], fun monitor => ?_, fun monitor => ?_⟩
      · rw [reply, reply, hostReceive_watched]
        cases sim.hostReceive path role <;> rfl
      · rw [act, act, hostReceive_watched]
        cases sim.hostReceive path role <;> rfl
  | pokeMemory path address value =>
      refine ⟨sim.act (.pokeMemory path address value), [], fun monitor => ?_, fun monitor => ?_⟩
      · rw [reply, reply, pokeMemory_watched]
        cases sim.pokeMemory path address value <;> rfl
      · rw [act, act, pokeMemory_watched]
        cases sim.pokeMemory path address value <;> rfl

theorem after_watched (sim : Simulator) (actions : List Action) :
    ∃ (next : Simulator) (seen : List Observation), ∀ monitor,
      (sim.watched monitor).after actions =
        next.watched (seen.foldl Monitor.observe monitor) := by
  induction actions generalizing sim with
  | nil => exact ⟨sim, [], fun _ => rfl⟩
  | cons action rest induction =>
      obtain ⟨next, seen, proceeds⟩ := sim.exists_proceeds action
      obtain ⟨last, others, later⟩ := induction next
      refine ⟨last, seen ++ others, fun monitor => ?_⟩
      rw [after, List.foldl_cons, proceeds.leaves, List.foldl_append]
      exact later _

theorem reply_watched (sim : Simulator) (monitor : Monitor) (action : Action) :
    (sim.watched monitor).reply action = sim.reply action := by
  obtain ⟨next, seen, proceeds⟩ := sim.exists_proceeds action
  exact proceeds.answers monitor

/-- Two monitors of a simulator agree after every run if they agree before. -/
theorem agrees_after_iff (sim : Simulator) {monitor monitor' : Monitor} :
    (∀ actions, ((sim.watched monitor).after actions).monitor.Agrees
      ((sim.watched monitor').after actions).monitor) ↔ monitor.Agrees monitor' := by
  constructor
  · exact fun agrees => agrees []
  · intro agrees actions
    obtain ⟨next, seen, leaves⟩ := sim.after_watched actions
    rw [leaves, leaves]
    exact agrees.foldl seen

theorem watches_of_failed {error : SimError} (failed : sim.step.1 = .error error) :
    ∃ seen, sim.Watches sim.net.channelSites seen ∧
      sim.step.2 = sim.watched (seen.foldl Monitor.observe sim.monitor) := by
  obtain ⟨_, seen, watches, fails⟩ | ⟨_, _, _, _, -, -, -, completed⟩ := sim.step_cases
  · exact ⟨seen, watches, congrArg Prod.snd (fails sim.monitor)⟩
  · cases failed.symm.trans (congrArg Prod.fst (completed sim.monitor))

/-- A failing step leaves a simulator that answers every later call as the one before it would, and
that is the one before it but for its monitor. The monitor keeps the channels that settled before
the failure: it holds and has recorded just what it did exactly if each of them was, before the
step, seen as it is seen now, and then it also does after every later run. -/
theorem failed_step_spares {error : SimError} (failed : sim.step.1 = .error error) :
    ∃ seen, sim.Watches sim.net.channelSites seen ∧
      sim.step.2 = sim.watched (seen.foldl Monitor.observe sim.monitor) ∧
      (∃ others, sim.step.2.violations = sim.violations ++ others ∧
        ∀ violation ∈ others, violation.cycle = sim.cycle ∧
          ∃ one ∈ seen, sim.monitor.report? one = some violation) ∧
      (∀ actions,
        (∃ monitor, sim.step.2.after actions = (sim.after actions).watched monitor) ∧
        ∀ action, (sim.step.2.after actions).reply action = (sim.after actions).reply action) ∧
      ((∀ one ∈ seen, sim.monitor.held? one.site = Monitor.waiting? one) ↔
        ∀ actions, (sim.step.2.after actions).monitor.Agrees (sim.after actions).monitor) := by
  obtain ⟨seen, watches, left⟩ := watches_of_failed failed
  have distinct : (seen.map (·.site)).Nodup :=
    (Netlist.nodup_channelSites sim.net).sublist watches.order.sublist
  refine ⟨seen, watches, left, ⟨(Monitor.reports sim.monitor seen).map (·.2), ?_, ?_⟩, ?_, ?_⟩
  · rw [left]
    exact Monitor.violations_foldl sim.monitor seen
  · intro violation recorded
    obtain ⟨report, inside, rfl⟩ := List.mem_map.1 recorded
    obtain ⟨one, member, recorded⟩ := Monitor.report?_of_mem_reports distinct inside
    refine ⟨?_, one, member, recorded⟩
    obtain ⟨kind, -, equal⟩ := Option.map_eq_some_iff.1 recorded
    rw [← equal]
    exact (watches.observes one member).cycle
  · intro actions
    obtain ⟨next, later, leaves⟩ := sim.after_watched actions
    have own : sim.after actions = next.watched (later.foldl Monitor.observe sim.monitor) :=
      leaves sim.monitor
    rw [left, leaves, own]
    exact ⟨⟨_, rfl⟩, fun action => (reply_watched next _ action).trans
      (reply_watched next _ action).symm⟩
  · rw [← Monitor.agrees_foldl_iff distinct, left]
    exact sim.agrees_after_iff.symm

end Simulator

namespace RequestDesign

def word : Ty := .bits 8

def depth : UInt32 := 3

def addressTy : Ty := .bits (addressWidth depth)

def memoryService : Service := .randomAccessMemory "Ram" word depth

def steps : List Step := [
  .port "clk" (some "clk"), .port "rst" (some "rst"), .port "go" (some "go"),
  .port "place" (some "place"),
  .wrap addressTy "place" "go" (some "address") none,
  .pack (Service.readBundle word depth) [("address", "address")] (some "reads") none,
  .call memoryService "read" "reads" ⟨"reader", none⟩,
  .builtin memoryService ⟨"mem", none⟩ memoryTag [] ["clk", "rst"] []]

def setting : Setting where
  library := {
    modules := [{
      name := "Top"
      ports := [("clk", .clock), ("rst", .bit), ("go", .bit), ("place", addressTy)]
      recipe := .ofSteps steps .done }]
    services := [memoryService] }
  preset := .cosim
  capabilities := BackendPreset.cosim.capabilities

theorem composed_setting : ∀ service ∈ setting.library.services, service.Composed := by
  intro service member
  obtain rfl : service = memoryService := by simpa [setting] using member
  exact .randomAccessMemory _ _ _

/-- The memory cannot take the request for word 0 while it is in reset, and has no word 3. -/
def turnedRequest : List Action := [
  .setInput "rst" (.bits 1), .setInput "go" (.bits 1), .step,
  .setInput "rst" (.bits 0), .setInput "place" (.bits 3)]

theorem reports_of_turnedRequest :
    ∃ design start sim error, CompiledDesign.Built design ∧
      Simulator.withPolicy design .roundRobin = .ok start ∧
      sim = start.after turnedRequest ∧ sim.step.1 = .error error ∧
      sim.violations = [] ∧ sim.step.2.violations = [⟨1, "Top", 0, .dataChanged⟩] ∧
      ∀ actions, (∃ monitor, sim.step.2.after actions = (sim.after actions).watched monitor) ∧
        ∀ action, (sim.step.2.after actions).reply action = (sim.after actions).reply action := by
  have facts : ((setting.simulation? "Top").map fun made =>
      let sim := made.2.after turnedRequest
      (sim.step.1.toOption, sim.violations, sim.step.2.violations)) =
      some (none, [], [⟨1, "Top", 0, .dataChanged⟩]) := by
    decide +kernel
  obtain ⟨⟨design, start⟩, simulation, facts⟩ := Option.map_eq_some_iff.1 facts
  dsimp only at facts
  obtain ⟨fails, violations⟩ := Prod.mk.inj facts
  obtain ⟨before, after⟩ := Prod.mk.inj violations
  obtain ⟨built, made⟩ := Setting.built_of_simulation composed_setting simulation
  cases outcome : (start.after turnedRequest).step.1 with
  | ok count =>
      rw [outcome] at fails
      cases fails
  | error error =>
      obtain ⟨-, -, -, -, alike, -⟩ := Simulator.failed_step_spares outcome
      exact ⟨design, start, _, error, built, made, rfl, outcome, before, after, alike⟩

end RequestDesign

end Elastic
