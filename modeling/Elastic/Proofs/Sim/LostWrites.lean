import Elastic.Proofs.Sim.Contention

namespace Elastic

open Query

namespace MemoryDesign

/-- A cycle that completes, in which the writer offers a word and the memory takes a write of
another client. -/
structure Loses (client : Nat) (sim : Simulator) : Prop where
  completes : sim.Completes .step
  offers : (Signal.valid 2 2).Settles sim.net sim.state true
  rival : ∃ other value, other < client ∧ sim.Accepts (writeRef other) value

section

variable {sim : Simulator} {client : Nat}

theorem CopySetup.act (copySetup : CopySetup client sim) (action : Action) : CopySetup client
    (sim.act action) := by
  have turns := sim.turns action
  have alike := (sim.acts action).alike
  have names : (sim.act action).inputNames = sim.inputNames := by
    have acts := sim.acts action
    generalize sim.act action = next at acts
    cases acts <;> rfl
  obtain ⟨copies, path, inputs, memory, routed, reads, writes, last, reading, writing⟩ := copySetup
  refine ⟨?_, ?_, names.trans inputs, alike.memories.trans memory, turns.routed routed, ?_, ?_, ?_,
    ?_, ?_⟩
  · rwa [turns.net]
  · rwa [turns.net]
  · rwa [turns.clientSite?]
  · rwa [turns.clientSite?]
  · rwa [turns.clientSite?]
  · rwa [turns.net]
  · rwa [turns.net]

theorem CopySetup.after (copySetup : CopySetup client sim) (actions : List Action) :
    CopySetup client (sim.after actions) := by
  induction actions generalizing sim with
  | nil => exact copySetup
  | cons action rest induction => exact induction (copySetup.act action)

theorem CopySetup.runs (copySetup : CopySetup client sim)
    (low : sim.input? "rst" = some (.bits 0)) : Runs client sim := by
  refine ⟨copySetup, fun raised => ?_⟩
  have input : sim.state.inputs[1]? = some (.bits 0) := by
    rw [Simulator.input?, copySetup.names] at low
    exact low
  have labels : sim.state.memories.map Memory.label = [⟨"Top.mem", 0, some 1⟩] := copySetup.memory
  obtain ⟨held, memories, label⟩ : ∃ held, sim.state.memories = [held] ∧
      held.label = ⟨"Top.mem", 0, some 1⟩ := by
    obtain ⟨held, rest, memories, label, none⟩ := List.map_eq_cons_iff.1 labels
    rw [List.map_eq_nil_iff.1 none] at memories
    exact ⟨held, memories, label⟩
  obtain ⟨-, inst, reset⟩ := MemoryLabel.mk.inj label
  unfold inReset at raised
  rw [memories] at raised
  dsimp only [List.getElem?_cons_zero] at raised
  rw [inst, reset] at raised
  obtain ⟨value, settles, high⟩ := yields_bind.1 raised
  have given := copySetup.copies.rst sim.state value (yields_demand.1 settles)
  cases input.symm.trans given
  cases yields_pure.1 high

variable {action : Action} (runs : Runs client sim)

include runs

theorem Runs.apart_act (apart : sim.state.pendingAt? (readRef client) = none ∨
      sim.state.pendingAt? (writeRef client) = none) :
    (sim.act action).state.pendingAt? (readRef client) = none ∨
      (sim.act action).state.pendingAt? (writeRef client) = none := by
  have turns := sim.turns action
  by_cases completes : sim.Completes action
  · obtain ⟨effects, high, cycle, state⟩ := turns.of_completes completes
    rw [state]
    obtain idle | gone := runs.reader_after cycle
    · exact .inr (runs.writer_after cycle idle)
    · exact .inl gone
  · have same := turns.client?_of_not_completes completes
    simp only [SimState.pendingAt?, same]
    exact apart

/-- Every word that the writer offers is taken in the same cycle, or is lost to another client. -/
theorem Runs.accepts_or_loses (completes : sim.Completes .step)
    (apart : sim.state.pendingAt? (readRef client) = none ∨
      sim.state.pendingAt? (writeRef client) = none)
    (offers : (Signal.valid 2 2).Settles sim.net sim.state true) :
    (∃ value, sim.Accepts (writeRef client) value) ∨ Loses client sim := by
  obtain ⟨effects, high, cycle, -⟩ := (sim.turns .step).of_completes completes
  by_cases taken : ∃ value, sim.Accepts (writeRef client) value
  · exact .inl taken
  · exact .inr ⟨completes, offers, runs.exists_accepts cycle apart offers (not_exists.1 taken)⟩

theorem Runs.holds_act
    (holds : ∀ site value, sim.monitor.held? site = some value → Holds client sim.state site value)
    {site : ChannelSite} {value : SimValue}
    (held : (sim.act action).monitor.held? site = some value) :
    Holds client (sim.act action).state site value := by
  have acts := sim.acts action
  have kept : ¬ sim.Completes action → ∀ {site value}, Holds client sim.state site value →
      Holds client (sim.act action).state site value := by
    intro between site value holds
    have same := (sim.turns action).client?_of_not_completes between
    cases holds with
    | address => exact .address
    | offered pending => exact .offered (by rwa [SimState.pendingAt?, same])
    | dropped gone => exact .dropped (by rwa [SimState.pendingAt?, same])
  have between : action ≠ .step → ¬ sim.Completes action := fun apart completes => apart completes.1
  generalize sim.act action = next at *
  cases acts with
  | cycle completed cycle watches all =>
      obtain ⟨one, member, same, waits⟩ | ⟨absent, before⟩ := Monitor.held?_foldl held
      · have inside := watches.order.sublist.subset (List.mem_map_of_mem member)
        obtain ⟨now, pends⟩ := runs.waits (watches.observes one member) inside waits
        rw [same] at now pends
        cases now with
        | address => exact .address
        | offered pending | dropped gone =>
            obtain ⟨⟨word, there⟩, -⟩ := pends rfl
            refine .dropped ((runs.reader_after cycle).resolve_left fun idle => ?_)
            cases idle.symm.trans there
      · rw [all, runs.copies.sites] at absent
        cases holds site value before with
        | address | offered pending | dropped gone => exact absurd absent (by decide)
  | stall failed watches =>
      obtain ⟨one, member, same, waits⟩ | ⟨-, before⟩ := Monitor.held?_foldl held
      · have inside := watches.order.sublist.subset (List.mem_map_of_mem member)
        exact same ▸ (runs.waits (watches.observes one member) inside waits).1
      · exact holds site value before
  | refused refuses => exact holds site value held
  | setInput fits | hostSend found sends fits succeeds | hostReceive found receives succeeds
  | pokeMemory found present pokes succeeds =>
      exact kept (between (by simp)) (holds site value held)

theorem Runs.loses_of_held (apart : sim.state.pendingAt? (readRef client) = none ∨
      sim.state.pendingAt? (writeRef client) = none) {value : SimValue}
    (held : (sim.act action).monitor.held? (2, 2) = some value)
    (gone : (sim.act action).state.pendingAt? (readRef client) = none) :
    (action = .step ∧ Loses client sim ∧ (sim.act action).cycle = sim.cycle + 1) ∨
      sim.monitor.held? (2, 2) = some value ∧
        sim.state.pendingAt? (readRef client) = none ∧ (sim.act action).cycle = sim.cycle := by
  have acts := sim.acts action
  have same := (sim.turns action).client?_of_not_completes
  have between : action ≠ .step → ¬ sim.Completes action := fun apart completes => apart completes.1
  have before (between : ¬ sim.Completes action) :
      sim.state.pendingAt? (readRef client) = none := by
    rwa [SimState.pendingAt?, same between] at gone
  generalize sim.act action = next at *
  cases acts with
  | cycle completed cycle watches all =>
      obtain ⟨one, member, site, waits⟩ | ⟨absent, -⟩ := Monitor.held?_foldl held
      · have inside := watches.order.sublist.subset (List.mem_map_of_mem member)
        obtain ⟨-, offers, stalls⟩ :=
          (runs.waits (watches.observes one member) inside waits).2 site
        exact .inl ⟨rfl, ⟨⟨rfl, _, completed⟩, offers,
          runs.exists_accepts cycle apart offers (runs.not_accepts stalls)⟩, rfl⟩
      · rw [all, runs.copies.sites] at absent
        exact absurd absent (by decide)
  | stall failed watches =>
      obtain ⟨one, member, site, waits⟩ | ⟨-, before⟩ := Monitor.held?_foldl held
      · have inside := watches.order.sublist.subset (List.mem_map_of_mem member)
        obtain ⟨⟨word, there⟩, -⟩ := (runs.waits (watches.observes one member) inside waits).2 site
        cases gone.symm.trans there
      · exact .inr ⟨before, gone, rfl⟩
  | refused refuses => exact .inr ⟨held, gone, rfl⟩
  | setInput fits | hostSend found sends fits succeeds | hostReceive found receives succeeds
  | pokeMemory found present pokes succeeds => exact .inr ⟨held, before (between (by simp)), rfl⟩

theorem Runs.records
    (holds : ∀ site value, sim.monitor.held? site = some value → Holds client sim.state site value)
    {reports : List (ChannelSite × Violation)} (records : sim.Records action reports)
    {report : ChannelSite × Violation} (member : report ∈ reports) :
    action = .step ∧ report.2 = ⟨sim.cycle, "Top.mem_writer", 2, .validDropped⟩ ∧
      (∃ value, sim.monitor.held? (2, 2) = some value) ∧
      sim.state.pendingAt? (readRef client) = none := by
  cases records with
  | step watches monitor =>
      have distinct := (Netlist.nodup_channelSites sim.net).sublist watches.order.sublist
      obtain ⟨one, inside, recorded⟩ := Monitor.report?_of_mem_reports distinct member
      have observes := watches.observes one inside
      obtain ⟨kind, breach, equal⟩ := Option.map_eq_some_iff.1 recorded
      obtain ⟨held, known, breach⟩ := Option.bind_eq_some_iff.1 breach
      obtain ⟨site, rfl, gone⟩ := runs.breach observes
        (watches.order.sublist.subset (List.mem_map_of_mem inside)) (holds _ _ known) breach
      rw [observes.cycle, observes.path, site, runs.path] at equal
      exact ⟨rfl, equal.symm, ⟨held, site ▸ known⟩, gone⟩
  | aside apart => cases member

end

def Lost (client : Nat) (start : Simulator) (actions : List Action) (cycle : Nat) : Prop :=
  ∃ earlier later, actions = earlier ++ .step :: later ∧ Loses client (start.after earlier) ∧
    cycle = (start.after earlier).cycle + 1

theorem Lost.snoc {client : Nat} {start : Simulator} {actions : List Action} {cycle : Nat}
    (lost : Lost client start actions cycle) (action : Action) :
    Lost client start (actions ++ [action]) cycle := by
  obtain ⟨earlier, later, rfl, loses, equal⟩ := lost
  exact ⟨earlier, later ++ [action], List.append_assoc _ _ _, loses, equal⟩

/-- What is known of a run of the design, and what the monitor has recorded in it. -/
structure Accounts (client : Nat) (start : Simulator) (actions : List Action) : Prop where
  apart : (start.after actions).state.pendingAt? (readRef client) = none ∨
    (start.after actions).state.pendingAt? (writeRef client) = none
  holds : ∀ site value, (start.after actions).monitor.held? site = some value →
    Holds client (start.after actions).state site value
  lost : ∀ value, (start.after actions).monitor.held? (2, 2) = some value →
    (start.after actions).state.pendingAt? (readRef client) = none →
    Lost client start actions (start.after actions).cycle
  violations : ∀ violation ∈ (start.after actions).violations,
    violation = ⟨violation.cycle, "Top.mem_writer", 2, .validDropped⟩ ∧
      Lost client start actions violation.cycle

theorem Accounts.snoc {client : Nat} {start : Simulator} {actions : List Action} {action : Action}
    (accounts : Accounts client start actions) (runs : Runs client (start.after actions)) :
    Accounts client start (actions ++ [action]) := by
  have next : start.after (actions ++ [action]) = (start.after actions).act action :=
    List.foldl_append
  refine ⟨?_, ?_, ?_, ?_⟩
  · rw [next]
    exact runs.apart_act accounts.apart
  · rw [next]
    exact fun site value => runs.holds_act accounts.holds
  · rw [next]
    intro value held gone
    obtain ⟨rfl, loses, cycle⟩ | ⟨held, gone, cycle⟩ :=
      runs.loses_of_held accounts.apart held gone
    · exact ⟨actions, [], rfl, loses, cycle⟩
    · exact cycle ▸ (accounts.lost value held gone).snoc action
  · obtain ⟨reports, records⟩ := (start.after actions).exists_records action
    intro violation member
    change violation ∈ (start.after (actions ++ [action])).monitor.violations at member
    rw [next, records.violations, List.mem_append] at member
    obtain before | now := member
    · obtain ⟨kind, lost⟩ := accounts.violations violation before
      exact ⟨kind, lost.snoc action⟩
    · obtain ⟨report, inside, rfl⟩ := List.mem_map.1 now
      obtain ⟨rfl, equal, ⟨value, held⟩, gone⟩ := runs.records accounts.holds records inside
      rw [equal]
      exact ⟨rfl, (accounts.lost value held gone).snoc .step⟩

def Low (start : Simulator) (actions : List Action) : Prop :=
  ∀ earlier later, actions = earlier ++ later →
    (start.after earlier).input? "rst" = some (.bits 0)

theorem accounts_of_low {client : Nat} {start : Simulator} {actions : List Action}
    (copySetup : CopySetup client start) (accounts : Accounts client start [])
    (low : Low start actions) : Accounts client start actions := by
  induction actions using List.reverseRecOn with
  | nil => exact accounts
  | append_singleton actions action induction =>
      have before : Low start actions := fun earlier later equal =>
        low earlier (later ++ [action]) (by rw [equal, List.append_assoc])
      exact (induction before).snoc ((copySetup.after actions).runs (before actions [] (by simp)))

def writerClient : BackendPreset → Nat
  | .cosim => 1
  | .xrt => 0

def setting (preset : BackendPreset) : Setting := ⟨library false, preset, preset.capabilities⟩

theorem composed_setting (preset : BackendPreset) :
    ∀ service ∈ (setting preset).library.services, service.Composed := by
  intro service member
  obtain rfl | rfl : service = memoryService ∨ service = hostService := by
    simpa [setting, library] using member
  · exact .randomAccessMemory _ _ _
  · exact .withOperation _ _ (.withOperation _ _ (.host _))

@[mk_iff]
structure Fresh (client : Nat) (sim : Simulator) : Prop where
  built : Built sim.net
  path : sim.net.pathText 2 = "Top.mem_writer"
  names : sim.inputNames = ["clk", "rst"]
  memory : sim.state.memoryLabels = [⟨"Top.mem", 0, some 1⟩]
  reads : sim.state.clientSite? (readRef client) = some (2, 0)
  writes : sim.state.clientSite? (writeRef client) = some (2, 1)
  idle : sim.state.pendingAt? (readRef client) = none
  clients : (sim.state.memories[0]?.map fun held => (held.port .write).clients.length) =
    some (client + 1)
  reading : sim.net.clientRole? (2, 0) .toService = some ⟨2, 0, 0⟩ ∧
    sim.net.clientRole? (2, 0) .fromService = some ⟨2, 0, 1⟩
  writing : sim.net.clientRole? (2, 1) .toService = some ⟨2, 1, 0⟩ ∧
    sim.net.clientRole? (2, 1) .fromService = some ⟨2, 1, 1⟩

instance (client : Nat) (sim : Simulator) : Decidable (Fresh client sim) :=
  decidable_of_iff' _ (fresh_iff client sim)

def simulator? (preset : BackendPreset) (arbitration : ArbitrationPolicy) : Option Simulator := do
  let graph ← (generate (setting preset) "Top").outcome.toOption
  let design ← (CompiledDesign.compile "memory" "0.1.0" graph
    (generate (setting preset) "Top").names preset preset.capabilities .roundRobin).1.toOption
  (Simulator.withPolicy design arbitration).toOption

theorem fresh_of_simulator (preset : BackendPreset) (arbitration : ArbitrationPolicy) :
    ((simulator? preset arbitration).map fun sim =>
      decide (Fresh (writerClient preset) sim)) = some true := by
  cases preset <;> cases arbitration <;> decide +kernel

theorem Fresh.copySetup {client : Nat} {sim : Simulator} (fresh : Fresh client sim)
    (routed : sim.net.Routed sim.state.clientSite?) : CopySetup client sim where
  copies := fresh.built.copies
  path := fresh.path
  names := fresh.names
  memory := fresh.memory
  routed := routed
  reads := fresh.reads
  writes := fresh.writes
  last := by
    intro other site taken
    obtain ⟨held, known, clients⟩ := Option.map_eq_some_iff.1 fresh.clients
    obtain ⟨entry, present, -⟩ := Option.map_eq_some_iff.1 taken
    obtain ⟨memory, there, listed⟩ := Option.bind_eq_some_iff.1 present
    cases known.symm.trans there
    obtain ⟨bound, -⟩ := List.getElem?_eq_some_iff.1 listed
    exact Nat.le_of_lt_succ (Nat.lt_of_lt_of_eq bound clients)
  reading := by
    obtain ⟨request, response, connects⟩ := routed.connects fresh.reads
    cases fresh.reading.1.symm.trans connects.requests
    cases fresh.reading.2.symm.trans connects.responses
    exact connects
  writing := by
    obtain ⟨request, response, connects⟩ := routed.connects fresh.writes
    cases fresh.writing.1.symm.trans connects.requests
    cases fresh.writing.2.symm.trans connects.responses
    exact connects

theorem Fresh.of_same {client : Nat} {sim twin : Simulator} (fresh : Fresh client sim)
    (net : twin.net = sim.net) (state : twin.state = sim.state)
    (names : twin.inputNames = sim.inputNames) : Fresh client twin := by
  rw [fresh_iff, net, state, names]
  exact (fresh_iff client sim).1 fresh

theorem Accounts.of_idle {client : Nat} {start : Simulator}
    (idle : start.state.pendingAt? (readRef client) = none) (monitor : start.monitor = {}) :
    Accounts client start [] where
  apart := .inl idle
  holds := by
    intro site value held
    change start.monitor.held? site = some value at held
    rw [monitor] at held
    cases held
  lost := by
    intro value held
    change start.monitor.held? (2, 2) = some value at held
    rw [monitor] at held
    cases held
  violations := by
    intro violation member
    change violation ∈ start.monitor.violations at member
    rw [monitor] at member
    cases member

theorem Accounts.nil {client : Nat} {start : Simulator} (fresh : Fresh client start)
    (monitor : start.monitor = {}) : Accounts client start [] := .of_idle fresh.idle monitor

variable {preset : BackendPreset} {name version : String} {graph : Graph}
  {policy arbitration : ArbitrationPolicy} {design : CompiledDesign} {warnings : List Diagnostic}
  {start : Simulator}

theorem simulator_of_withPolicy
    (generated : (generate (setting preset) "Top").outcome = .ok graph)
    (compiled : CompiledDesign.compile name version graph (generate (setting preset) "Top").names
      preset preset.capabilities policy = (.ok design, warnings))
    (made : Simulator.withPolicy design arbitration = .ok start) :
    ∃ sim, simulator? preset arbitration = some sim ∧ start.net = sim.net ∧
      start.state = sim.state ∧ start.inputNames = sim.inputNames := by
  obtain ⟨sim, held, -⟩ := Option.map_eq_some_iff.1 (fresh_of_simulator preset arbitration)
  obtain ⟨graph', generated', rest⟩ := Option.bind_eq_some_iff.1 held
  obtain ⟨other, compiled', stands⟩ := Option.bind_eq_some_iff.1 rest
  cases generated.symm.trans (eq_ok_of_toOption generated')
  have succeeds := eq_ok_of_toOption compiled'
  obtain ⟨rfl, resolved⟩ := CompiledDesign.resolve_of_compile compiled
  obtain ⟨same, resolved'⟩ := CompiledDesign.resolve_of_compile (Prod.ext succeeds rfl)
  have names := CompiledDesign.names_of_compile compiled
  have names' := CompiledDesign.names_of_compile (Prod.ext succeeds rfl)
  have services := Except.ok.inj (resolved.symm.trans resolved')
  obtain ⟨twin, made', alike⟩ := Simulator.exists_withPolicy same.symm
    (names.trans names'.symm) services (eq_ok_of_toOption stands)
  cases made.symm.trans made'
  exact ⟨sim, held, alike⟩

theorem fresh_of_withPolicy
    (generated : (generate (setting preset) "Top").outcome = .ok graph)
    (compiled : CompiledDesign.compile name version graph (generate (setting preset) "Top").names
      preset preset.capabilities policy = (.ok design, warnings))
    (made : Simulator.withPolicy design arbitration = .ok start) :
    Fresh (writerClient preset) start := by
  obtain ⟨sim, held, net, state, inputs⟩ := simulator_of_withPolicy generated compiled made
  have fresh := fresh_of_simulator preset arbitration
  rw [held] at fresh
  exact (of_decide_eq_true (Option.some.inj fresh)).of_same net state inputs

/-- In a run of the design in which the memory is never in reset, the monitor finds one thing only:
that the writer has dropped a write, in the cycle after one in which the memory took a write of the
host instead. Every other write is taken in the cycle in which it is offered, and where the host has
no channels, none is lost. -/
theorem violations_are_lost_writes {entry : DesignEntry} {actions : List Action}
    (listed : findDesign? "esi_ram" = some entry)
    (generated :
      (generate ⟨entry.library, preset, preset.capabilities⟩ entry.top).outcome = .ok graph)
    (compiled : CompiledDesign.compile name version graph
      (generate ⟨entry.library, preset, preset.capabilities⟩ entry.top).names preset
      preset.capabilities policy = (.ok design, warnings))
    (made : Simulator.withPolicy design arbitration = .ok start) (low : Low start actions) :
    (∀ violation ∈ (start.after actions).violations,
      violation = ⟨violation.cycle, "Top.mem_writer", 2, .validDropped⟩ ∧
        Lost (writerClient preset) start actions violation.cycle) ∧
    (∀ earlier later, actions = earlier ++ .step :: later →
      (start.after earlier).Completes .step →
      (Signal.valid 2 2).Settles (start.after earlier).net (start.after earlier).state true →
      (∃ value, (start.after earlier).Accepts (writeRef (writerClient preset)) value) ∨
        Loses (writerClient preset) (start.after earlier)) ∧
    (preset = .xrt → (start.after actions).violations = []) := by
  cases listed
  have built : design.Built := .compile (composed_setting preset) generated compiled
  have fresh := fresh_of_withPolicy generated compiled made
  obtain ⟨-, -, -, -, -, monitor⟩ := Simulator.withPolicy_starts made
  have copySetup := fresh.copySetup (Simulator.routed_of_withPolicy built made)
  have initial := Accounts.nil fresh monitor
  have accounts := accounts_of_low copySetup initial low
  refine ⟨accounts.violations, fun earlier later equal completes offers => ?_, fun bare => ?_⟩
  · have before : Low start earlier := fun first second split =>
      low first (second ++ .step :: later) (by rw [equal, split, List.append_assoc])
    have runs := (copySetup.after earlier).runs (low earlier _ equal)
    exact runs.accepts_or_loses completes (accounts_of_low copySetup initial before).apart offers
  · subst bare
    refine List.eq_nil_iff_forall_not_mem.2 fun violation member => ?_
    obtain ⟨-, earlier, later, -, loses, -⟩ := accounts.violations violation member
    obtain ⟨other, value, before, -⟩ := loses.rival
    exact absurd before (Nat.not_lt_zero other)

/-- The write of the host arrives together with the response that the writer waits for. -/
def crossing : List Action := [
  .step, .hostSend "Top.write" "req" (.struct [.bits 5, .bits 99]), .step, .step]

/-- The arbiter of the memory turns to the writer last, so the host comes first. -/
theorem lost_write_of_crossing :
    ∃ entry design start, findDesign? "esi_ram" = some entry ∧ CompiledDesign.Built design ∧
      Simulator.withPolicy design .roundRobin = .ok start ∧ Low start crossing ∧
      (start.after crossing).violations = [⟨2, "Top.mem_writer", 2, .validDropped⟩] ∧
      Lost (writerClient .cosim) start crossing 2 := by
  have facts : (((setting .cosim).simulation? "Top").map fun made =>
      ((made.2.after crossing).violations,
        (List.range 5).all fun count =>
          (made.2.after (crossing.take count)).input? "rst" = some (.bits 0))) =
      some ([⟨2, "Top.mem_writer", 2, .validDropped⟩], true) := by
    decide +kernel
  obtain ⟨⟨design, start⟩, simulation, facts⟩ := Option.map_eq_some_iff.1 facts
  obtain ⟨recorded, retabled⟩ := Prod.mk.inj facts
  obtain ⟨graph, generated, compiled, made⟩ := Setting.stages_of_simulation simulation
  have low : Low start crossing := by
    intro earlier later equal
    have short : earlier.length < 5 := by
      have total := congrArg List.length equal
      rw [List.length_append, show crossing.length = 4 from rfl] at total
      omega
    have calm := List.all_eq_true.1 retabled earlier.length (List.mem_range.2 short)
    rw [equal, List.take_left] at calm
    exact of_decide_eq_true calm
  have listed : findDesign? "esi_ram" = some ⟨"esi_ram", "Top", _, library false⟩ := rfl
  obtain ⟨violations, -, -⟩ :=
    violations_are_lost_writes listed generated (Prod.ext compiled rfl) made low
  obtain ⟨-, lost⟩ := violations ⟨2, "Top.mem_writer", 2, .validDropped⟩ (by
    rw [recorded]
    exact List.mem_cons_self)
  have built : design.Built :=
    .compile (composed_setting .cosim) generated (Prod.ext compiled rfl)
  exact ⟨_, design, start, listed, built, made, low, recorded, lost⟩

end MemoryDesign

end Elastic
