import Elastic.Proofs.Compile.Outcome
import Elastic.Proofs.Sim.Copying

namespace Elastic

namespace MemoryDesign

/-! Runs of the memory design in which the host is silent. -/

/-- Where a run from given words stands after a number of cycles. A word that was read is there
after the first one, and from the second one on it has been copied. -/
structure Phase (client : Nat) (words : Array SimValue) (word : SimValue) (cycles : Nat)
    (sim : Simulator) : Prop extends HostSilent client sim where
  apart : sim.state.pendingAt? (readRef client) = none ∨
    sim.state.pendingAt? (writeRef client) = none
  pending : sim.state.pendingAt? (readRef client) = none ∧ cycles ≠ 1 ∨
    sim.state.pendingAt? (readRef client) = some word ∧ cycles ≠ 0
  words : sim.state.words? 0 =
    some (if cycles < 2 then words else words.setIfInBounds targetAddress.toNat word)
  cycle : sim.cycle = cycles

section

variable {sim : Simulator} {client cycles : Nat} {words : Array SimValue} {word : SimValue}
  (phase : Phase client words word cycles sim)

include phase

theorem Phase.step (source : words[sourceAddress.toNat]? = some word)
    (low : sim.input? "rst" = some (.bits 0)) :
    Phase client words word (cycles + 1) (sim.act .step) := by
  have runs := phase.toCopySetup.runs low
  have hostSilent : HostSilent client (sim.act .step) := phase.toHostSilent.act nofun
  have completes := phase.toHostSilent.completes
  obtain ⟨effects, high, cycle, state⟩ := (sim.turns .step).of_completes completes
  have counted : (sim.act .step).cycle = cycles + 1 := by
    rw [(sim.acts .step).cycle_of_completes completes, phase.cycle]
  have current : (if cycles < 2 then words else words.setIfInBounds targetAddress.toNat word)[
      sourceAddress.toNat]? = some word := by
    split
    · exact source
    · rw [Array.getElem?_setIfInBounds_ne (by decide), source]
  obtain ⟨idle, other⟩ | ⟨pending, other⟩ := phase.pending
  · have read := phase.toHostSilent.reads_word runs cycle idle phase.words current
    have kept : (sim.act .step).state.words? 0 =
        (sim.state.words? 0).map (SimState.store · []) :=
      Simulator.words?_of_stores phase.routed
        (.idle completes (phase.toHostSilent.spares_words runs idle))
    refine ⟨hostSilent, runs.apart_act phase.apart, .inr ⟨state ▸ read, by omega⟩, ?_, counted⟩
    rw [kept, phase.words, if_congr (show cycles < 2 ↔ cycles + 1 < 2 by omega) rfl rfl]
    rfl
  · have accepts := phase.toHostSilent.accepts_write runs cycle phase.apart pending
    have stored : (sim.act .step).state.words? 0 =
        (sim.state.words? 0).map (SimState.store · [(targetAddress.toNat, word)]) :=
      Simulator.words?_of_stores phase.routed
        (.write completes (accepts.granted phase.routed).1 accepts)
    have gone : (sim.act .step).state.pendingAt? (readRef client) = none := by
      rw [state]
      refine (runs.reader_after cycle).resolve_left fun idle => ?_
      cases idle.symm.trans pending
    refine ⟨hostSilent, runs.apart_act phase.apart, .inl ⟨gone, by omega⟩, ?_, counted⟩
    rw [stored, phase.words, if_neg (show ¬ cycles + 1 < 2 by omega)]
    split
    · rfl
    · exact congrArg some (Array.setIfInBounds_setIfInBounds ..)

theorem Phase.input (name : String) (value : SimValue) :
    Phase client words word cycles (sim.act (.setInput name value)) := by
  have hostSilent : HostSilent client (sim.act (.setInput name value)) :=
    phase.toHostSilent.act nofun
  obtain ⟨-, apart, pending, held, cycle⟩ := phase
  have acts := sim.acts (.setInput name value)
  generalize sim.act (.setInput name value) = next at *
  cases acts <;> exact ⟨hostSilent, apart, pending, held, cycle⟩

end

/-- What a run does while the host is silent: cycles, and changes of the inputs. -/
inductive Ticks : Action → Prop
  | step : Ticks .step
  | input (name : String) (value : SimValue) : Ticks (.setInput name value)

theorem Low.input? {start : Simulator} {actions : List Action} (low : Low start actions) :
    start.input? "rst" = some (.bits 0) :=
  low [] actions rfl

theorem phase_after {start : Simulator} {client : Nat} {words : Array SimValue} {word : SimValue}
    {actions : List Action} (source : words[sourceAddress.toNat]? = some word)
    (phase : Phase client words word 0 start) (ticks : ∀ action ∈ actions, Ticks action)
    (low : Low start actions) :
    Phase client words word (actions.countP Action.isStep) (start.after actions) := by
  induction actions using List.reverseRecOn with
  | nil => exact phase
  | append_singleton actions action induction =>
      have before : Phase client words word (actions.countP Action.isStep) (start.after actions) :=
        induction (fun action member => ticks action (List.mem_append_left _ member))
          fun earlier later equal =>
            low earlier (later ++ [action]) (by rw [equal, List.append_assoc])
      have next : start.after (actions ++ [action]) = (start.after actions).act action :=
        List.foldl_append
      rw [next, List.countP_append]
      cases ticks action (by simp) with
      | step => exact before.step source (low actions [.step] rfl)
      | input name value => exact before.input name value

inductive Prepares : Action → Prop
  | poke (address : UInt64) (value : SimValue) : Prepares (.pokeMemory "Top.mem" address value)
  | input (name : String) (value : SimValue) : Prepares (.setInput name value)

structure Ready (client : Nat) (sim : Simulator) : Prop extends HostSilent client sim where
  idle : sim.state.pendingAt? (readRef client) = none
  monitor : sim.monitor = {}
  cycle : sim.cycle = 0

theorem Ready.act {sim : Simulator} {client : Nat} {action : Action} (ready : Ready client sim)
    (prepares : Prepares action) : Ready client (sim.act action) := by
  have between : ¬ sim.Completes action := by
    rintro ⟨rfl, -⟩
    cases prepares
  have hostSilent : HostSilent client (sim.act action) := by
    apply ready.toHostSilent.act
    rintro path role value rfl
    cases prepares
  have same := (sim.turns action).client?_of_not_completes between
  have kept : (sim.act action).monitor = sim.monitor ∧ (sim.act action).cycle = sim.cycle := by
    have acts := sim.acts action
    generalize sim.act action = next at acts
    cases prepares <;> cases acts <;> exact ⟨rfl, rfl⟩
  refine ⟨hostSilent, ?_, kept.1.trans ready.monitor, kept.2.trans ready.cycle⟩
  rw [SimState.pendingAt?, same]
  exact ready.idle

theorem Ready.after {start : Simulator} {client : Nat} {setup : List Action}
    (ready : Ready client start) (prepares : ∀ action ∈ setup, Prepares action) :
    Ready client (start.after setup) := by
  induction setup generalizing start with
  | nil => exact ready
  | cons action rest induction =>
      exact induction (ready.act (prepares action List.mem_cons_self))
        fun action member => prepares action (List.mem_cons_of_mem _ member)

theorem CopySetup.exists_memory {sim : Simulator} {client : Nat}
    (copySetup : CopySetup client sim) : ∃ held, sim.state.memories =
    [held] ∧ held.path = "Top.mem" := by
  obtain ⟨held, rest, memories, label, none⟩ := List.map_eq_cons_iff.1 copySetup.memory
  rw [List.map_eq_nil_iff.1 none] at memories
  exact ⟨held, memories, congrArg MemoryLabel.path label⟩

theorem CopySetup.memoryIndex {sim : Simulator} {client : Nat} (copySetup : CopySetup client sim) :
    sim.memoryIndex "Top.mem" = .ok 0 := by
  obtain ⟨held, memories, path⟩ := copySetup.exists_memory
  simp [Simulator.memoryIndex_eq_ok, memories, path]

theorem CopySetup.memory_eq {sim : Simulator} {client : Nat} {words : Array SimValue}
    (copySetup : CopySetup client sim) (stands : sim.state.words? 0 = some words) :
    sim.memory "Top.mem" = .ok words := by
  have known : (sim.state.memories[0]?).map (·.words) = some words := stands
  simp only [Simulator.memory, copySetup.memoryIndex, bind, Except.bind, known]
  rfl

theorem Ready.poke {sim : Simulator} {client : Nat} {words : Array SimValue} {address : UInt64}
    (ready : Ready client sim) (held : sim.state.words? 0 = some words)
    (inside : address.toNat < depth.toNat) (value : UInt64) :
    (sim.act (.pokeMemory "Top.mem" address (.bits value))).state.words? 0 =
      some (words.setIfInBounds address.toNat (.bits value)) := by
  obtain ⟨memory, memories, -⟩ := ready.toCopySetup.exists_memory
  obtain ⟨wide, deep⟩ := ready.shape_of_mem (show memory ∈ sim.state.memories by simp [memories])
  have pokes : ∃ next, sim.pokeMemory "Top.mem" address (.bits value) = .ok next := by
    have placed : memory.place address = .ok address.toNat := by
      rw [Memory.place, deep, if_pos inside]
    have fits : (SimValue.bits value).conforms memory.word = true := by
      rw [wide]
      rfl
    have first : sim.state.memories[0]? = some memory := by rw [memories]; rfl
    simp only
      [Simulator.pokeMemory, ready.toCopySetup.memoryIndex, bind, Except.bind, first,
        Memory.poke, fits, placed, if_true]
    exact ⟨_, rfl⟩
  obtain ⟨next, succeeds⟩ := pokes
  rw [Simulator.words?_of_stores ready.routed
    (.poke rfl ready.toCopySetup.memoryIndex succeeds), held]
  rfl

def fill (contents : List UInt64) : List Action :=
  contents.mapIdx fun address word => .pokeMemory "Top.mem" (.ofNat address) (.bits word)

theorem prepares_fill (contents : List UInt64) : ∀ action ∈ fill contents, Prepares action := by
  intro action member
  obtain ⟨address, bound, rfl⟩ := List.mem_mapIdx.1 member
  exact .poke _ _

theorem Ready.words?_fill {sim : Simulator} {client : Nat} {contents : List UInt64}
    (ready : Ready client sim) (fits : contents.length ≤ depth.toNat) :
    ∃ words, (sim.after (fill contents)).state.words? 0 = some words ∧
      words.size = depth.toNat ∧
      ∀ (address : Nat) word, contents[address]? = some word →
        words[address]? = some (.bits word) := by
  induction contents using List.reverseRecOn with
  | nil =>
      obtain ⟨held, memories, -⟩ := ready.toCopySetup.exists_memory
      have member : held ∈ sim.state.memories := by simp [memories]
      refine ⟨held.words, ?_, (ready.shape_of_mem member).2, fun _ _ none => by cases none⟩
      simp [fill, SimState.words?, Simulator.after, memories]
  | append_singleton contents word induction =>
      rw [List.length_append, List.length_singleton] at fits
      obtain ⟨words, held, size, filled⟩ := induction (by omega)
      have place : (UInt64.ofNat contents.length).toNat = contents.length :=
        UInt64.toNat_ofNat_of_lt' (Nat.lt_of_lt_of_le fits (by decide))
      have next : sim.after (fill (contents ++ [word])) = (sim.after (fill contents)).act
          (.pokeMemory "Top.mem" (.ofNat contents.length) (.bits word)) := by
        rw [fill, List.mapIdx_concat]
        exact List.foldl_append
      refine ⟨words.setIfInBounds contents.length (.bits word), ?_, by simpa using size, ?_⟩
      · rw [next, (ready.after (prepares_fill contents)).poke held (by omega) word, place]
      · intro address value present
        have reaches : address ≤ contents.length := by
          obtain ⟨bound, -⟩ := List.getElem?_eq_some_iff.1 present
          simpa [Nat.lt_succ_iff] using bound
        rw [Array.getElem?_setIfInBounds]
        obtain below | rfl := Nat.lt_or_eq_of_le reaches
        · rw [if_neg (Nat.ne_of_gt below)]
          rw [List.getElem?_append_left below] at present
          exact filled address value present
        · rw [List.getElem?_concat_length] at present
          cases present
          rw [if_pos rfl, if_pos (by omega)]

theorem Ready.memory_fill {sim : Simulator} {client : Nat} {contents : List UInt64}
    (ready : Ready client sim) (size : contents.length = depth.toNat) :
    (sim.after (fill contents)).memory "Top.mem" = .ok (contents.map .bits).toArray := by
  obtain ⟨words, held, wide, filled⟩ := ready.words?_fill (Nat.le_of_eq size)
  have same : words = (contents.map .bits).toArray := by
    refine Array.ext (by simp [wide, size]) fun address bound bound' => ?_
    have inside : address < contents.length := by simpa using bound'
    have read := filled address contents[address] (List.getElem?_eq_getElem inside)
    rw [Array.getElem?_eq_getElem bound] at read
    simpa using Option.some.inj read
  rw [(ready.after (prepares_fill contents)).memory_eq held, same]

theorem Ready.exists_phase {sim : Simulator} {client : Nat} (ready : Ready client sim) :
    ∃ words word, words.size = depth.toNat ∧ words[sourceAddress.toNat]? = some word ∧
      Phase client words word 0 sim := by
  obtain ⟨held, memories, -⟩ := ready.toCopySetup.exists_memory
  have size : held.words.size = depth.toNat := (ready.shape_of_mem (by simp [memories])).2
  have inside : sourceAddress.toNat < held.words.size := by
    rw [size]
    decide
  refine ⟨held.words, held.words[sourceAddress.toNat], size, Array.getElem?_eq_getElem inside,
    ready.toHostSilent, .inl ready.idle, .inl ⟨ready.idle, by decide⟩, ?_, ready.cycle⟩
  simp [SimState.words?, memories]

/-- The run has copied word 2 to word 3 and changed nothing else, and no handshake was violated. -/
structure Copied (before after : Simulator) (cycles : Nat) : Prop where
  words : ∃ words word, Array.size words = 8 ∧ words[2]? = some word ∧
    before.memory "Top.mem" = .ok words ∧ after.memory "Top.mem" = .ok (words.setIfInBounds 3 word)
  violations : after.violations = []
  cycle : after.cycle = cycles

section

variable {start : Simulator} {client : Nat} {actions : List Action} (ready : Ready client start)
  (ticks : ∀ action ∈ actions, Ticks action) (low : Low start actions)

include ready ticks low

theorem Ready.violations : (start.after actions).violations = [] := by
  have accounts := accounts_of_low ready.toCopySetup (.of_idle ready.idle ready.monitor) low
  refine List.eq_nil_iff_forall_not_mem.2 fun violation member => ?_
  obtain ⟨-, earlier, later, equal, loses, -⟩ := accounts.violations violation member
  obtain ⟨other, value, before, accepts⟩ := loses.rival
  obtain ⟨words, word, -, source, phase⟩ := ready.exists_phase
  have reached := phase_after source phase
    (fun action member => ticks action (equal ▸ List.mem_append_left _ member))
    fun first second split =>
      low first (second ++ .step :: later) (by rw [equal, split, List.append_assoc])
  exact Nat.ne_of_lt before (reached.client_of_write accepts)

theorem Ready.copied (twice : 2 ≤ actions.countP Action.isStep) :
    Copied start (start.after actions) (actions.countP Action.isStep) := by
  obtain ⟨words, word, size, source, phase⟩ := ready.exists_phase
  have last := phase_after source phase ticks low
  have held := last.words
  rw [if_neg (Nat.not_lt.2 twice)] at held
  exact ⟨⟨words, word, size, source, ready.memory_eq phase.words, last.memory_eq held⟩,
    ready.violations ticks low, last.cycle⟩

end

theorem Ready.run {start : Simulator} {client cycles : Nat} (ready : Ready client start)
    (low : start.input? "rst" = some (.bits 0)) (twice : 2 ≤ cycles) :
    ∃ result after, start.run cycles = (.ok result, after) ∧ result.cycles = cycles ∧
      result.violations = 0 ∧ Copied start after cycles := by
  have steps (count : Nat) : ∀ action ∈ List.replicate count Action.step, Ticks action := by
    intro action member
    rw [List.eq_of_mem_replicate member]
    exact .step
  have calm (count : Nat) : Low start (List.replicate count .step) := by
    intro earlier later equal
    rw [(List.append_eq_replicate_iff.1 equal.symm).2.1, start.input?_after_steps]
    exact low
  have completes : ∀ earlier < cycles,
      (start.after (List.replicate earlier .step)).Completes .step := by
    intro earlier _
    obtain ⟨words, word, -, source, phase⟩ := ready.exists_phase
    exact (phase_after source phase (steps earlier) (calm earlier)).completes
  obtain ⟨result, ran, counted, recorded⟩ := Simulator.exists_run completes
  have copied := ready.copied (steps cycles) (calm cycles)
  rw [List.countP_replicate, if_pos (show Action.step.isStep = true from rfl)] at copied
  have copied := copied twice
  refine ⟨result, _, ran, counted.trans copied.cycle, ?_, copied⟩
  rw [recorded, copied.violations]
  rfl

variable {preset : BackendPreset} {name version : String} {graph : Graph}
  {policy arbitration : ArbitrationPolicy} {design : CompiledDesign} {warnings : List Diagnostic}
  {start : Simulator}

theorem FreshShape.of_same {sim twin : Simulator} (freshShape : FreshShape sim)
    (net : twin.net = sim.net) (state : twin.state = sim.state) : FreshShape twin := by
  rw [freshShape_iff, net, state]
  exact (freshShape_iff sim).1 freshShape

theorem freshShape_of_withPolicy
    (generated : (generate (setting preset) "Top").outcome = .ok graph)
    (compiled : CompiledDesign.compile name version graph (generate (setting preset) "Top").names
      preset preset.capabilities policy = (.ok design, warnings))
    (made : Simulator.withPolicy design arbitration = .ok start) : FreshShape start := by
  obtain ⟨sim, held, net, state, -⟩ := simulator_of_withPolicy generated compiled made
  have freshShape := freshShape_of_simulator preset arbitration
  rw [held] at freshShape
  exact (of_decide_eq_true (Option.some.inj freshShape)).of_same net state

theorem FreshShape.not_isResult {sim : Simulator} (freshShape : FreshShape sim) (error : SimError) :
    ¬ sim.net.IsResult error := by
  rintro ⟨inst, id, builtin, index, known, -⟩
  have inside := Netlist.lt_size_of_has_part (.inl (Arena.lt_size_of_get? known))
  have other := freshShape.results inst (List.mem_range.2 inside) _ (Arena.mem_toList.2 ⟨id, known⟩)
  cases other

theorem closed_setting (preset : BackendPreset) : (setting preset).library.Closed := by
  change ∀ decl ∈ (library false).modules, decl.recipe.borrows = false
  decide

theorem ready_of_withPolicy
    (generated : (generate (setting preset) "Top").outcome = .ok graph)
    (compiled : CompiledDesign.compile name version graph (generate (setting preset) "Top").names
      preset preset.capabilities policy = (.ok design, warnings))
    (made : Simulator.withPolicy design arbitration = .ok start) :
    Ready (writerClient preset) start := by
  have contained : design.SelfContained :=
    .compile (closed_setting preset) (composed_setting preset) generated compiled
  have fresh := fresh_of_withPolicy generated compiled made
  have freshShape := freshShape_of_withPolicy generated compiled made
  have conforms : start.net.Conforms .shapes start.state :=
    Simulator.conforms_of_withPolicy contained made
      ⟨fun _ _ => trivial, fun _ _ _ => trivial, fun _ _ => trivial⟩
  have copySetup := fresh.copySetup conforms.routed
  obtain ⟨-, -, -, -, cycle, monitor⟩ := Simulator.withPolicy_starts made
  refine
    ⟨⟨copySetup, fresh.built, freshShape.source, conforms, Netlist.ranked_of_all freshShape.ranked,
      freshShape.not_isResult, fun ref site taken => ?_, freshShape.shapes,
        fun ref held known => ?_⟩,
    fresh.idle, monitor, cycle⟩
  · obtain ⟨held, memories, -⟩ := copySetup.exists_memory
    obtain ⟨memory, port, client⟩ := ref
    have first : memory = 0 := by
      obtain ⟨entry, present, -⟩ := Option.map_eq_some_iff.1 taken
      obtain ⟨other, there, -⟩ := Option.bind_eq_some_iff.1 present
      obtain ⟨bound, -⟩ := List.getElem?_eq_some_iff.1 there
      simpa [memories] using bound
    subst first
    rw [← Simulator.clients_wires] at taken
    refine freshShape.clients port ?_ site (List.mem_of_getElem? taken)
    cases port <;> decide
  · exact (Simulator.vacant_of_withPolicy contained.built.produced made known).1

/-- The design is generated and compiled, and there are simulators of it. -/
theorem exists_simulator (preset : BackendPreset) (name version : String)
    (policy arbitration : ArbitrationPolicy) :
    ∃ graph design warnings start,
      (generate (setting preset) "Top").outcome = .ok graph ∧
      CompiledDesign.compile name version graph (generate (setting preset) "Top").names preset
        preset.capabilities policy = (.ok design, warnings) ∧
      Simulator.withPolicy design arbitration = .ok start := by
  obtain ⟨sim, held, -⟩ := Option.map_eq_some_iff.1 (fresh_of_simulator preset arbitration)
  obtain ⟨graph, returned, rest⟩ := Option.bind_eq_some_iff.1 held
  obtain ⟨design, found, stands⟩ := Option.bind_eq_some_iff.1 rest
  have generated := eq_ok_of_toOption returned
  have compiled := eq_ok_of_toOption found
  obtain ⟨twin, compiled'⟩ := CompiledDesign.exists_compile
    (CompiledDesign.ready_of_generate generated) name version policy compiled
  obtain ⟨same, resolved⟩ := CompiledDesign.resolve_of_compile (Prod.ext compiled rfl)
  obtain ⟨same', resolved'⟩ := CompiledDesign.resolve_of_compile (Prod.ext compiled' rfl)
  obtain ⟨start, made, -⟩ := Simulator.exists_withPolicy (same'.trans same.symm)
    ((CompiledDesign.names_of_compile (Prod.ext compiled' rfl)).trans
      (CompiledDesign.names_of_compile (Prod.ext compiled rfl)).symm)
    (Except.ok.inj (resolved'.symm.trans resolved)) (eq_ok_of_toOption stands)
  exact ⟨graph, twin, _, start, generated, Prod.ext compiled' rfl, made⟩

/-- On every backend and under every policy the design can be simulated, and any words can be put
into its memory. Whatever is there before the first cycle, after two or more cycles out of reset in
which the host is silent one word is a copy of the other, all others are as they were, and no
handshake was violated; and every one of the cycles completes. -/
theorem writer_copies_one_word (preset : BackendPreset) (name version : String)
    (policy arbitration : ArbitrationPolicy) :
    ∃ entry graph design warnings start, findDesign? "esi_ram" = some entry ∧
      (generate ⟨entry.library, preset, preset.capabilities⟩ entry.top).outcome = .ok graph ∧
      CompiledDesign.compile name version graph
        (generate ⟨entry.library, preset, preset.capabilities⟩ entry.top).names preset
        preset.capabilities policy = (.ok design, warnings) ∧
      Simulator.withPolicy design arbitration = .ok start ∧
      (∀ contents : List UInt64, contents.length = 8 →
        (∀ action ∈ fill contents, Prepares action) ∧
        (start.after (fill contents)).memory "Top.mem" = .ok (contents.map .bits).toArray) ∧
      ∀ setup : List Action, (∀ action ∈ setup, Prepares action) →
        (∀ actions : List Action, (∀ action ∈ actions, Ticks action) →
          Low (start.after setup) actions → 2 ≤ actions.countP Action.isStep →
          Copied (start.after setup) ((start.after setup).after actions)
            (actions.countP Action.isStep)) ∧
        ∀ cycles, (start.after setup).input? "rst" = some (.bits 0) → 2 ≤ cycles →
          ∃ result after, (start.after setup).run cycles = (.ok result, after) ∧
            result.cycles = cycles ∧ result.violations = 0 ∧
            Copied (start.after setup) after cycles := by
  obtain ⟨graph, design, warnings, start, generated, compiled, made⟩ :=
    exists_simulator preset name version policy arbitration
  have fresh := ready_of_withPolicy generated compiled made
  refine ⟨_, graph, design, warnings, start, rfl, generated, compiled, made, ?_, ?_⟩
  · exact fun contents size => ⟨prepares_fill contents, fresh.memory_fill size⟩
  intro setup prepares
  have ready := fresh.after prepares
  exact ⟨fun actions ticks low twice => ready.copied ticks low twice,
    fun cycles low twice => ready.run low twice⟩

def contents : List UInt64 := [1, 2, 7, 4, 5, 6, 0, 8]

def clocked : List Action :=
  [.setInput "clk" (.bits 1), .step, .setInput "clk" (.bits 0), .step]

theorem seven_is_copied :
    ∃ design start, Simulator.withPolicy design .roundRobin = .ok start ∧
      contents.length = 8 ∧ (∀ action ∈ fill contents, Prepares action) ∧
      (∀ action ∈ clocked, Ticks action) ∧ Low (start.after (fill contents)) clocked ∧
      ((start.after (fill contents)).after clocked).memory "Top.mem" =
        .ok ([1, 2, 7, 7, 5, 6, 0, 8].map .bits).toArray ∧
      ∃ result after, (start.after (fill contents)).run 3 = (.ok result, after) ∧
        result.cycles = 3 ∧ result.violations = 0 ∧
        after.memory "Top.mem" = .ok ([1, 2, 7, 7, 5, 6, 0, 8].map .bits).toArray := by
  have ticks : ∀ action ∈ clocked, Ticks action := by
    simp only [clocked, List.forall_mem_cons]
    exact ⟨.input _ _, .step, .input _ _, .step, nofun⟩
  have facts : ((setting .cosim).simulation? "Top").map (fun made =>
      (List.range 5).all fun count =>
        ((made.2.after (fill contents)).after (clocked.take count)).input? "rst" =
          some (.bits 0)) = some true := by
    decide +kernel
  obtain ⟨⟨design, start⟩, simulation, retabled⟩ := Option.map_eq_some_iff.1 facts
  have low : Low (start.after (fill contents)) clocked := by
    intro earlier later equal
    have short : earlier.length < 5 := by
      have total := congrArg List.length equal
      rw [List.length_append, show clocked.length = 4 from rfl] at total
      omega
    have calm := List.all_eq_true.1 retabled earlier.length (List.mem_range.2 short)
    rw [equal, List.take_left] at calm
    exact of_decide_eq_true calm
  obtain ⟨graph, generated, compiled, made⟩ := Setting.stages_of_simulation simulation
  obtain ⟨entry, graph', design', warnings, start', listed, generated', compiled', made', fills,
    copies⟩ := writer_copies_one_word .cosim "design" "0.1.0" .roundRobin .roundRobin
  cases listed
  cases generated.symm.trans generated'
  cases compiled.symm.trans (congrArg Prod.fst compiled')
  cases made.symm.trans made'
  obtain ⟨prepares, held⟩ := fills contents rfl
  obtain ⟨copied, ran⟩ := copies (fill contents) prepares
  have known {after : Simulator} {cycles : Nat}
      (copied : Copied (start.after (fill contents)) after cycles) :
      after.memory "Top.mem" = .ok ([1, 2, 7, 7, 5, 6, 0, 8].map .bits).toArray := by
    obtain ⟨words, word, -, source, before, last⟩ := copied.words
    obtain rfl := Except.ok.inj (before.symm.trans held)
    have seven : word = .bits 7 := Option.some.inj (source.symm.trans rfl)
    rw [last, seven]
    rfl
  obtain ⟨result, after, runs, cycles, violations, copied'⟩ :=
    ran 3 low.input? (by decide)
  exact ⟨design, start, made, rfl, prepares, ticks, low,
    known (copied clocked ticks low (by decide)), result, after, runs, cycles, violations,
    known copied'⟩

end MemoryDesign

end Elastic
