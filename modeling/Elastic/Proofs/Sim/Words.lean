import Elastic.Proofs.Sim.Runs

namespace Elastic

/-! The words of memories are those that were written. Over a run they follow from the pokes and
from the write requests that were accepted, in order, and from nothing else. -/

namespace Simulator

/-- What an action writes to a memory: an accepted write request the word of its payload, a poke its
value, and anything else nothing. -/
inductive Stores (memory : Nat) (sim : Simulator) (action : Action) :
    List (Nat × SimValue) → Prop
  | write {client : Nat} {address : UInt64} {word : SimValue} (completes : sim.Completes action)
      (granted : (Signal.grant memory .write).Settles sim.net sim.state (some client))
      (accepts : sim.Accepts ⟨memory, .write, client⟩ (.struct [.bits address, word])) :
      Stores memory sim action [(address.toNat, word)]
  | idle (completes : sim.Completes action)
      (rests : ∀ client value, ¬ sim.Accepts ⟨memory, .write, client⟩ value) :
      Stores memory sim action []
  | poke {path : String} {address : UInt64} {value : SimValue} {next : Simulator}
      (called : action = .pokeMemory path address value) (found : sim.memoryIndex path = .ok memory)
      (succeeds : sim.pokeMemory path address value = .ok next) :
      Stores memory sim action [(address.toNat, value)]
  | aside (between : ¬ sim.Completes action)
      (refused : ∀ path address value next, action = .pokeMemory path address value →
        sim.memoryIndex path = .ok memory → sim.pokeMemory path address value ≠ .ok next) :
      Stores memory sim action []

variable {sim : Simulator} {effects : List Effect} {high : List Nat} {memory : Nat}

theorem Performs.accepts_of_written {sites : List RoleSite} {effect : Effect}
    (performs : sim.Performs sites effects) (routed : sim.net.Routed sim.state.clientSite?)
    (member : effect ∈ effects) (writes : effect.written memory ≠ []) :
    ∃ site ∈ sites, ∃ client stands value,
      sim.state.clientSite? ⟨memory, .write, client⟩ = some stands ∧
      sim.net.clientRole? stands .toService = some site ∧
      sim.net.Transfers sim.state site value := by
  obtain ⟨client, address, word, rfl⟩ : ∃ client address word,
      effect = .accept memory client (.write address word) := by
    unfold Effect.written at writes
    split at writes
    · rename_i other client address word
      by_cases same : other = memory
      · exact ⟨client, address, word, by rw [same]⟩
      · exact absurd (if_neg same) writes
    · exact absurd rfl writes
  obtain ⟨site, inside, stands, value, taken, role, moves⟩ :=
    performs.transfer_of_accept routed member
  exact ⟨site, inside, client, stands, value, taken, role, moves⟩

theorem Performs.spares_words {sites : List RoleSite} (performs : sim.Performs sites effects)
    (routed : sim.net.Routed sim.state.clientSite?)
    (rests : ∀ site ∈ sites, ∀ client stands value,
      sim.state.clientSite? ⟨memory, .write, client⟩ = some stands →
      sim.net.clientRole? stands .toService = some site →
      ¬ sim.net.Transfers sim.state site value) :
    effects.flatMap (Effect.written memory) = [] := by
  rw [List.flatMap_eq_nil_iff]
  intro effect member
  by_contra writes
  obtain ⟨site, inside, client, stands, value, taken, role, moves⟩ :=
    performs.accepts_of_written routed member writes
  exact rests site inside client stands value taken role moves

theorem Cycle.written_of_idle (cycle : sim.Cycle effects high)
    (routed : sim.net.Routed sim.state.clientSite?)
    (rests : ∀ client value, ¬ sim.Accepts ⟨memory, .write, client⟩ value) :
    effects.flatMap (Effect.written memory) = [] :=
  cycle.performs.spares_words routed fun site _ client stands value taken role moves =>
    rests client value ⟨stands, site, taken, role, moves⟩

/-- A cycle that accepts a write request at a memory writes its word there and nothing else. -/
theorem Cycle.written_of_accepts (cycle : sim.Cycle effects high)
    (routed : sim.net.Routed sim.state.clientSite?) {client : Nat} {value : SimValue}
    (accepts : sim.Accepts ⟨memory, .write, client⟩ value) :
    ∃ address word, value = .struct [.bits address, word] ∧
      effects.flatMap (Effect.written memory) = [(address.toNat, word)] := by
  have single {other : ClientRef} {value' : SimValue} (accepts' : sim.Accepts other value') :=
    accepts.single routed accepts'
  obtain ⟨stands, request, taken, asks, moves⟩ := accepts
  obtain ⟨request', response, connects⟩ := routed.connects taken
  cases asks.symm.trans connects.requests
  obtain ⟨earlier, later, equal⟩ := List.append_of_mem connects.served.1
  have apart := Netlist.not_mem_of_servedRoles equal
  have rests {sites : List RoleSite} (absent : request ∉ sites) : ∀ site ∈ sites,
      ∀ client' stands' value', sim.state.clientSite? ⟨memory, .write, client'⟩ = some stands' →
      sim.net.clientRole? stands' .toService = some site →
      ¬ sim.net.Transfers sim.state site value' := by
    intro site inside client' stands' value' taken' role moves'
    have accepts' : sim.Accepts ⟨memory, .write, client'⟩ value' :=
      ⟨stands', site, taken', role, moves'⟩
    have same := single accepts' rfl rfl
    cases same
    cases taken.symm.trans taken'
    cases asks.symm.trans role
    exact absent inside
  have whole := cycle.performs
  rw [equal] at whole
  obtain ⟨before, first, second, after, rfl, performs, source, sink, others⟩ := whole.around moves
  obtain ⟨held, served, present, serves, rfl⟩ := sinkEffects_request routed taken connects sink
  obtain ⟨_, port, -⟩ | ⟨address, word, -, rfl, -, rfl⟩ := Memory.request_cases serves
  · cases port
  · refine ⟨address, word, rfl, ?_⟩
    simp only [List.flatMap_append, performs.spares_words routed (rests apart.1),
      others.spares_words routed (rests apart.2), written_sourceEffects source, List.flatMap_cons,
      List.flatMap_nil, Effect.written, if_true, List.nil_append, List.append_nil]

theorem words?_of_poke {held poked : Memory} {index : Nat} {address : UInt64} {value : SimValue}
    (known : sim.state.memories[index]? = some held) (pokes : held.poke address value = .ok poked) :
    (sim.state.modifyMemory index fun _ => poked).words? memory =
      if index = memory then
        (sim.state.words? memory).map (SimState.store · [(address.toNat, value)])
      else sim.state.words? memory := by
  unfold SimState.words?
  rw [SimState.memory?_modifyMemory]
  split
  · rename_i same
    rw [← same, known, Option.map_some, Option.map_some, (ports_of_poke pokes).2]
    rfl
  · rfl

theorem exists_stores (memory : Nat) (routed : sim.net.Routed sim.state.clientSite?)
    (action : Action) : ∃ writes, Stores memory sim action writes := by
  by_cases completes : sim.Completes action
  · obtain ⟨effects, high, cycle, -⟩ := (sim.turns action).of_completes completes
    by_cases asked : ∃ client value, sim.Accepts ⟨memory, .write, client⟩ value
    · obtain ⟨client, value, accepts⟩ := asked
      obtain ⟨address, word, rfl, -⟩ := cycle.written_of_accepts routed accepts
      exact ⟨_, .write completes (accepts.granted routed).1 accepts⟩
    · refine ⟨[], .idle completes fun client value accepts => ?_⟩
      exact asked ⟨client, value, accepts⟩
  · by_cases poked : ∃ path address value next, action = .pokeMemory path address value ∧
        sim.memoryIndex path = .ok memory ∧ sim.pokeMemory path address value = .ok next
    · obtain ⟨path, address, value, next, called, found, succeeds⟩ := poked
      exact ⟨_, .poke called found succeeds⟩
    · refine ⟨[], .aside completes fun path address value next called found succeeds => ?_⟩
      exact poked ⟨path, address, value, next, called, found, succeeds⟩

theorem words?_of_stores (routed : sim.net.Routed sim.state.clientSite?) {action : Action}
    {writes : List (Nat × SimValue)} (stores : Stores memory sim action writes) :
    (sim.act action).state.words? memory =
      (sim.state.words? memory).map (SimState.store · writes) := by
  have turns := sim.turns action
  cases stores with
  | write completes granted accepts =>
      obtain ⟨effects, high, cycle, state⟩ := turns.of_completes completes
      obtain ⟨_, _, equal, written⟩ := cycle.written_of_accepts routed accepts
      cases equal
      rw [state, words?_nextState, Effect.words?_applyAll, written]
  | idle completes rests =>
      obtain ⟨effects, high, cycle, state⟩ := turns.of_completes completes
      rw [state, words?_nextState, Effect.words?_applyAll, cycle.written_of_idle routed rests]
  | poke called found succeeds =>
      subst called
      cases turns with
      | cycle completes cycle net state => cases completes.1
      | poke called found' known pokes succeeds' net state =>
          cases called
          cases found.symm.trans found'
          rw [state, words?_of_poke known pokes, if_pos rfl]
      | aside between refused net memories =>
          obtain ⟨error, failed⟩ := refused _ _ _ rfl
          cases failed.symm.trans succeeds
  | aside between refused =>
      cases turns with
      | cycle completes cycle net state => exact absurd completes between
      | poke called found known pokes succeeds net state =>
          rw [state, words?_of_poke known pokes]
          split
          · rename_i same
            subst same
            exact absurd succeeds (refused _ _ _ _ called found)
          · exact Option.map_id'.symm
      | aside between refused net memories =>
          unfold SimState.words?
          rw [memories]
          exact Option.map_id'.symm

theorem exists_stores_log (routed : sim.net.Routed sim.state.clientSite?) (actions : List Action) :
    ∃ writes, Log (Stores memory) sim actions writes :=
  exists_log_of_kept (fun sim action => (sim.turns action).routed)
    (fun _ action routed => exists_stores memory routed action) routed actions

theorem words?_of_log (routed : sim.net.Routed sim.state.clientSite?) {actions : List Action}
    {writes : List (Nat × SimValue)} (log : Log (Stores memory) sim actions writes) :
    (sim.after actions).state.words? memory =
      (sim.state.words? memory).map (SimState.store · writes) := by
  induction log with
  | nil sim => exact Option.map_id'.symm
  | @cons sim action actions writes others first rest induction =>
      rw [show (sim.after (action :: actions)) = (sim.act action).after actions from rfl,
        induction ((sim.turns action).routed routed), words?_of_stores routed first,
        Option.map_map]
      simp only [SimState.store_append]
      rfl

/-- The words of a memory after any run of a simulator of a built design are all-zero words with
the pokes and the accepted writes of the run in their order. -/
theorem words_follow_writes {design : CompiledDesign} {policy : ArbitrationPolicy}
    {start : Simulator} (built : design.Built) (made : withPolicy design policy = .ok start)
    (actions : List Action) :
    ∀ memory held, start.state.memories[memory]? = some held →
      ∃ builtin shape, design.services.builtins[memory]? = some builtin ∧
        (design.graph.serviceAt? builtin.service).bind (·.memory) = some shape ∧
        (∃ writes, Log (Stores memory) start actions writes) ∧
        ∀ writes, Log (Stores memory) start actions writes →
          (start.after actions).state.words? memory =
            some (SimState.store (Array.replicate shape.depth.toNat (.zero shape.word))
              writes) := by
  have routed := routed_of_withPolicy built made
  intro memory held present
  obtain ⟨-, entries, memoriesOf, -⟩ := withPolicy_ok made
  obtain ⟨builtin, shape, stands, shaped, zero⟩ := memoriesOf.shape memory held present
  refine ⟨builtin, shape, stands, shaped, exists_stores_log routed actions, fun writes log => ?_⟩
  have words : start.state.words? memory =
      some (Array.replicate shape.depth.toNat (.zero shape.word)) := by
    rw [SimState.words?_of_memory present, zero]
  rw [words?_of_log routed log, words, Option.map_some]

/-- A poke of the word that the writer copies, the cycle of its read and that of its write. -/
theorem memory_writer_words :
    let actions : List Action := [.pokeMemory "Top.mem" 2 (.bits 7), .step, .step]
    ∃ design start, CompiledDesign.Built design ∧ withPolicy design .roundRobin = .ok start ∧
      Log (Stores 0) start actions [(2, .bits 7), (3, .bits 7)] ∧
      (start.after actions).state.words? 0 =
        some (SimState.store (Array.replicate 8 (.bits 0)) [(2, .bits 7), (3, .bits 7)]) := by
  intro actions
  have present : (MemoryDesign.simulation?.bind fun made => made.2.state.memories[0]?).isSome := by
    decide +kernel
  have shaped : (MemoryDesign.simulation?.bind fun made =>
      (made.1.services.builtins[0]?).bind fun builtin =>
        (made.1.graph.serviceAt? builtin.service).bind (·.memory)) = some ⟨.bits 64, 8⟩ := by
    decide +kernel
  have pokes : (MemoryDesign.simulation?.map fun made =>
      ((made.2.memoryIndex "Top.mem").toOption,
        (made.2.pokeMemory "Top.mem" 2 (.bits 7)).toOption.isSome)) = some (some 0, true) := by
    decide +kernel
  have reads : (MemoryDesign.simulation?.map fun made =>
      let read := made.2.after [.pokeMemory "Top.mem" 2 (.bits 7)]
      (read.step.1.toOption.isSome,
        ((read.settle (Query.grant 0 .write)).run' []).toOption)) = some (true, some none) := by
    decide +kernel
  have writes : (MemoryDesign.simulation?.map fun made =>
      let written := made.2.after [.pokeMemory "Top.mem" 2 (.bits 7), .step]
      (written.step.1.toOption.isSome,
        ((written.settle (Query.grant 0 .write)).run' []).toOption)) =
      some (true, some (some 1)) := by
    decide +kernel
  have moves : (MemoryDesign.simulation?.map fun made =>
      let written := made.2.after [.pokeMemory "Top.mem" 2 (.bits 7), .step]
      (written.state.clientSite? ⟨0, .write, 1⟩, written.net.clientRole? (2, 1) .toService,
        ((written.transfer? ⟨2, 1, 0⟩).run' []).toOption)) =
      some (some (2, 1), some ⟨2, 1, 0⟩, some (some (.struct [.bits 3, .bits 7]))) := by
    decide +kernel
  obtain ⟨held, found⟩ := Option.isSome_iff_exists.1 present
  obtain ⟨⟨design, start⟩, simulation, known⟩ := Option.bind_eq_some_iff.1 found
  rw [simulation, Option.map_some] at pokes reads writes moves
  rw [simulation, Option.bind_some] at shaped
  simp only [Option.some.injEq, Prod.mk.injEq] at pokes reads writes moves
  obtain ⟨built, made⟩ := MemoryDesign.built_of_simulation simulation
  have routed (actions : List Action) := routed_after (routed_of_withPolicy built made) actions
  have poke : Stores 0 start (.pokeMemory "Top.mem" 2 (.bits 7))
      [((2 : UInt64).toNat, .bits 7)] := by
    obtain ⟨poked, succeeds⟩ := Option.isSome_iff_exists.1 pokes.2
    exact .poke rfl (eq_ok_of_toOption pokes.1) (eq_ok_of_toOption succeeds)
  have read : Stores 0 (start.after [.pokeMemory "Top.mem" 2 (.bits 7)]) .step [] := by
    refine .idle (completes_of_isSome reads.1) fun client value accepts => ?_
    cases (accepts.granted (routed _)).1.unique (Query.yields_demand.1 (yields_of_settle reads.2))
  have write : Stores 0 (start.after [.pokeMemory "Top.mem" 2 (.bits 7), .step]) .step
      [((3 : UInt64).toNat, .bits 7)] := by
    refine .write (completes_of_isSome writes.1)
      (Query.yields_demand.1 (yields_of_settle writes.2)) ?_
    obtain ⟨taken, role, moves⟩ := moves
    obtain ⟨impossible, -⟩ | ⟨value, same, moves⟩ := (gives_transfer? _).of_run moves
    · cases impossible
    · cases same
      exact ⟨_, _, taken, role, moves⟩
  have log : Log (Stores 0) start actions [(2, .bits 7), (3, .bits 7)] :=
    .cons poke (.cons read (.cons write (.nil _)))
  obtain ⟨builtin, shape, stands, shape', -, words⟩ :=
    words_follow_writes built made actions 0 held known
  rw [stands, Option.bind_some, shape'] at shaped
  cases shaped
  exact ⟨design, start, built, made, log, words _ log⟩

end Simulator

end Elastic
