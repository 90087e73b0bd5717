import Elastic.Proofs.Sim.Preservation
import Elastic.Proofs.Sim.Transfers

namespace Elastic

/-! No call fails for a reason of the simulator's own. A cycle may fail at a signal that depends on
itself, at a request beyond a memory and at the result of a builtin, and at nothing else. -/

namespace Simulator

variable {sim : Simulator}

inductive Stalls (sim : Simulator) : SimError → Prop
  | loop (signal : Signal) : Stalls sim (signal.loopError sim.net sim.state)
  | beyond {memory : Memory} {address : UInt64} (held : memory ∈ sim.state.memories)
      (outside : memory.depth ≤ address.toNat) :
      Stalls sim (.addressOutOfRange memory.path address memory.depth)
  | result {error : SimError} (fault : sim.net.IsResult error) : Stalls sim error

theorem Stalls.not_internal {error : SimError} (stalls : sim.Stalls error) :
    ¬ error.IsInternal := by
  cases stalls with
  | loop signal => cases signal <;> exact id
  | beyond held outside => exact id
  | result fault =>
      obtain ⟨_, _, _, _, -, rfl⟩ := fault
      exact id

/-- What parts of a step fail with is of a sort: queries that rely on the contract of the signals,
and transfers to services. -/
structure Sorts (meaning : Denotation) (sim : Simulator) (sort : SimError → Prop) : Prop where
  query : ∀ {α : Type} {query : Query α} {fact : α → Prop},
    query.Meets (sim.net.contract meaning sim.state) fact → sim.Fails (sim.settle query) sort
  sink : ∀ site value error, site ∈ sim.net.servedRoles → sim.net.Transfers sim.state site value →
    sim.sinkEffects site value = .error error → sort error

section

variable {meaning : Denotation} (conforms : sim.net.Conforms meaning sim.state)
include conforms

theorem sourceEffects_ok {site : RoleSite} {slot : RoleSlot}
    (here : sim.net.slot? site = some slot) : ∃ effects, sim.sourceEffects site = .ok effects := by
  have attached := conforms.complete.source here
  unfold sourceEffects
  generalize sim.net.source site = source at attached
  cases attached with
  | channel known payload => exact ⟨[], rfl⟩
  | nothing => exact ⟨[], rfl⟩
  | service leads present known stands suits =>
      dsimp only
      rw [leads]
      exact ⟨_, rfl⟩

theorem sorts_stalls : sim.Sorts meaning sim.Stalls where
  query meets := fails_settle (Query.kept_contract conforms) meets (fun signal => .loop signal)
    fun _ fault => .result fault
  sink site value error member moves failed := by
    obtain ⟨slot, here⟩ := slot_of_mem_servedRoles member
    obtain ⟨effects, given, -⟩ | ⟨memory, held, address, outside, refused⟩ :=
      sinkEffects_cases conforms here (fits_of_transfers conforms here moves)
    · cases given.symm.trans failed
    · cases refused.symm.trans failed
      exact .beyond held outside.1

variable {sort : SimError → Prop} (sorts : sim.Sorts meaning sort)
include sorts

theorem fails_transfer? {site : RoleSite} {slot : RoleSlot}
    (here : sim.net.slot? site = some slot) : sim.Fails (sim.transfer? site) sort := by
  unfold transfer?
  refine (sorts.query (Query.meets_roleValid conforms here)).bind (gives_settle _)
    fun valid _ => ?_
  cases valid with
  | false => exact fails_pure _
  | true =>
      refine (sorts.query (Query.meets_roleReady conforms here)).bind (gives_settle _)
        fun ready _ => ?_
      cases ready with
      | false => exact fails_pure _
      | true =>
          exact (sorts.query (Query.meets_roleData conforms here)).bind (gives_settle _)
            fun value _ => fails_pure _

theorem fails_transfers (sites : List RoleSite)
    (inside : ∀ site ∈ sites, site ∈ sim.net.servedRoles) :
    sim.Fails (sim.transfers sites) sort := by
  induction sites with
  | nil => exact fails_pure _
  | cons site rest induction =>
      have member := inside site List.mem_cons_self
      have others := induction fun site member => inside site (List.mem_cons_of_mem _ member)
      obtain ⟨slot, here⟩ := slot_of_mem_servedRoles member
      unfold transfers
      refine (fails_transfer? conforms sorts here).bind (gives_transfer? site)
        fun result cases => ?_
      obtain ⟨rfl, -⟩ | ⟨value, rfl, moves⟩ := cases
      · exact others
      · obtain ⟨first, source⟩ := sourceEffects_ok conforms here
        refine (fails_lift fun error failed => ?_).bind (gives_lift _) fun first _ => ?_
        · cases source.symm.trans failed
        refine (fails_lift fun error failed => ?_).bind (gives_lift _) fun second _ => ?_
        · exact sorts.sink site value error member moves failed
        exact others.bind (gives_transfers rest) fun _ _ => fails_pure _

theorem fails_resets (memories : List Nat)
    (inside : ∀ memory ∈ memories, memory < sim.state.memories.length) :
    sim.Fails (sim.resets memories) sort := by
  induction memories with
  | nil => exact fails_pure _
  | cons memory rest induction =>
      have others := induction fun memory member => inside memory (List.mem_cons_of_mem _ member)
      have present := List.getElem?_eq_getElem (inside memory List.mem_cons_self)
      unfold resets
      refine (sorts.query (Query.meets_inReset conforms present)).bind (gives_settle _)
        fun high _ => ?_
      exact others.bind (gives_resets rest) fun _ _ => fails_pure _

theorem fails_outcome : sim.Fails sim.outcome sort := by
  unfold outcome
  refine (fails_transfers conforms sorts _ fun _ => id).bind (gives_transfers _) fun result _ => ?_
  refine (fails_resets conforms sorts _ fun memory => List.mem_range.1).bind (gives_resets _) ?_
  exact fun _ _ => fails_pure _

omit conforms in
theorem fails_observation {inst : InstanceId} {channel : ChannelId}
    (member : (inst, channel) ∈ sim.net.channelSites) :
    sim.Fails (sim.observation inst channel) sort := by
  obtain ⟨held, known⟩ := Arena.exists_get?_of_lt_size (Netlist.mem_channelSites.1 member).2
  unfold observation
  refine (sorts.query (Query.meets_valid known)).bind (gives_settle _) fun valid _ => ?_
  refine (sorts.query (Query.meets_ready known)).bind (gives_settle _) fun ready _ => ?_
  have payload : sim.Fails (some <$> sim.settle (Query.data inst channel)) sort :=
    (sorts.query (Query.meets_data known)).bind (gives_settle _) fun _ _ => fails_pure _
  cases valid with
  | false => exact fails_pure _
  | true =>
      have carries : sim.Gives (some <$> sim.settle (Query.data inst channel)) fun _ => True :=
        (gives_settle _).bind fun _ _ => gives_pure trivial
      exact payload.bind carries fun _ _ => fails_pure _

omit conforms in
theorem fails_observeAll {sites : List (InstanceId × ChannelId)} {memo : Memo}
    {monitor last : Monitor} {error : SimError}
    (reached : Settling.Reached sim.net sim.state memo)
    (inside : ∀ site ∈ sites, site ∈ sim.net.channelSites)
    (observed : sim.observeAll sites memo monitor = (.error error, last)) : sort error := by
  induction sites generalizing memo monitor with
  | nil => cases observed
  | cons site rest induction =>
      unfold observeAll at observed
      split at observed
      · rename_i error' failed
        cases observed
        exact fails_observation sorts (inside _ List.mem_cons_self) memo error reached failed
      · rename_i seen next answered
        refine induction (gives_observation _ _ _ _ _ reached answered).2 ?_ observed
        exact fun site member => inside site (List.mem_cons_of_mem _ member)

theorem fails_step {error : SimError} {next : Simulator}
    (failed : sim.step = (.error error, next)) : sort error := by
  unfold step at failed
  split at failed
  · rename_i error' monitor observed
    cases failed
    exact fails_observeAll sorts .fresh (fun _ => id) observed
  · rename_i memo monitor observed
    split at failed
    · rename_i error' stopped
      cases failed
      obtain ⟨seen, watches, all⟩ := watches_of_observeAll .fresh observed
      exact fails_outcome conforms sorts memo error (all memo rfl).1 stopped
    · cases failed

end

/-- All that a simulator looks up by number is there. -/
structure Intact (sim : Simulator) : Prop where
  instances : ∀ inst, inst < sim.net.graph.instances.size → (sim.net.graph.module? inst).isSome
  types : ∀ site slot, sim.net.slot? site = some slot → slot.payload < sim.net.graph.types.size
  producers : ∀ inst channel held bundle role,
    (sim.net.graph.moduleOf inst).channels.get? channel = some held →
    held.producer = .bundle bundle role → (sim.net.slot? ⟨inst, bundle, role⟩).isSome
  consumers : ∀ inst channel held bundle role,
    (sim.net.graph.moduleOf inst).channels.get? channel = some held →
    held.consumer = .bundle bundle role → (sim.net.slot? ⟨inst, bundle, role⟩).isSome
  memories : ∀ inst id (ref : ClientRef), sim.net.endpoint inst id = .ok ref.endpoint →
    (sim.state.client? ref).isSome
  hosts : ∀ (site : RoleSite) slot id host, sim.net.slot? site = some slot →
    sim.net.source site = .service id ∨ sim.net.sink site = .service id →
    sim.net.endpoint site.inst id = .ok (.host host) →
    (sim.state.hostRole? host site.role).isSome
  inputs : sim.inputNames.length = (sim.net.graph.moduleOf sim.net.graph.root).ports.length ∧
    sim.state.inputs.length = (sim.net.graph.moduleOf sim.net.graph.root).ports.length
  ports : ∀ port ∈ (sim.net.graph.moduleOf sim.net.graph.root).ports,
    port.ty < sim.net.graph.types.size

/-- Calls fail for no reason of the simulator's own. -/
structure FaultFree (sim : Simulator) : Prop where
  intact : sim.Intact
  step : ∀ error next, sim.step = (.error error, next) → sim.Stalls error
  setInput : ∀ name value error, sim.setInput name value = .error error → ¬ error.IsInternal
  hostSend : ∀ path role value error, sim.hostSend path role value = .error error →
    ¬ error.IsInternal
  hostReceive : ∀ path role error, sim.hostReceive path role = .error error → ¬ error.IsInternal
  hostPending : ∀ path role error, sim.hostPending path role = .error error → ¬ error.IsInternal
  memory : ∀ path error, sim.memory path = .error error → ¬ error.IsInternal
  pokeMemory : ∀ path address value error, sim.pokeMemory path address value = .error error →
    ¬ error.IsInternal

section

variable {meaning : Denotation} (conforms : sim.net.Conforms meaning sim.state)
include conforms

theorem payload_lt_size {site : RoleSite} {slot : RoleSlot}
    (here : sim.net.slot? site = some slot) : slot.payload < sim.net.graph.types.size := by
  obtain ⟨bundle, present, known⟩ := Netlist.slot?_eq_some.1 here
  obtain ⟨limit, wired⟩ := conforms.complete.wired site.inst (Netlist.inst_lt_of_bundle? present)
  obtain ⟨ty, -, slots⟩ := wired.placed.bundles _ bundle present
  obtain ⟨role, -, -, found⟩ := slots.role site.role slot known
  exact TyPool.lt_size_of_find? found

omit conforms in
theorem hostRole?_of_attached {site : RoleSite} {slot : RoleSlot} {side : ServiceSide}
    {stands : RoleEnd} {id : ServiceInstanceId} {host : Nat}
    (attached : sim.net.Attached sim.state.frame site slot side stands)
    (service : stands = .service id) (leads : sim.net.endpoint site.inst id = .ok (.host host)) :
    (sim.state.hostRole? host site.role).isSome := by
  cases attached with
  | channel known payload => cases service
  | nothing => cases service
  | service leads' present known stands suits =>
      cases service
      cases leads.symm.trans leads'
      cases suits with
      | host held =>
          obtain ⟨role, found, -⟩ := Query.exists_hostRole held known
          rw [found]
          rfl

theorem intact_of_conforms
    (names : sim.inputNames.length =
      (sim.net.graph.moduleOf sim.net.graph.root).ports.length) : sim.Intact where
  instances := conforms.complete.modules
  types _ _ here := payload_lt_size conforms here
  producers inst channel held bundle role known starts := by
    obtain ⟨slot, here, -⟩ := conforms.complete.produced known starts
    exact Option.isSome_of_eq_some here
  consumers inst channel held bundle role known ends := by
    obtain ⟨slot, here⟩ := conforms.complete.consumed known ends
    exact Option.isSome_of_eq_some here
  memories inst id ref leads := by
    have taken := (conforms.routed.endpoint inst id ref).1 leads
    obtain ⟨client, found, -⟩ := Option.map_eq_some_iff.1 taken
    exact Option.isSome_of_eq_some found
  hosts site slot id host here ends leads := by
    rcases ends with source | sink
    · exact hostRole?_of_attached (conforms.complete.source here) source leads
    · exact hostRole?_of_attached (conforms.complete.sink here) sink leads
  inputs := ⟨names, conforms.typed.inputs.length_eq⟩
  ports port member := by
    have bound : sim.net.graph.root < sim.net.graph.instances.size := by
      refine Nat.lt_of_not_le fun beyond => ?_
      rw [Graph.moduleOf_of_size_le beyond] at member
      cases member
    obtain ⟨limit, wired⟩ := conforms.complete.wired _ bound
    exact wired.placed.ports port member

theorem faultFree_of_conforms (intact : sim.Intact) : sim.FaultFree where
  intact := intact
  step _ _ failed := fails_step conforms (sorts_stalls conforms) failed
  setInput name value _ failed := (sim.answers_setInput name value).not_internal failed
  hostSend path role value _ failed := (sim.answers_hostSend path role value).not_internal failed
  hostReceive path role _ failed := (sim.answers_hostReceive path role).not_internal failed
  hostPending path role _ failed := (sim.answers_hostPending path role).not_internal failed
  memory path _ failed := (sim.answers_memory path).not_internal failed
  pokeMemory path address value _ failed :=
    (sim.answers_pokeMemory path address value).not_internal failed

end

end Simulator

def Action.isStep : Action → Bool
  | .step => true
  | _ => false

namespace Simulator

theorem Acts.cycle_le {sim next : Simulator} {action : Action} (acts : sim.Acts action next) :
    next.cycle ≤ sim.cycle + if action.isStep then 1 else 0 := by
  cases acts with
  | cycle completed cycle watches all => exact Nat.le_refl _
  | stall failed watches | setInput fits | hostSend found sends fits succeeds
  | hostReceive found receives succeeds | pokeMemory found present pokes succeeds
  | refused refuses => exact Nat.le_add_right _ _

theorem cycle_after_le (start : Simulator) (actions : List Action) :
    (start.after actions).cycle ≤ start.cycle + actions.countP Action.isStep := by
  induction actions generalizing start with
  | nil => exact Nat.le_refl _
  | cons action rest induction =>
      refine Nat.le_trans (induction (start.act action)) ?_
      have first := (start.acts action).cycle_le
      rw [List.countP_cons]
      omega

/-- Whatever is called, on a simulator of a design whose modules use their own values only, no call
finds a part of the design missing or a value of another shape than its type, and a cycle fails only
at a signal that depends on itself, at a request beyond a memory, or at the result of a builtin.
Cycles are counted at most as often as they are asked for. -/
theorem calls_never_fail_internally {design : CompiledDesign} {policy : ArbitrationPolicy}
    {start : Simulator} (contained : design.SelfContained)
    (made : withPolicy design policy = .ok start) (actions : List Action) :
    (start.after actions).FaultFree ∧
      (start.after actions).cycle ≤ actions.countP Action.isStep := by
  have plain : start.net.Plain .shapes start.state.frame :=
    ⟨fun _ _ => trivial, fun _ _ _ => trivial, fun _ _ => trivial⟩
  obtain ⟨graph, -⟩ := withPolicy_ok made
  obtain ⟨-, -, -, names, fresh, -⟩ := withPolicy_starts made
  obtain ⟨keeps, conforms⟩ := keeps_after (conforms_of_withPolicy contained made plain) actions
  constructor
  · refine faultFree_of_conforms conforms (intact_of_conforms conforms ?_)
    rw [keeps.names, keeps.net, graph, names]
  · have counted := start.cycle_after_le actions
    rwa [fresh, Nat.zero_add] at counted

end Simulator

theorem Setting.selfContained_of_simulation {setting : Setting} {top : String}
    {design : CompiledDesign} {sim : Simulator} (closed : setting.library.Closed)
    (composed : ∀ service ∈ setting.library.services, service.Composed)
    (held : setting.simulation? top = some (design, sim)) :
    design.SelfContained ∧ Simulator.withPolicy design .roundRobin = .ok sim := by
  obtain ⟨graph, generated, compiled, made⟩ := stages_of_simulation held
  exact ⟨.compile closed composed generated (Prod.ext compiled rfl), made⟩

namespace MemoryDesign

/-- A read by the host with the memory in reset for a cycle meanwhile. -/
def interruptedRead : List Action := [
  .hostSend "Top.read" "address" (.bits 2), .step, .setInput "rst" (.bits 1), .step,
  .pokeMemory "Top.mem" 2 (.bits 7), .setInput "rst" (.bits 0)]

theorem calls_never_fail_after_interruptedRead :
    ∃ design start, CompiledDesign.SelfContained design ∧
      Simulator.withPolicy design .roundRobin = .ok start ∧
      (start.after interruptedRead).FaultFree ∧ (start.after interruptedRead).cycle ≤ 2 ∧
      (start.after interruptedRead).step.1.toOption = some 1 := by
  have closed : hosted.library.Closed := by
    unfold Library.Closed
    decide
  have steps : ((hosted.simulation? "Top").bind fun made =>
      (made.2.after interruptedRead).step.1.toOption) = some 1 := by
    decide +kernel
  obtain ⟨⟨design, start⟩, simulation, stepped⟩ := Option.bind_eq_some_iff.1 steps
  obtain ⟨contained, made⟩ := Setting.selfContained_of_simulation closed composed_hosted simulation
  obtain ⟨faultFree, counted⟩ := Simulator.calls_never_fail_internally contained made
    interruptedRead
  exact ⟨design, start, contained, made, faultFree, counted, stepped⟩

end MemoryDesign

end Elastic
