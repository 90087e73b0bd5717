import Elastic.Proofs.Sim.Reordering
import Elastic.Proofs.Sim.Stability

namespace Elastic

/-! The transfers of a cycle take effect one after the other. In every cycle of a simulator they are
about different things, so their order matters only where a memory takes a read and a write of one
place. -/

namespace Simulator

/-- An effect that a transfer on a role has in a cycle, on the service that drives the role or on
the one that takes from it. -/
inductive Causes (sim : Simulator) (site : RoleSite) (effect : Effect) : Bool → Prop
  | source {value : SimValue} {effects : List Effect}
      (moves : sim.net.Transfers sim.state site value)
      (source : sim.sourceEffects site = .ok effects) (member : effect ∈ effects) :
      Causes sim site effect true
  | sink {value : SimValue} {effects : List Effect}
      (moves : sim.net.Transfers sim.state site value)
      (sink : sim.sinkEffects site value = .ok effects) (member : effect ∈ effects) :
      Causes sim site effect false

variable {sim : Simulator} {site : RoleSite} {sites : List RoleSite} {effect : Effect}
  {effects : List Effect} {high : List Nat} {sends : Bool}

theorem Performs.causes (performs : sim.Performs sites effects) (member : effect ∈ effects) :
    ∃ site ∈ sites, ∃ sends, sim.Causes site effect sends := by
  obtain ⟨site, inside, value, first, second, moves, source, sink, own⟩ := performs.origin member
  cases own with
  | inl own => exact ⟨site, inside, true, .source moves source own⟩
  | inr own => exact ⟨site, inside, false, .sink moves sink own⟩

theorem length_sourceEffects (source : sim.sourceEffects site = .ok effects) :
    effects.length ≤ 1 := by
  unfold sourceEffects at source
  split at source
  · obtain ⟨endpoint, -, rfl⟩ := exists_of_map_ok source
    exact Nat.le_refl 1
  · cases source
    exact Nat.zero_le 1

theorem length_sinkEffects {value : SimValue} (sink : sim.sinkEffects site value = .ok effects) :
    effects.length ≤ 1 := by
  match effects, sink with
  | [], _ => exact Nat.zero_le 1
  | first :: rest, sink =>
      obtain ⟨_, _, -, -, single, -⟩ := mem_sinkEffects sink List.mem_cons_self
      rw [single]
      exact Nat.le_refl 1

theorem Performs.short {kind : Effect → Bool} (performs : sim.Performs sites effects)
    (distinct : sites.Nodup)
    (sole : ∀ {site site' effect effect' sends sends'}, sim.Causes site effect sends →
      sim.Causes site' effect' sends' → kind effect = true → kind effect' = true →
      site = site' ∧ sends = sends') : (effects.filter kind).length ≤ 1 := by
  induction performs with
  | nil => exact Nat.zero_le 1
  | rest rests others induction => exact induction (List.nodup_cons.1 distinct).2
  | @transfer site sites value first second effects moves source sink others induction =>
      obtain ⟨fresh, distinct⟩ := List.nodup_cons.1 distinct
      rw [List.filter_append, List.filter_append]
      have none {others : List Effect} (spares : ∀ effect ∈ others, ¬ kind effect = true) :
          others.filter kind = [] := List.filter_eq_nil_iff.2 spares
      have later {effect : Effect} {sends : Bool} (causes : sim.Causes site effect sends)
          (own : kind effect = true) : effects.filter kind = [] := by
        refine none fun other member kindred => ?_
        obtain ⟨site', inside, sends', causes'⟩ := others.causes member
        exact fresh ((sole causes causes' own kindred).1 ▸ inside)
      by_cases one : ∃ effect ∈ first, kind effect = true
      · obtain ⟨effect, member, own⟩ := one
        have causes : sim.Causes site effect true := .source moves source member
        have apart : second.filter kind = [] := none fun other inside kindred =>
          nomatch (sole causes (.sink moves sink inside) own kindred).2
        rw [apart, later causes own, List.append_nil, List.append_nil]
        exact (List.length_filter_le _ _).trans (length_sourceEffects source)
      have early : first.filter kind = [] := none fun effect member own =>
        one ⟨effect, member, own⟩
      rw [early, List.nil_append]
      by_cases other : ∃ effect ∈ second, kind effect = true
      · obtain ⟨effect, member, own⟩ := other
        rw [later (.sink moves sink member) own, List.append_nil]
        exact (List.length_filter_le _ _).trans (length_sinkEffects sink)
      · rw [none fun effect member own => other ⟨effect, member, own⟩, List.nil_append]
        exact induction distinct

def flowFrom (sends : Bool) : Flow := if sends then .fromService else .toService

section

variable {site' : RoleSite} {effect' : Effect} {sends' : Bool} {ref : ClientRef}

theorem Causes.moves (causes : sim.Causes site effect sends) :
    ∃ value, sim.net.Transfers sim.state site value := by
  cases causes with
  | source moves | sink moves => exact ⟨_, moves⟩

theorem Causes.role (routed : sim.net.Routed sim.state.clientSite?)
    (causes : sim.Causes site effect sends) (about : effect.ref? = some ref) :
    ∃ client, sim.state.clientSite? ref = some client ∧
      sim.net.clientRole? client (flowFrom sends) = some site := by
  cases causes with
  | source moves source member =>
      obtain ⟨id, endpoint, stands, leads, rfl⟩ := mem_sourceEffects source member
      rw [endpoint_of_sourceEffect about] at leads
      exact routed.response_of_source stands leads
  | sink moves sink member =>
      obtain ⟨id, endpoint, stands, leads, -, served⟩ := mem_sinkEffects sink member
      rw [endpoint_of_sinkEffect served about] at leads
      exact routed.request_of_sink stands leads

theorem Causes.accepts {memory client : Nat} {request : Request}
    (routed : sim.net.Routed sim.state.clientSite?)
    (causes : sim.Causes site (.accept memory client request) sends) :
    ∃ value, sim.Accepts ⟨memory, request.port, client⟩ value := by
  obtain ⟨value, moves⟩ := causes.moves
  obtain ⟨stands, taken, role⟩ := causes.role routed rfl
  cases causes with
  | source moves source member =>
      obtain ⟨_, endpoint, -, -, equal⟩ := mem_sourceEffects source member
      cases endpoint <;> cases equal
  | sink _ sink member => exact ⟨value, stands, site, taken, role, moves⟩

theorem Cycle.sole_of_ref (cycle : sim.Cycle effects high)
    (routed : sim.net.Routed sim.state.clientSite?) (causes : sim.Causes site effect sends)
    (causes' : sim.Causes site' effect' sends') (about : effect.ref? = some ref)
    (about' : effect'.ref? = some ref) : site = site' ∧ sends = sends' := by
  obtain ⟨client, taken, role⟩ := causes.role routed about
  obtain ⟨client', taken', role'⟩ := causes'.role routed about'
  cases taken.symm.trans taken'
  obtain ⟨value, moves⟩ := causes.moves
  obtain ⟨value', moves'⟩ := causes'.moves
  obtain ⟨request, response, connects⟩ := routed.connects taken
  have clash {other other' : SimValue} (asks : sim.net.Transfers sim.state request other) :
      ¬ sim.net.Transfers sim.state response other' := fun takes =>
    takes.not_rests (response_rests_of_request routed taken connects cycle asks)
  match sends, sends' with
  | true, true | false, false => exact ⟨Option.some.inj (role.symm.trans role'), rfl⟩
  | true, false =>
      cases role.symm.trans connects.responses
      cases role'.symm.trans connects.requests
      exact absurd moves (clash moves')
  | false, true =>
      cases role.symm.trans connects.requests
      cases role'.symm.trans connects.responses
      exact absurd moves' (clash moves)

theorem Causes.attaches {ref : HostRef} (causes : sim.Causes site effect sends)
    (about : effect.hostRef? = some ref) : sim.net.Attaches ref sends site := by
  cases causes with
  | source moves source member => exact attaches_of_source source member about
  | sink moves sink member => exact attaches_of_sink sink member about

end

/-- A cycle has at most one effect for each client, port and role of the host. -/
theorem Cycle.apart (arranged : sim.Arranged) (cycle : sim.Cycle effects high) :
    Effect.Apart effects where
  refs ref := by
    refine cycle.performs.short sim.net.nodup_servedRoles fun causes causes' own own' => ?_
    exact cycle.sole_of_ref arranged.routed causes causes' (of_decide_eq_true own)
      (of_decide_eq_true own')
  ports memory port := by
    rw [List.length_filterMap_eq_countP, List.countP_eq_length_filter]
    refine cycle.performs.short sim.net.nodup_servedRoles fun causes causes' own own' => ?_
    obtain ⟨client, served⟩ := Option.isSome_iff_exists.1 own
    obtain ⟨client', served'⟩ := Option.isSome_iff_exists.1 own'
    obtain ⟨request, rfl, rfl⟩ := Effect.serves?_eq_some.1 served
    obtain ⟨request', rfl, same⟩ := Effect.serves?_eq_some.1 served'
    obtain ⟨value, accepts⟩ := causes.accepts arranged.routed
    obtain ⟨value', accepts'⟩ := causes'.accepts arranged.routed
    have here := accepts.single arranged.routed accepts' rfl same
    exact cycle.sole_of_ref arranged.routed causes causes' rfl (congrArg some here)
  roles ref := by
    refine cycle.performs.short sim.net.nodup_servedRoles fun causes causes' own own' => ?_
    have attached := causes.attaches (of_decide_eq_true own)
    have attached' := causes'.attaches (of_decide_eq_true own')
    obtain ⟨ends, site⟩ := (arranged.hosts _ _ _ attached).sole _ _ attached'
    exact ⟨site.symm, ends.symm⟩

def AsksAt (sim : Simulator) (ref : ClientRef) (site : RoleSite) : Prop :=
  ∃ client, sim.state.clientSite? ref = some client ∧
    sim.net.clientRole? client .toService = some site

section

variable {ref ref' : ClientRef} {site' : RoleSite} (routed : sim.net.Routed sim.state.clientSite?)

theorem AsksAt.unique (asks : sim.AsksAt ref site) (asks' : sim.AsksAt ref site') :
    site = site' := by
  obtain ⟨client, taken, role⟩ := asks
  obtain ⟨client', taken', role'⟩ := asks'
  cases taken.symm.trans taken'
  exact Option.some.inj (role.symm.trans role')

include routed

theorem AsksAt.ref_unique (asks : sim.AsksAt ref site) (asks' : sim.AsksAt ref' site) :
    ref = ref' := by
  have stands {ref : ClientRef} (asks : sim.AsksAt ref site) : ∃ id, sim.net.sink site =
      .service id ∧ sim.net.endpoint site.inst id = .ok ref.endpoint := by
    obtain ⟨client, taken, role⟩ := asks
    obtain ⟨request, response, connects⟩ := routed.connects taken
    cases role.symm.trans connects.requests
    refine ⟨client.2, connects.sink, (routed.endpoint _ _ _).2 ?_⟩
    rw [connects.inside.1, taken]
  obtain ⟨id, sink, leads⟩ := stands asks
  obtain ⟨id', sink', leads'⟩ := stands asks'
  cases sink.symm.trans sink'
  have same := Except.ok.inj (leads.symm.trans leads')
  obtain ⟨_, _, _⟩ := ref
  obtain ⟨_, _, _⟩ := ref'
  cases same
  rfl

theorem Performs.asksAt {memory client : Nat} {request : Request}
    (performs : sim.Performs sites effects) (member : .accept memory client request ∈ effects) :
    ∃ site ∈ sites, sim.AsksAt ⟨memory, request.port, client⟩ site := by
  obtain ⟨site, inside, client, value, taken, role, -⟩ :=
    performs.transfer_of_accept routed member
  exact ⟨site, inside, client, taken, role⟩

theorem Performs.mem_of_asks {memory client : Nat} {request : Request}
    (performs : sim.Performs sites effects) (member : .accept memory client request ∈ effects)
    (asks : sim.AsksAt ⟨memory, request.port, client⟩ site) : site ∈ sites := by
  obtain ⟨site', there, asks'⟩ := performs.asksAt routed member
  exact asks.unique asks' ▸ there

end

section

variable {crossing : Crossing} {order : List Effect} (arranged : sim.Arranged)
  (cycle : sim.Cycle effects high)

include arranged cycle

theorem Cycle.accepts {memory client : Nat} {request : Request}
    (member : .accept memory client request ∈ effects) :
    memory ∉ high ∧ ∃ held, sim.state.client? ⟨memory, request.port, client⟩ = some held := by
  obtain ⟨site, -, sends, causes⟩ := cycle.performs.causes member
  obtain ⟨value, accepts⟩ := causes.accepts arranged.routed
  obtain ⟨-, low, -⟩ := accepts.granted arranged.routed
  obtain ⟨stands, -, taken, -⟩ := accepts
  obtain ⟨bit, reset, decided⟩ := cycle.reset taken
  obtain ⟨held, present, -⟩ := Option.map_eq_some_iff.1 taken
  refine ⟨fun inside => ?_, held, present⟩
  cases (decided.1 inside).symm.trans (reset.unique low)

theorem Cycle.answers (inside : crossing.In sim.state effects) (same : order.Perm effects) :
    (nextState sim.state order high).pendingAt? crossing.ref = some (crossing.answer order) := by
  obtain ⟨spared, held, present⟩ := cycle.accepts arranged inside.reads
  have spared : crossing.ref.memory ∉ high := spared
  have present : sim.state.client? crossing.ref = some held := present
  have holds := (inside.perm same).client?_applyAll ((cycle.apart arranged).perm same)
  rw [SimState.pendingAt?, client?_nextState, if_neg spared, holds, present]
  rfl

theorem Cycle.nextState_eq_iff (same : order.Perm effects) :
    nextState sim.state order high = nextState sim.state effects high ↔
      ∀ crossing : Crossing, crossing.In sim.state effects → crossing.old ≠ crossing.word →
        (crossing.WritesFirst order ↔ crossing.WritesFirst effects) := by
  constructor
  · intro equal crossing inside differ
    have one := cycle.answers arranged inside same
    have other := cycle.answers arranged inside (.refl effects)
    rw [equal, other, Option.some.injEq] at one
    by_cases first : crossing.WritesFirst order <;>
      by_cases first' : crossing.WritesFirst effects <;>
      simp_all [Crossing.answer, Ne.symm]
  · intro agree
    refine (sameBut_of_perm (cycle.apart arranged) same).eq_of_clients fun ref dependsOnOrder => ?_
    obtain ⟨crossing, inside, differ, rfl⟩ := dependsOnOrder
    have answer : crossing.answer order = crossing.answer effects := by
      simp only [Crossing.answer, agree crossing inside differ]
    have apart := cycle.apart arranged
    rw [client?_nextState, client?_nextState, inside.client?_applyAll apart,
      (inside.perm same).client?_applyAll (apart.perm same), answer]

/-- In a cycle a write takes effect before a read if its bundle comes before that of the read. -/
theorem Cycle.writesFirst_iff (inside : crossing.In sim.state effects) :
    ∃ reads writes, sim.AsksAt crossing.ref reads ∧
      sim.AsksAt ⟨crossing.memory, .write, crossing.writer⟩ writes ∧
      (crossing.WritesFirst effects ↔ [writes, reads].Sublist sim.net.servedRoles) := by
  have routed := arranged.routed
  obtain ⟨reads, served, asks⟩ := cycle.performs.asksAt routed inside.reads
  obtain ⟨writes, served', asks'⟩ := cycle.performs.asksAt routed inside.writes
  refine ⟨reads, writes, asks, asks', ?_⟩
  have apart : writes ≠ reads := by
    rintro rfl
    cases asks.ref_unique routed asks'
  obtain ⟨earlier, later, equal⟩ := List.append_of_mem served
  obtain ⟨absent, absent'⟩ := Netlist.not_mem_of_servedRoles equal
  have performs := cycle.performs
  rw [equal] at performs served' ⊢
  obtain ⟨before, rest, rfl, early, performs⟩ := performs.split
  have performs : sim.Performs ([reads] ++ later) rest := performs
  obtain ⟨own, after, rfl, here, late⟩ := performs.split
  have elsewhere : crossing.write ∉ own := fun member =>
    apart (List.mem_singleton.1 (here.mem_of_asks routed member asks'))
  have beyond : crossing.read ∉ after := fun member => absent' (late.mem_of_asks routed member asks)
  have there : crossing.read ∈ own := by
    obtain first | last := List.mem_append.1 inside.reads
    · exact absurd (early.mem_of_asks routed first asks) absent
    · exact (List.mem_append.1 last).resolve_right beyond
  have roles : [writes, reads].Sublist (earlier ++ reads :: later) ↔ writes ∈ earlier :=
    pair_sublist_iff (mt List.mem_singleton.1 apart) List.mem_cons_self absent'
  rw [Crossing.WritesFirst, pair_sublist_iff elsewhere there beyond, roles]
  refine ⟨fun member => early.mem_of_asks routed member asks', fun first => ?_⟩
  have distinct := sim.net.nodup_servedRoles
  rw [equal] at distinct
  have apart' := (List.nodup_append.1 distinct).2.2 _ first
  obtain before' | last := List.mem_append.1 inside.writes
  · exact before'
  · have last := (List.mem_append.1 last).resolve_left elsewhere
    have later' := late.mem_of_asks routed last asks'
    exact absurd rfl (apart' _ (List.mem_cons_of_mem _ later'))

end

/-- A cycle ends in the same state, whatever the order in which its effects apply, but for one
thing: the response to a read of a place where the memory takes a write of another word in the same
cycle. It is the word that is written if the write applies first, which it does if its bundle comes
before that of the read, and the word that was there if not. -/
theorem effects_commute_but_for_crossings {design : CompiledDesign} {policy : ArbitrationPolicy}
    {start sim : Simulator} {actions : List Action} (built : design.Built)
    (made : withPolicy design policy = .ok start) (reached : start.after actions = sim)
    (completes : sim.Completes .step) :
    ∃ effects high, sim.Cycle effects high ∧
      (sim.act .step).state = nextState sim.state effects high ∧
      (∀ order : List Effect, order.Perm effects →
        SimState.SameBut (Effect.DependsOnOrder sim.state effects) (nextState sim.state order high)
          (nextState sim.state effects high) ∧
        (∀ crossing : Crossing, crossing.In sim.state effects →
          (nextState sim.state order high).pendingAt? crossing.ref =
            some (crossing.answer order)) ∧
        (nextState sim.state order high = nextState sim.state effects high ↔
          ∀ crossing : Crossing, crossing.In sim.state effects → crossing.old ≠ crossing.word →
            (crossing.WritesFirst order ↔ crossing.WritesFirst effects))) ∧
      ∀ crossing : Crossing, crossing.In sim.state effects →
        ∃ reads writes, sim.AsksAt crossing.ref reads ∧
          sim.AsksAt ⟨crossing.memory, .write, crossing.writer⟩ writes ∧
          (crossing.WritesFirst effects ↔ [writes, reads].Sublist sim.net.servedRoles) := by
  have arranged : sim.Arranged :=
    reached ▸ arranged_after (arranged_of_withPolicy built made) actions
  obtain ⟨effects, high, cycle, state⟩ := (sim.turns .step).of_completes completes
  refine ⟨effects, high, cycle, state, fun order same => ⟨?_, ?_, ?_⟩, fun crossing inside => ?_⟩
  · exact sameBut_of_perm (cycle.apart arranged) same
  · exact fun crossing inside => cycle.answers arranged inside same
  · exact cycle.nextState_eq_iff arranged same
  · exact cycle.writesFirst_iff arranged inside

end Simulator

namespace MemoryDesign

/-- The host asks for a word in the cycle in which it writes another one to its place. -/
def simultaneous : List Action := [
  .hostSend "Top.write" "req" (.struct [.bits 5, .bits 99]),
  .hostSend "Top.read" "address" (.bits 5)]

def meeting : Crossing where
  memory := 0
  reader := 0
  writer := 0
  address := 5
  old := .bits 0
  word := .bits 99

def meetingEffects : List Effect := [.pop 0 0, meeting.write, .pop 1 0, meeting.read]

theorem responses_of_simultaneous :
    ∃ design start sim effects high order, CompiledDesign.Built design ∧
      Simulator.withPolicy design .roundRobin = .ok start ∧ start.after simultaneous = sim ∧
      sim.Completes .step ∧ sim.Cycle effects high ∧ List.Perm order effects ∧
      (Simulator.nextState sim.state effects high).pendingAt? meeting.ref = some (.bits 99) ∧
      (Simulator.nextState sim.state order high).pendingAt? meeting.ref = some (.bits 0) ∧
      Simulator.nextState sim.state order high ≠ Simulator.nextState sim.state effects high := by
  have facts : (simulation?.map fun made =>
      let sim := made.2.after simultaneous
      (sim.step.1.toOption, (sim.outcome.run []).toOption.map (·.1.2.1),
        (sim.state.words? 0).bind (·[5]?))) =
      some (some 2, some meetingEffects, some (.bits 0)) := by
    decide +kernel
  obtain ⟨⟨design, start⟩, simulation, facts⟩ := Option.map_eq_some_iff.1 facts
  obtain ⟨counted, rest⟩ := Prod.mk.inj facts
  obtain ⟨ended, held⟩ := Prod.mk.inj rest
  obtain ⟨built, made⟩ := built_of_simulation simulation
  have completes : (start.after simultaneous).Completes .step :=
    ⟨rfl, 2, eq_ok_of_toOption counted⟩
  obtain ⟨effects, high, cycle, -, orders, -⟩ :=
    Simulator.effects_commute_but_for_crossings built made rfl completes
  obtain ⟨result, ended, same⟩ := Option.map_eq_some_iff.1 ended
  have known : effects = meetingEffects := by
    have computed := (Simulator.gives_outcome _ _ _ .fresh (eq_ok_of_toOption ended)).1
    exact (cycle.performs.unique computed.performs).trans same
  subst known
  have inside : meeting.In (start.after simultaneous).state meetingEffects :=
    ⟨by decide, by decide, held⟩
  have reversed : List.Perm meetingEffects.reverse meetingEffects := List.reverse_perm _
  obtain ⟨-, own, -⟩ := orders meetingEffects (.refl _)
  obtain ⟨-, other, equal⟩ := orders _ reversed
  refine ⟨design, start, _, _, high, _, built, made, rfl, completes, cycle, reversed,
    own meeting inside, other meeting inside, fun same => ?_⟩
  have agree := equal.1 same meeting inside (by decide)
  exact absurd agree (by decide)

end MemoryDesign

end Elastic
