import Elastic.Proofs.Sim.Evaluation
import Elastic.Sim.Simulator

namespace Elastic

open Query

/-! What a completed cycle does, read off the equations: the transfers of the roles with a service
at an end, their effects in order, and the memories in reset. -/

namespace Netlist

/-- A role transfers a value in a cycle: it is valid and ready, and this is its data. -/
structure Transfers (net : Netlist) (state : SimState) (site : RoleSite) (value : SimValue) :
    Prop where
  valid : Yields net state (roleValid net state site) true
  ready : Yields net state (roleReady net site) true
  data : Yields net state (roleData net state site) value

/-- A role rests in a cycle: it is not valid, or it is not ready. -/
def Rests (net : Netlist) (state : SimState) (site : RoleSite) : Prop :=
  Yields net state (roleValid net state site) false ∨
    Yields net state (roleValid net state site) true ∧ Yields net state (roleReady net site) false

variable {net : Netlist} {state : SimState} {site : RoleSite} {value other : SimValue}

theorem Transfers.unique (one : net.Transfers state site value)
    (second : net.Transfers state site other) : value = other :=
  one.data.unique second.data

theorem Transfers.not_rests (moves : net.Transfers state site value) : ¬ net.Rests state site := by
  intro rests
  cases rests with
  | inl idle => cases moves.valid.unique idle
  | inr stalled => cases moves.ready.unique stalled.2

end Netlist

namespace Simulator

/-- The effects of the transfers on roles, in order. -/
inductive Performs (sim : Simulator) : List RoleSite → List Effect → Prop
  | nil : Performs sim [] []
  | rest {site : RoleSite} {sites : List RoleSite} {effects : List Effect}
      (rests : sim.net.Rests sim.state site) (others : Performs sim sites effects) :
      Performs sim (site :: sites) effects
  | transfer {site : RoleSite} {sites : List RoleSite} {value : SimValue}
      {first second effects : List Effect} (moves : sim.net.Transfers sim.state site value)
      (source : sim.sourceEffects site = .ok first)
      (sink : sim.sinkEffects site value = .ok second) (others : Performs sim sites effects) :
      Performs sim (site :: sites) (first ++ second ++ effects)

def Resets (sim : Simulator) (memories high : List Nat) : Prop :=
  (∀ memory ∈ high, memory ∈ memories) ∧
    ∀ memory ∈ memories, ∃ bit, Yields sim.net sim.state (inReset sim.state memory) bit ∧
      (memory ∈ high ↔ bit = true)

/-- What a cycle comes to if all its signals settle. -/
structure Cycle (sim : Simulator) (effects : List Effect) (high : List Nat) : Prop where
  performs : sim.Performs sim.net.servedRoles effects
  resets : sim.Resets (List.range sim.state.memories.length) high

namespace Performs

variable {sim : Simulator} {sites earlier later : List RoleSite} {effects : List Effect}
  {site : RoleSite}

theorem unique {others : List Effect} (one : sim.Performs sites effects)
    (second : sim.Performs sites others) : effects = others := by
  induction one generalizing others with
  | nil =>
      cases second
      rfl
  | rest rests performs induction =>
      cases second with
      | rest rests' performs' => exact induction performs'
      | transfer moves source sink performs' => exact absurd rests moves.not_rests
  | transfer moves source sink performs induction =>
      cases second with
      | rest rests performs' => exact absurd rests moves.not_rests
      | transfer moves' source' sink' performs' =>
          cases moves.unique moves'
          cases source.symm.trans source'
          cases sink.symm.trans sink'
          rw [induction performs']

theorem settled (performs : sim.Performs sites effects) (member : site ∈ sites) :
    sim.net.Rests sim.state site ∨ ∃ value, sim.net.Transfers sim.state site value := by
  induction performs with
  | nil => cases member
  | rest rests performs induction =>
      cases List.mem_cons.1 member with
      | inl same => exact .inl (same ▸ rests)
      | inr later => exact induction later
  | transfer moves source sink performs induction =>
      cases List.mem_cons.1 member with
      | inl same => exact .inr ⟨_, same ▸ moves⟩
      | inr later => exact induction later

/-- Every effect is that of a transfer, on the service that drives the role or on the other one. -/
theorem origin {effect : Effect} (performs : sim.Performs sites effects)
    (member : effect ∈ effects) :
    ∃ site ∈ sites, ∃ value first second, sim.net.Transfers sim.state site value ∧
      sim.sourceEffects site = .ok first ∧ sim.sinkEffects site value = .ok second ∧
      (effect ∈ first ∨ effect ∈ second) := by
  induction performs with
  | nil => cases member
  | rest rests performs induction =>
      obtain ⟨site, inside, facts⟩ := induction member
      exact ⟨site, List.mem_cons_of_mem _ inside, facts⟩
  | @transfer site sites value first second effects moves source sink performs induction =>
      cases List.mem_append.1 member with
      | inl own =>
          exact ⟨site, List.mem_cons_self .., value, first, second, moves, source, sink,
            List.mem_append.1 own⟩
      | inr other =>
          obtain ⟨site, inside, facts⟩ := induction other
          exact ⟨site, List.mem_cons_of_mem _ inside, facts⟩

theorem split (performs : sim.Performs (earlier ++ later) effects) :
    ∃ first second, effects = first ++ second ∧ sim.Performs earlier first ∧
      sim.Performs later second := by
  induction earlier generalizing effects with
  | nil => exact ⟨[], effects, rfl, .nil, performs⟩
  | cons site rest induction =>
      cases performs with
      | rest rests performs =>
          obtain ⟨first, second, equal, performs, others⟩ := induction performs
          exact ⟨first, second, equal, .rest rests performs, others⟩
      | transfer moves source sink performs =>
          obtain ⟨first, second, equal, performs, others⟩ := induction performs
          rw [equal, ← List.append_assoc]
          exact ⟨_, second, rfl, .transfer moves source sink performs, others⟩

theorem around {value : SimValue} (performs : sim.Performs (earlier ++ site :: later) effects)
    (moves : sim.net.Transfers sim.state site value) :
    ∃ before first second after, effects = before ++ (first ++ second ++ after) ∧
      sim.Performs earlier before ∧ sim.sourceEffects site = .ok first ∧
      sim.sinkEffects site value = .ok second ∧ sim.Performs later after := by
  obtain ⟨before, others, rfl, first, last⟩ := performs.split
  cases last with
  | rest rests last => exact absurd rests moves.not_rests
  | transfer moves' source sink last =>
      cases moves.unique moves'
      exact ⟨before, _, _, _, rfl, first, source, sink, last⟩

end Performs

/-- What an action gives over a memo of the cycle has a property, and the memo that it leaves is
again one of the cycle. -/
def Gives (sim : Simulator) (action : Settling α) (fact : α → Prop) : Prop :=
  ∀ memo value after, Settling.Reached sim.net sim.state memo →
    action.run memo = .ok (value, after) → fact value ∧ Settling.Reached sim.net sim.state after

variable {sim : Simulator}

theorem gives_settle (query : Query α) :
    sim.Gives (sim.settle query) (Yields sim.net sim.state query) :=
  fun _ _ after reached answered =>
    ⟨(Settling.outcome_ok_iff reached).1 ⟨after, answered⟩, .query reached answered⟩

theorem Gives.of_run {action : Settling α} {fact : α → Prop} {value : α}
    (gives : sim.Gives action fact) (answered : (action.run' []).toOption = some value) :
    fact value := by
  rw [StateT.run'_eq] at answered
  cases run : action.run [] with
  | error error =>
      rw [run] at answered
      cases answered
  | ok result =>
      rw [run] at answered
      cases answered
      exact (gives _ _ _ .fresh run).1

theorem yields_of_settle {query : Query α} {value : α}
    (settled : ((sim.settle query).run' []).toOption = some value) :
    Yields sim.net sim.state query value :=
  (gives_settle query).of_run settled

theorem gives_pure {value : α} {fact : α → Prop} (holds : fact value) :
    sim.Gives (pure value) fact := by
  intro memo value after reached answered
  cases answered
  exact ⟨holds, reached⟩

theorem Gives.bind {action : Settling α} {next : α → Settling β} {fact : α → Prop}
    {goal : β → Prop} (first : sim.Gives action fact)
    (rest : ∀ value, fact value → sim.Gives (next value) goal) :
    sim.Gives (action >>= next) goal := by
  intro memo value after reached answered
  rw [StateT.run_bind] at answered
  cases run : action.run memo with
  | error error =>
      rw [run] at answered
      cases answered
  | ok result =>
      rw [run] at answered
      obtain ⟨holds, reached⟩ := first memo result.1 result.2 reached run
      exact rest result.1 holds result.2 value after reached answered

theorem gives_lift (outcome : Except SimError α) :
    sim.Gives (liftM outcome : Settling α) (outcome = .ok ·) := by
  intro memo value after reached answered
  cases outcome with
  | error error => cases answered
  | ok held =>
      cases answered
      exact ⟨rfl, reached⟩

theorem gives_transfer? (site : RoleSite) :
    sim.Gives (sim.transfer? site) fun result =>
      (result = none ∧ sim.net.Rests sim.state site) ∨
        ∃ value, result = some value ∧ sim.net.Transfers sim.state site value := by
  unfold transfer?
  refine (gives_settle _).bind fun valid offers => ?_
  cases valid with
  | false => exact gives_pure (.inl ⟨rfl, .inl offers⟩)
  | true =>
      refine (gives_settle _).bind fun ready takes => ?_
      cases ready with
      | false => exact gives_pure (.inl ⟨rfl, .inr ⟨offers, takes⟩⟩)
      | true =>
          refine (gives_settle _).bind fun value carries => ?_
          exact gives_pure (.inr ⟨value, rfl, offers, takes, carries⟩)

theorem gives_transfers (sites : List RoleSite) :
    sim.Gives (sim.transfers sites) fun result => sim.Performs sites result.2 := by
  induction sites with
  | nil => exact gives_pure .nil
  | cons site rest induction =>
      unfold transfers
      refine (gives_transfer? site).bind fun result cases => ?_
      obtain ⟨rfl, rests⟩ | ⟨value, rfl, moves⟩ := cases
      · intro memo result after reached answered
        obtain ⟨performs, reached⟩ := induction memo result after reached answered
        exact ⟨.rest rests performs, reached⟩
      · refine (gives_lift _).bind fun first source => ?_
        refine (gives_lift _).bind fun second sink => ?_
        refine induction.bind fun others performs => ?_
        exact gives_pure (.transfer moves source sink performs)

theorem Resets.cons {memory : Nat} {rest high : List Nat} {bit : Bool}
    (resets : sim.Resets rest high)
    (reset : Yields sim.net sim.state (inReset sim.state memory) bit) :
    sim.Resets (memory :: rest) (if bit then memory :: high else high) := by
  obtain ⟨inside, decided⟩ := resets
  constructor
  · intro other member
    cases bit with
    | false => exact List.mem_cons_of_mem _ (inside other member)
    | true =>
        cases List.mem_cons.1 member with
        | inl same => exact same ▸ List.mem_cons_self ..
        | inr later => exact List.mem_cons_of_mem _ (inside other later)
  · intro other member
    by_cases same : other = memory
    · subst same
      refine ⟨bit, reset, ?_⟩
      cases bit with
      | true => simp
      | false =>
          simp only [Bool.false_eq_true, if_false, iff_false]
          intro later
          obtain ⟨bit, known, high⟩ := decided other (inside other later)
          cases (high.1 later).symm.trans (known.unique reset)
    · obtain ⟨held, known, high⟩ := decided other ((List.mem_cons.1 member).resolve_left same)
      refine ⟨held, known, ?_⟩
      cases bit with
      | true => simpa [same] using high
      | false => exact high

theorem gives_resets (memories : List Nat) :
    sim.Gives (sim.resets memories) (sim.Resets memories) := by
  induction memories with
  | nil => exact gives_pure ⟨fun _ => id, nofun⟩
  | cons memory rest induction =>
      unfold resets
      refine (gives_settle _).bind fun bit reset => ?_
      refine induction.bind fun high resets => ?_
      exact gives_pure (resets.cons reset)

theorem gives_outcome : sim.Gives sim.outcome fun result => sim.Cycle result.2.1 result.2.2 := by
  unfold outcome
  refine (gives_transfers _).bind fun result performs => ?_
  refine (gives_resets _).bind fun high resets => ?_
  exact gives_pure ⟨performs, resets⟩

/-- A handshake as the equations of the cycle have it, with data while it is valid. -/
structure Observes (sim : Simulator) (seen : Observation) : Prop where
  cycle : seen.cycle = sim.cycle
  path : seen.path = sim.net.pathText seen.site.1
  valid : (Signal.valid seen.site.1 seen.site.2).Settles sim.net sim.state seen.valid
  ready : (Signal.ready seen.site.1 seen.site.2).Settles sim.net sim.state seen.ready
  idle : seen.valid = false → seen.data = none
  carries : seen.valid = true → ∃ value, seen.data = some value ∧
    (Signal.data seen.site.1 seen.site.2).Settles sim.net sim.state value

theorem gives_observation (inst : InstanceId) (channel : ChannelId) :
    sim.Gives (sim.observation inst channel) fun seen =>
      sim.Observes seen ∧ seen.site = (inst, channel) := by
  unfold observation
  refine (gives_settle _).bind fun valid offers => ?_
  refine (gives_settle _).bind fun ready takes => ?_
  have offers := yields_demand.1 offers
  have takes := yields_demand.1 takes
  have payload : sim.Gives (some <$> sim.settle (Query.data inst channel)) fun data =>
      ∃ value, data = some value ∧
        (Signal.data inst channel).Settles sim.net sim.state value :=
    (gives_settle _).bind fun value carries => gives_pure ⟨value, rfl, yields_demand.1 carries⟩
  cases valid with
  | false => exact gives_pure ⟨⟨rfl, rfl, offers, takes, fun _ => rfl, nofun⟩, rfl⟩
  | true =>
      refine payload.bind fun data carries => ?_
      exact gives_pure ⟨⟨rfl, rfl, offers, takes, nofun, fun _ => carries⟩, rfl⟩

/-- The handshakes of channels in order, up to one that does not settle. -/
structure Watches (sim : Simulator) (sites : List ChannelSite) (seen : List Observation) :
    Prop where
  observes : ∀ one ∈ seen, sim.Observes one
  order : seen.map (·.site) <+: sites

def watched (sim : Simulator) (monitor : Monitor) : Simulator := { sim with monitor := monitor }

theorem observeAll_cases (sim : Simulator) (sites : List ChannelSite) {memo : Memo}
    (reached : Settling.Reached sim.net sim.state memo) :
    ∃ outcome seen, sim.Watches sites seen ∧
      (∀ monitor other, (sim.watched other).observeAll sites memo monitor =
        (outcome, seen.foldl Monitor.observe monitor)) ∧
      ∀ after, outcome = .ok after →
        Settling.Reached sim.net sim.state after ∧ seen.map (·.site) = sites := by
  induction sites generalizing memo with
  | nil =>
      refine ⟨.ok memo, [], ⟨nofun, List.prefix_rfl⟩, fun _ _ => rfl, fun after answered => ?_⟩
      cases answered
      exact ⟨reached, rfl⟩
  | cons site rest induction =>
      obtain ⟨inst, channel⟩ := site
      have apart (other : Monitor) : (sim.watched other).observation inst channel =
          sim.observation inst channel := rfl
      cases answered : (sim.observation inst channel).run memo with
      | error error =>
          refine ⟨.error error, [], ⟨nofun, List.nil_prefix⟩, fun monitor other => ?_, nofun⟩
          simp only [observeAll, apart, answered, List.foldl_nil]
      | ok result =>
          obtain ⟨one, next⟩ := result
          obtain ⟨⟨observes, same⟩, reached⟩ := gives_observation _ _ _ _ _ reached answered
          obtain ⟨outcome, seen, watches, shows, all⟩ := induction reached
          refine ⟨outcome, one :: seen, ⟨List.forall_mem_cons.2 ⟨observes, watches.observes⟩, ?_⟩,
            fun monitor other => ?_, fun after answered => ?_⟩
          · rw [List.map_cons, same]
            exact List.cons_prefix_cons.2 ⟨rfl, watches.order⟩
          · simp only [observeAll, apart, answered, shows, List.foldl_cons]
          · obtain ⟨reached, sites⟩ := all after answered
            exact ⟨reached, by rw [List.map_cons, same, sites]⟩

theorem watches_of_observeAll {sites : List ChannelSite} {memo : Memo} {monitor last : Monitor}
    {outcome : Except SimError Memo} (reached : Settling.Reached sim.net sim.state memo)
    (observed : sim.observeAll sites memo monitor = (outcome, last)) :
    ∃ seen, sim.Watches sites seen ∧ ∀ after, outcome = .ok after →
      Settling.Reached sim.net sim.state after ∧ seen.map (·.site) = sites := by
  obtain ⟨outcome', seen, watches, shows, all⟩ := sim.observeAll_cases sites reached
  obtain ⟨rfl, -⟩ := Prod.mk.inj (observed.symm.trans (shows monitor sim.monitor))
  exact ⟨seen, watches, all⟩

theorem outcome_watched (sim : Simulator) (monitor : Monitor) :
    (sim.watched monitor).outcome = sim.outcome := by
  have moved (sites : List RoleSite) :
      (sim.watched monitor).transfers sites = sim.transfers sites := by
    induction sites with
    | nil => rfl
    | cons site rest induction =>
        unfold transfers
        rw [induction]
        rfl
  have resets (memories : List Nat) : (sim.watched monitor).resets memories =
      sim.resets memories := by
    induction memories with
    | nil => rfl
    | cons memory rest induction =>
        unfold Simulator.resets
        rw [induction]
        rfl
  unfold outcome
  rw [moved, resets]
  rfl

/-- What a step leaves under any monitor: a completed cycle its effects and resets, a failing one
nothing but what the monitor saw. -/
theorem step_cases (sim : Simulator) :
    (∃ error seen, sim.Watches sim.net.channelSites seen ∧
      ∀ monitor, (sim.watched monitor).step =
        (.error error, sim.watched (seen.foldl Monitor.observe monitor))) ∨
    ∃ count seen effects high, sim.Cycle effects high ∧
      sim.Watches sim.net.channelSites seen ∧ seen.map (·.site) = sim.net.channelSites ∧
      ∀ monitor, (sim.watched monitor).step = (.ok count, { sim with
        monitor := seen.foldl Monitor.observe monitor
        state := nextState sim.state effects high
        cycle := sim.cycle + 1 }) := by
  obtain ⟨outcome, seen, watches, shows, all⟩ :=
    sim.observeAll_cases sim.net.channelSites .fresh
  have sites (monitor : Monitor) : (sim.watched monitor).net.channelSites =
      sim.net.channelSites := rfl
  have own (monitor : Monitor) : (sim.watched monitor).monitor = monitor := rfl
  cases outcome with
  | error error =>
      refine .inl ⟨error, seen, watches, fun monitor => ?_⟩
      unfold step
      rw [sites, own, shows]
      rfl
  | ok memo =>
      obtain ⟨reached, sites'⟩ := all memo rfl
      cases answered : sim.outcome.run memo with
      | error error =>
          refine .inl ⟨error, seen, watches, fun monitor => ?_⟩
          unfold step
          rw [sites, own, shows]
          simp only [outcome_watched, answered]
          rfl
      | ok result =>
          obtain ⟨⟨count, effects, high⟩, after⟩ := result
          refine .inr ⟨count, seen, effects, high, (gives_outcome _ _ _ reached answered).1,
            watches, sites', fun monitor => ?_⟩
          unfold step
          rw [sites, own, shows]
          simp only [outcome_watched, answered]
          rfl

end Simulator

end Elastic
