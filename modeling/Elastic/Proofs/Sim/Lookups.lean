import Elastic.Proofs.Build.Addresses
import Elastic.Proofs.Sim.Preservation
import Elastic.Proofs.Sim.Transfers

namespace Elastic

/-! Looking parts up by the paths that are displayed. A part of a generated design is found under
its own path and under no other one, in the graph, in the compiled design, and in a simulator at any
time. -/

theorem findIdx?_eq_some_of_nodup [DecidableEq β] {items : List α} {view : α → β} {key : β}
    {index : Nat} (distinct : (items.map view).Nodup) :
    items.findIdx? (fun item => decide (view item = key)) = some index ↔
      ∃ item, items[index]? = some item ∧ view item = key := by
  constructor
  · intro found
    obtain ⟨bound, holds, -⟩ := List.findIdx?_eq_some_iff_getElem.1 found
    exact ⟨items[index], List.getElem?_eq_getElem bound, of_decide_eq_true holds⟩
  · rintro ⟨item, here, rfl⟩
    cases found : items.findIdx? (fun other => decide (view other = view item)) with
    | none =>
        have absent := List.findIdx?_eq_none_iff.1 found item (List.mem_of_getElem? here)
        exact absurd rfl (of_decide_eq_false absent)
    | some other =>
        obtain ⟨bound, holds, -⟩ := List.findIdx?_eq_some_iff_getElem.1 found
        have viewed : (items.map view)[other]? = (items.map view)[index]? := by
          rw [List.getElem?_map, List.getElem?_map, here, List.getElem?_eq_getElem bound,
            Option.map_some, Option.map_some, of_decide_eq_true holds]
        have inside : other < (items.map view).length := by rwa [List.length_map]
        rw [(List.getElem?_inj inside distinct).1 viewed]

theorem findIdx?_eq_some_of_map [DecidableEq γ] {items : List α} {others : List β} {view : α → γ}
    {view' : β → γ} (key : γ) (index : Nat) (same : items.map view = others.map view')
    (distinct : (others.map view').Nodup) :
    items.findIdx? (fun item => decide (view item = key)) = some index ↔
      ∃ other, others[index]? = some other ∧ view' other = key := by
  have here : (items.map view)[index]? = (others.map view')[index]? := by rw [same]
  rw [List.getElem?_map, List.getElem?_map] at here
  rw [findIdx?_eq_some_of_nodup (same ▸ distinct), ← Option.map_eq_some_iff, here,
    Option.map_eq_some_iff]

def HostEndpoint.part (host : HostEndpoint) : Part := .service host.inst host.serviceInstance

def BuiltinSite.part (builtin : BuiltinSite) : Part := .builtin builtin.inst builtin.position

namespace Graph

def Shows (graph : Graph) (part : Part) (text : String) : Prop :=
  ∃ path, graph.pathOf? part = some path ∧ path.text = text

variable {graph : Graph} {root : AppId}

theorem Shows.iff {part : Part} {view text : String} (shows : graph.Shows part view) :
    graph.Shows part text ↔ view = text := by
  obtain ⟨path, known, rfl⟩ := shows
  constructor
  · rintro ⟨path', known', rfl⟩
    cases known.symm.trans known'
    rfl
  · rintro rfl
    exact ⟨path, known, rfl⟩

theorem Addressed.part_of_shows (addressed : graph.Addressed root) {part part' : Part}
    {text : String} (shows : graph.Shows part text) (shows' : graph.Shows part' text) :
    part = part' := by
  obtain ⟨path, known, rfl⟩ := shows
  obtain ⟨path', known', same⟩ := shows'
  exact addressed.unique_text known known' same.symm

theorem Addressed.nodup_text (addressed : graph.Addressed root) {items : List α} {part : α → Part}
    {view : α → String} (distinct : (items.map part).Nodup)
    (shows : ∀ item ∈ items, graph.Shows (part item) (view item)) : (items.map view).Nodup := by
  have apart := List.pairwise_map.1 distinct
  refine List.pairwise_map.2 (apart.imp_of_mem fun {item item'} member member' differ same => ?_)
  exact differ (addressed.part_of_shows (same ▸ shows item member) (shows item' member'))

theorem Addressed.findInstance?_eq_some (addressed : graph.Addressed root) {path : AppPath}
    {inst : InstanceId} :
    graph.findInstance? path = some inst ↔ graph.pathOf? (.inst inst) = some path := by
  have held (id : InstanceId) : graph.instances.toList[id]? = graph.instances.get? id :=
    Array.getElem?_toList
  have distinct : (graph.instances.toList.map (·.path)).Nodup := by
    refine List.nodup_iff_getElem?_ne_getElem?.2 fun earlier later smaller bound same => ?_
    rw [List.length_map] at bound
    have first := List.getElem?_eq_getElem (Nat.lt_trans smaller bound)
    have second := List.getElem?_eq_getElem bound
    rw [List.getElem?_map, List.getElem?_map, first, second] at same
    have known : graph.pathOf? (.inst earlier) = graph.pathOf? (.inst later) := by
      rw [pathOf?, pathOf?, ← held, ← held, first, second]
      exact same
    have there : graph.pathOf? (.inst later) = some (graph.instances.toList[later]).path := by
      rw [pathOf?, ← held, second, Option.map_some]
    cases addressed.unique (known.trans there) there
    exact Nat.lt_irrefl _ smaller
  have listed : graph.findInstance? path = graph.instances.toList.findIdx? (·.path = path) := by
    rw [findInstance?, Arena.toList, ← List.findIdx?_toArray, Array.toArray_toList]
  rw [listed, findIdx?_eq_some_of_nodup distinct, pathOf?, Option.map_eq_some_iff, held]

end Graph

namespace ServiceMap

variable {graph : Graph} {names : Names} {map after : ServiceMap}

structure Lists (graph : Graph) (names : Names) (map : ServiceMap) : Prop where
  builtins : map.builtins.map (fun site => (site.part, site.path)) =
    (builtinSites graph names).map fun site => (site.part, site.path)
  hosts : ∀ host ∈ map.hosts, graph.pathOf? host.part = some host.path

theorem resolveOne_lists {inst : InstanceId} {id : ServiceInstanceId} {held : ServiceInstance}
    (lists : map.Lists graph names) (known : (graph.moduleOf inst).services.get? id = some held)
    (resolved : resolveOne graph map inst id held = .ok after) : after.Lists graph names := by
  unfold resolveOne at resolved
  split at resolved
  · cases resolved
  · dsimp only at resolved
    split at resolved
    · cases resolved
      refine ⟨lists.builtins, List.forall_mem_append.2 ⟨lists.hosts, ?_⟩⟩
      refine List.forall_mem_singleton.2 ?_
      rw [HostEndpoint.part, Graph.pathOf?, known, Option.map_some]
    · split at resolved
      · cases resolved
      · cases resolved
        refine ⟨?_, lists.hosts⟩
        rw [← lists.builtins]
        exact map_modify_of_same fun _ _ => rfl

theorem resolveAll_lists {sites : List (InstanceId × ServiceInstanceId × ServiceInstance)}
    (lists : map.Lists graph names)
    (known : ∀ inst id held, (inst, id, held) ∈ sites →
      (graph.moduleOf inst).services.get? id = some held)
    (resolved : resolveAll graph map sites = .ok after) : after.Lists graph names := by
  induction sites generalizing map with
  | nil =>
      cases resolved
      exact lists
  | cons site rest induction =>
      obtain ⟨inst, id, held⟩ := site
      unfold resolveAll at resolved
      split at resolved
      · cases resolved
      · rename_i next first
        exact induction (resolveOne_lists lists (known inst id held List.mem_cons_self) first)
          (fun inst id held member => known inst id held (List.mem_cons_of_mem _ member)) resolved

theorem lists_of_resolve (resolved : resolve graph names = .ok map) : map.Lists graph names :=
  resolveAll_lists ⟨rfl, fun _ member => absurd member List.not_mem_nil⟩
    (fun _ _ _ => mem_serviceSites) resolved

theorem mem_builtinSites (names : Names) {inst : InstanceId} {position : Nat} {path : AppPath} :
    (Part.builtin inst position, path) ∈
        (builtinSites graph names).map (fun site => (site.part, site.path)) ↔
      graph.pathOf? (.builtin inst position) = some path := by
  simp only [builtinSites, List.map_flatMap, List.mem_flatMap, Arena.ids, List.mem_range,
    builtinsOf, List.map_map, List.mem_map, Function.comp_apply, Prod.mk.injEq, Prod.exists,
    BuiltinSite.part, Part.builtin.injEq, List.mem_zipIdx_iff_getElem?, Graph.pathOf?,
    Option.map_eq_some_iff]
  constructor
  · rintro ⟨_, -, held, _, known, ⟨rfl, rfl⟩, same⟩
    exact ⟨held, known, same⟩
  · rintro ⟨held, known, same⟩
    refine ⟨inst, Nat.lt_of_not_le fun beyond => ?_, held, position, known, ⟨rfl, rfl⟩, same⟩
    rw [Graph.moduleOf_of_size_le beyond] at known
    cases known

theorem nodup_builtinSites (graph : Graph) (names : Names) :
    ((builtinSites graph names).map BuiltinSite.part).Nodup := by
  have each (inst : InstanceId) : (builtinsOf graph names inst).map BuiltinSite.part =
      (List.range (graph.moduleOf inst).builtins.length).map (Part.builtin inst) := by
    rw [builtinsOf, List.map_map, List.range_eq_range', ← List.zipIdx_map_snd 0, List.map_map]
    rfl
  simp only [builtinSites, List.map_flatMap, each]
  refine List.nodup_flatMap.2 ⟨fun inst _ => ?_, ?_⟩
  · exact List.nodup_range.map fun _ _ equal => (Part.builtin.inj equal).2
  · refine List.nodup_range.imp fun {inst inst'} apart part one other => ?_
    obtain ⟨_, -, rfl⟩ := List.mem_map.1 one
    obtain ⟨_, -, equal⟩ := List.mem_map.1 other
    exact apart (Part.builtin.inj equal).1.symm

theorem Lists.builtin_iff (lists : map.Lists graph names) {inst : InstanceId} {position : Nat}
    {path : AppPath} :
    (∃ site ∈ map.builtins, site.part = .builtin inst position ∧ site.path = path) ↔
      graph.pathOf? (.builtin inst position) = some path := by
  rw [← mem_builtinSites names, ← lists.builtins]
  simp only [List.mem_map, Prod.mk.injEq]

theorem Lists.shows_builtin (lists : map.Lists graph names) :
    ∀ site ∈ map.builtins, graph.Shows site.part (AppPath.text site.path) :=
  fun site member => ⟨_, lists.builtin_iff.1 ⟨site, member, rfl, rfl⟩, rfl⟩

theorem Lists.nodup_builtins (lists : map.Lists graph names) :
    (map.builtins.map BuiltinSite.part).Nodup := by
  have same := congrArg (List.map Prod.fst) lists.builtins
  rw [List.map_map, List.map_map] at same
  exact same ▸ nodup_builtinSites graph names

theorem Lists.shows_host (lists : map.Lists graph names) :
    ∀ host ∈ map.hosts, graph.Shows host.part (AppPath.text host.path) :=
  fun host member => ⟨_, lists.hosts host member, rfl⟩

theorem nodup_hosts (resolved : resolve graph names = .ok map) :
    (map.hosts.map HostEndpoint.part).Nodup := by
  have sites := (List.nodup_append.1 (sound_of_resolve resolved).2).2.1
  have parts := sites.map (f := fun site : ServiceSite => Part.service site.1 site.2) ?_
  · rwa [List.map_map] at parts
  · rintro ⟨_, _⟩ ⟨_, _⟩ equal
    cases equal
    rfl

def Places (map : ServiceMap) : Part → Prop
  | .inst _ => True
  | .service inst id => (∃ host ∈ map.hosts, host.part = .service inst id) ∨
      ∃ site ∈ map.builtins, ∃ client ∈ site.clients, client.site = (inst, id)
  | .builtin inst position => ∃ site ∈ map.builtins, site.part = .builtin inst position

theorem places_of_resolve (resolved : resolve graph names = .ok map) {part : Part} {path : AppPath}
    (known : graph.pathOf? part = some path) : map.Places part := by
  cases part with
  | inst id => trivial
  | service inst id =>
      obtain ⟨held, present, -⟩ := Option.map_eq_some_iff.1 known
      obtain served | listed := List.mem_append.1 (mem_placed_of_resolve resolved present)
      · obtain ⟨site, member, inside⟩ := List.mem_flatMap.1 served
        obtain ⟨client, inside, same⟩ := List.mem_map.1 inside
        exact .inr ⟨site, member, client, inside, same⟩
      · obtain ⟨host, member, same⟩ := List.mem_map.1 listed
        obtain ⟨rfl, rfl⟩ := Prod.mk.inj same
        exact .inl ⟨host, member, rfl⟩
  | builtin inst position =>
      obtain ⟨site, member, same, -⟩ := (lists_of_resolve resolved).builtin_iff.2 known
      exact ⟨site, member, same⟩

end ServiceMap

structure MemoryLabel where
  path : String
  inst : InstanceId
  reset : Option ExprId
deriving DecidableEq

def Memory.label (memory : Memory) : MemoryLabel := ⟨memory.path, memory.inst, memory.reset⟩

structure RoleLabel where
  name : String
  payload : Ty
  sends : Bool
deriving DecidableEq

def HostRole.label (held : HostRole) : RoleLabel := ⟨held.name, held.payload, held.sends⟩

structure HostLabel where
  path : String
  roles : List RoleLabel
deriving DecidableEq

def Host.label (host : Host) : HostLabel := ⟨host.path, host.roles.map HostRole.label⟩

namespace SimState

def memoryLabels (state : SimState) : List MemoryLabel := state.memories.map Memory.label

def hostLabels (state : SimState) : List HostLabel := state.hosts.map Host.label

def hostPaths (state : SimState) : List String := state.hosts.map (·.path)

/-- The memories and the host endpoints of two states are the same but for what they hold. -/
structure Alike (state other : SimState) : Prop where
  memories : state.memoryLabels = other.memoryLabels
  hosts : state.hostLabels = other.hostLabels

variable {state other : SimState}

theorem Alike.paths (alike : state.Alike other) : state.hostPaths = other.hostPaths := by
  have paths := congrArg (List.map HostLabel.path) alike.hosts
  rwa [hostLabels, hostLabels, List.map_map, List.map_map] at paths

theorem Alike.refl (state : SimState) : state.Alike state := ⟨rfl, rfl⟩

theorem Alike.trans {last : SimState} (first : state.Alike other) (second : other.Alike last) :
    state.Alike last :=
  ⟨first.memories.trans second.memories, first.hosts.trans second.hosts⟩

theorem alike_modifyMemory {memory : Nat} {change : Memory → Memory}
    (same : ∀ held, state.memories[memory]? = some held → (change held).label = held.label) :
    (state.modifyMemory memory change).Alike state :=
  ⟨map_modify_of_same same, rfl⟩

theorem alike_modifyHostRole (host role : Nat) {change : HostRole → HostRole}
    (same : ∀ held, (change held).label = held.label) :
    (state.modifyHostRole host role change).Alike state :=
  ⟨rfl, map_modify_of_same fun held _ =>
    congrArg (HostLabel.mk held.path) (map_modify_of_same fun held _ => same held)⟩

end SimState

theorem Memory.label_modifyPort (memory : Memory) (port : MemoryPort)
    (change : PortState → PortState) : (memory.modifyPort port change).label = memory.label := by
  cases port <;> rfl

theorem Effect.alike_apply (state : SimState) (effect : Effect) :
    (effect.apply state).Alike state := by
  cases effect with
  | retire memory port client =>
      exact SimState.alike_modifyMemory fun held _ => held.label_modifyPort _ _
  | accept memory client request =>
      refine SimState.alike_modifyMemory fun held _ => ?_
      cases request <;> rfl
  | pop host role => exact SimState.alike_modifyHostRole _ _ fun _ => rfl
  | push host role value => exact SimState.alike_modifyHostRole _ _ fun _ => rfl

namespace Simulator

theorem alike_nextState (state : SimState) (effects : List Effect) (high : List Nat) :
    (nextState state effects high).Alike state := by
  have applied : (Effect.applyAll state effects).Alike state := by
    induction effects generalizing state with
    | nil => exact .refl state
    | cons effect rest induction =>
        rw [Effect.applyAll_cons]
        exact (induction _).trans (effect.alike_apply state)
  refine SimState.Alike.trans ?_ applied
  rw [nextState]
  generalize Effect.applyAll state effects = last
  induction high generalizing last with
  | nil => exact .refl last
  | cons memory rest induction =>
      exact (induction _).trans (SimState.alike_modifyMemory fun _ _ => rfl)

variable {sim next : Simulator} {action : Action}

theorem Acts.alike (acts : sim.Acts action next) : next.state.Alike sim.state := by
  cases acts with
  | cycle completed cycle watches all => exact alike_nextState ..
  | stall failed watches => exact .refl _
  | setInput fits => exact ⟨rfl, rfl⟩
  | hostSend found sends fits succeeds => exact SimState.alike_modifyHostRole _ _ fun _ => rfl
  | hostReceive found receives succeeds =>
      exact SimState.alike_modifyHostRole _ _ fun _ => rfl
  | @pokeMemory _ address value _ held poked found present pokes succeeds =>
      refine SimState.alike_modifyMemory fun other known => ?_
      cases present.symm.trans known
      obtain ⟨-, rfl⟩ := (held.answers_poke address value).of_ok pokes
      rfl
  | refused refuses => exact .refl _

theorem alike_after (sim : Simulator) (actions : List Action) :
    (sim.after actions).state.Alike sim.state := by
  induction actions generalizing sim with
  | nil => exact .refl _
  | cons action rest induction => exact (induction (sim.act action)).trans (sim.acts action).alike

theorem label_of_addClients {index : Nat} {clients : List Client} {before after : Memory}
    {entries : List Entry} (added : addClients index before clients = .ok (after, entries)) :
    after.label = before.label := by
  induction clients generalizing before entries with
  | nil =>
      cases added
      rfl
  | cons client rest induction =>
      unfold addClients at added
      split at added
      · cases added
      · rename_i port named
        obtain ⟨⟨full, others⟩, later, made⟩ := exists_of_bind_ok added
        cases made
        rw [induction later, addClient, Memory.label_modifyPort]

theorem path_of_newMemory {graph : Graph} {policy : ArbitrationPolicy} {builtin : BuiltinSite}
    {memory : Memory} (made : newMemory graph policy builtin = .ok memory) :
    memory.path = AppPath.text builtin.path := by
  unfold newMemory at made
  split at made
  · cases made
  · split at made
    · cases made
    · cases made
      rfl

theorem paths_of_newMemories {graph : Graph} {policy : ArbitrationPolicy} {first : Nat}
    {builtins : List BuiltinSite} {memories : List Memory} {entries : List Entry}
    (made : newMemories graph policy first builtins = .ok (memories, entries)) :
    memories.map (·.path) = builtins.map fun site => AppPath.text site.path := by
  induction builtins generalizing first memories entries with
  | nil =>
      cases made
      rfl
  | cons builtin rest induction =>
      obtain ⟨empty, fresh, made⟩ := exists_of_bind_ok made
      obtain ⟨⟨memory, own⟩, joined, made⟩ := exists_of_bind_ok made
      obtain ⟨⟨others, entries'⟩, later, made⟩ := exists_of_bind_ok made
      cases made
      rw [List.map_cons, List.map_cons, induction later, ← path_of_newMemory fresh]
      exact congrArg (· :: _) (congrArg MemoryLabel.path (label_of_addClients joined))

theorem paths_after {design : CompiledDesign} {policy : ArbitrationPolicy} {start : Simulator}
    (made : withPolicy design policy = .ok start) (actions : List Action) :
    (start.after actions).state.memories.map (·.path) =
        design.services.builtins.map (fun site => AppPath.text site.path) ∧
      (start.after actions).state.hosts.map (·.path) =
        design.services.hosts.map fun host => AppPath.text host.path := by
  have alike := alike_after start actions
  obtain ⟨⟨held, entries⟩, memoriesOf, made⟩ := exists_of_bind_ok made
  cases made
  constructor
  · rw [← paths_of_newMemories memoriesOf]
    have paths := congrArg (List.map MemoryLabel.path) alike.memories
    rwa [SimState.memoryLabels, SimState.memoryLabels, List.map_map, List.map_map] at paths
  · refine alike.paths.trans ?_
    rw [SimState.hostPaths, List.map_map]
    rfl

/-- Whatever is declared in a design is found in a simulator of it under its displayed path, and
nothing is found otherwise. -/
structure Finds (design : CompiledDesign) (sim : Simulator) : Prop where
  memories : ∀ text index, sim.memoryIndex text = .ok index ↔
    ∃ site, design.services.builtins[index]? = some site ∧ design.graph.Shows site.part text
  hosts : ∀ text role place index slot, sim.hostRole text role = .ok (place, index, slot) →
    ∃ host, design.services.hosts[place]? = some host ∧ design.graph.Shows host.part text
  unknown : ∀ text role, sim.hostRole text role = .error (.unknownEndpoint text) ↔
    ∀ host ∈ design.services.hosts, ¬ design.graph.Shows host.part text

theorem memoryIndex_eq_ok {text : String} {index : Nat} : sim.memoryIndex text = .ok index ↔
    sim.state.memories.findIdx? (·.path = text) = some index := by
  unfold memoryIndex
  split
  · rename_i found
    rw [found, Except.ok.injEq, Option.some.injEq]
  · rename_i found
    rw [found]
    exact ⟨nofun, nofun⟩

theorem hostRole_cases (sim : Simulator) (text role : String) :
    (sim.state.hosts.findIdx? (·.path = text) = none ∧
      sim.hostRole text role = .error (.unknownEndpoint text)) ∨
    ∃ place, sim.state.hosts.findIdx? (·.path = text) = some place ∧
      sim.hostRole text role ≠ .error (.unknownEndpoint text) ∧
      ∀ other index slot, sim.hostRole text role = .ok (other, index, slot) → other = place := by
  unfold hostRole
  cases found : sim.state.hosts.findIdx? (·.path = text) with
  | none => exact .inl ⟨rfl, rfl⟩
  | some place =>
      obtain ⟨bound, -, -⟩ := List.findIdx?_eq_some_iff_getElem.1 found
      simp only [List.getElem?_eq_getElem bound]
      generalize sim.state.hosts[place] = held
      refine .inr ⟨place, rfl, ?_⟩
      unfold Host.roleIndex
      cases held.roles.findIdx? (·.name = role) with
      | none => exact ⟨nofun, nofun⟩
      | some index =>
          dsimp only [Bind.bind, Except.bind]
          split
          · exact ⟨nofun, nofun⟩
          · refine ⟨nofun, fun other index slot equal => ?_⟩
            cases equal
            rfl

variable {graph : Graph} {root : AppId}

theorem finds_after {design : CompiledDesign} {policy : ArbitrationPolicy} {start : Simulator}
    {names : Names} (addressed : design.graph.Addressed root)
    (resolved : ServiceMap.resolve design.graph names = .ok design.services)
    (made : withPolicy design policy = .ok start) (actions : List Action) :
    Finds design (start.after actions) := by
  obtain ⟨memories, hosts⟩ := paths_after made actions
  have lists := ServiceMap.lists_of_resolve resolved
  have memory (text : String) (index : Nat) :=
    findIdx?_eq_some_of_map text index memories
      (addressed.nodup_text lists.nodup_builtins lists.shows_builtin)
  have host (text : String) (index : Nat) :=
    findIdx?_eq_some_of_map text index hosts
      (addressed.nodup_text (ServiceMap.nodup_hosts resolved) lists.shows_host)
  refine ⟨fun text index => ?_, fun text role place index slot found => ?_, fun text role => ?_⟩
  · rw [memoryIndex_eq_ok, memory]
    refine exists_congr fun site => and_congr_right fun here => ?_
    exact (lists.shows_builtin site (List.mem_of_getElem? here)).iff.symm
  · obtain ⟨-, unknown⟩ | ⟨other, first, -, only⟩ := (start.after actions).hostRole_cases text role
    · cases unknown.symm.trans found
    · cases only place index slot found
      obtain ⟨held, here, same⟩ := (host text place).1 first
      exact ⟨held, here, (lists.shows_host held (List.mem_of_getElem? here)).iff.2 same⟩
  · obtain ⟨none, unknown⟩ | ⟨place, first, known, -⟩ :=
      (start.after actions).hostRole_cases text role
    · refine ⟨fun _ held member shows => ?_, fun _ => unknown⟩
      obtain ⟨place, here⟩ := List.mem_iff_getElem?.1 member
      have found := (host text place).2 ⟨held, here, (lists.shows_host held member).iff.1 shows⟩
      cases none.symm.trans found
    · refine ⟨fun unknown => absurd unknown known, fun absent => ?_⟩
      obtain ⟨held, here, same⟩ := (host text place).1 first
      have member := List.mem_of_getElem? here
      exact absurd ((lists.shows_host held member).iff.2 same) (absent held member)

end Simulator

/-- The parts of a generated graph have different paths, and these are displayed in different ways.
An instance is found under its path and no other one; and once the design is compiled, so are its
host endpoints under the paths displayed for them, and in a simulator at any time the memories and
the host endpoints. -/
theorem Graph.paths_tell_parts_apart {setting : Setting} {top : String} {graph : Graph}
    (generated : (generate setting top).outcome = .ok graph) :
    (∀ part part' path path', graph.pathOf? part = some path → graph.pathOf? part' = some path' →
      part ≠ part' → path ≠ path' ∧ path.text ≠ path'.text) ∧
    (∀ path inst, graph.findInstance? path = some inst ↔
      graph.pathOf? (.inst inst) = some path) ∧
    ∀ name version names backend capabilities policy design warnings,
      CompiledDesign.compile name version graph names backend capabilities policy =
        (.ok design, warnings) →
      (∀ part path, graph.pathOf? part = some path → design.services.Places part) ∧
      (∀ text index, design.services.hostIndex? text = some index ↔
        ∃ host, design.services.hosts[index]? = some host ∧ graph.Shows host.part text) ∧
      ∀ arbitration start actions, Simulator.withPolicy design arbitration = .ok start →
        Simulator.Finds design (start.after actions) := by
  have addressed := Graph.addressed_of_generate generated
  refine ⟨fun part part' path path' known known' differ => ?_,
    fun path inst => addressed.findInstance?_eq_some, ?_⟩
  · have texts : path.text ≠ path'.text :=
      fun same => differ (addressed.unique_text known known' same)
    exact ⟨fun same => texts (congrArg AppPath.text same), texts⟩
  · intro name version names backend capabilities policy design warnings compiled
    obtain ⟨rfl, resolved⟩ := CompiledDesign.resolve_of_compile compiled
    refine ⟨fun part path known => ServiceMap.places_of_resolve resolved known,
      fun text index => ?_, fun arbitration start actions made =>
        Simulator.finds_after addressed resolved made actions⟩
    have lists := ServiceMap.lists_of_resolve resolved
    have distinct := addressed.nodup_text (ServiceMap.nodup_hosts resolved) lists.shows_host
    rw [ServiceMap.hostIndex?, findIdx?_eq_some_of_nodup distinct]
    refine exists_congr fun host => and_congr_right fun here => ?_
    exact (lists.shows_host host (List.mem_of_getElem? here)).iff.symm

theorem MemoryDesign.lookups_of_memory :
    ∃ graph design start, (generate MemoryDesign.hosted "Top").outcome = .ok graph ∧
      Simulator.withPolicy design .roundRobin = .ok start ∧
      start.memoryIndex "Top.mem" = .ok 0 ∧ design.services.hostIndex? "Top.read" = some 1 ∧
      (∃ site, design.services.builtins[0]? = some site ∧ graph.Shows site.part "Top.mem") ∧
      ∃ host, design.services.hosts[1]? = some host ∧ graph.Shows host.part "Top.read" := by
  have facts : ((MemoryDesign.hosted.simulation? "Top").map fun made =>
      ((made.2.memoryIndex "Top.mem").toOption, made.1.services.hostIndex? "Top.read")) =
      some (some 0, some 1) := by
    decide +kernel
  obtain ⟨⟨design, start⟩, simulation, facts⟩ := Option.map_eq_some_iff.1 facts
  obtain ⟨memory, host⟩ := Prod.mk.inj facts
  obtain ⟨graph, generated, compiled, made⟩ := Setting.stages_of_simulation simulation
  have found := eq_ok_of_toOption memory
  obtain ⟨-, -, lookups⟩ := Graph.paths_tell_parts_apart generated
  obtain ⟨-, hosts, finds⟩ := lookups _ _ _ _ _ _ _ _ (Prod.ext compiled rfl)
  have finds := finds _ start [] made
  obtain ⟨rfl, -⟩ := CompiledDesign.resolve_of_compile (Prod.ext compiled rfl)
  exact ⟨_, design, start, generated, made, found, host, (finds.memories _ _).1 found,
    (hosts _ _).1 host⟩

end Elastic
