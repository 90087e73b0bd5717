import Elastic.Compile.Design
import Elastic.Proofs.Build.Tree
import Mathlib.Data.List.Nodup

namespace Elastic

/-! What resolution leaves behind: every service instance of the design has one place, as a client
of a builtin of its service or as an endpoint of the host. -/

abbrev ServiceSite := InstanceId × ServiceInstanceId

def Client.site (client : Client) : ServiceSite := (client.inst, client.serviceInstance)

def HostEndpoint.site (host : HostEndpoint) : ServiceSite := (host.inst, host.serviceInstance)

def Client.Serves (graph : Graph) (builtin : BuiltinSite) (client : Client) : Prop :=
  ∃ held service, (graph.moduleOf client.inst).services.get? client.serviceInstance = some held ∧
    held.service = builtin.service ∧ graph.serviceAt? builtin.service = some service ∧
    service.provider = .builtin ∧
    client.operation = ((service.operations[held.operation]?).map (·.name)).getD ""

def HostEndpoint.Stands (graph : Graph) (host : HostEndpoint) : Prop :=
  ∃ held, (graph.moduleOf host.inst).services.get? host.serviceInstance = some held ∧
    held.side = host.side

namespace ServiceMap

def placed (map : ServiceMap) : List ServiceSite :=
  map.builtins.flatMap (fun builtin => builtin.clients.map Client.site) ++
    map.hosts.map HostEndpoint.site

def Sound (graph : Graph) (map : ServiceMap) : Prop :=
  ∀ builtin ∈ map.builtins, ∀ client ∈ builtin.clients, client.Serves graph builtin

variable {graph : Graph} {map after : ServiceMap}

theorem flatMap_modify_perm {builtins : List BuiltinSite} {index : Nat} (client : Client)
    (bound : index < builtins.length) :
    ((builtins.modify index (BuiltinSite.addClient client)).flatMap
      fun builtin => builtin.clients.map Client.site).Perm
      (client.site :: builtins.flatMap fun builtin => builtin.clients.map Client.site) := by
  induction builtins generalizing index with
  | nil => cases bound
  | cons builtin rest induction =>
      cases index with
      | zero =>
          simp only [List.modify_zero_cons, List.flatMap_cons, BuiltinSite.addClient,
            List.map_append, List.map_cons, List.map_nil, List.append_assoc, List.singleton_append]
          exact List.perm_middle
      | succ index =>
          simp only [List.modify_succ_cons, List.flatMap_cons]
          refine ((induction (Nat.lt_of_succ_lt_succ bound)).append_left _).trans ?_
          exact List.perm_middle

theorem builtinIn?_eq_some {builtins : List BuiltinSite} {service index : Nat} {inst : InstanceId}
    (found : builtinIn? builtins service inst = some index) :
    ∃ builtin, builtins[index]? = some builtin ∧ builtin.service = service := by
  unfold builtinIn? at found
  obtain ⟨bound, holds, -⟩ := List.findIdx?_eq_some_iff_getElem.1 found
  exact ⟨builtins[index], List.getElem?_eq_getElem bound, (of_decide_eq_true holds).2⟩

theorem nearestBuiltin?_eq_some {builtins : List BuiltinSite} {service index : Nat}
    {inst : InstanceId} (found : nearestBuiltin? graph builtins inst service = some index) :
    ∃ builtin, builtins[index]? = some builtin ∧ builtin.service = service := by
  unfold nearestBuiltin? at found
  obtain ⟨around, -, found⟩ := List.exists_of_findSome?_eq_some found
  exact builtinIn?_eq_some found

theorem Sound.addClient (sound : map.Sound graph) {index : Nat} {builtin : BuiltinSite}
    {client : Client} (held : map.builtins[index]? = some builtin)
    (serves : client.Serves graph builtin) (resolutions : List (ServiceSite × Resolution)) :
    Sound graph { map with
      builtins := map.builtins.modify index (BuiltinSite.addClient client)
      resolutions := resolutions } := by
  intro other member inside known
  obtain ⟨place, found⟩ := List.mem_iff_getElem?.1 member
  rw [List.getElem?_modify] at found
  obtain ⟨before, present, rfl⟩ := Option.map_eq_some_iff.1 found
  have earlier := sound before (List.mem_of_getElem? present)
  by_cases here : index = place
  · subst here
    rw [held] at present
    cases present
    simp only [if_true, BuiltinSite.addClient, List.mem_append, List.mem_singleton] at known ⊢
    cases known with
    | inl old => exact earlier inside old
    | inr new =>
        subst new
        exact serves
  · simp only [here, if_false] at known ⊢
    exact earlier inside known

theorem resolveOne_sound {inst : InstanceId} {id : ServiceInstanceId} {held : ServiceInstance}
    (sound : map.Sound graph) (known : (graph.moduleOf inst).services.get? id = some held)
    (resolved : resolveOne graph map inst id held = .ok after) :
    after.Sound graph ∧ after.placed.Perm ((inst, id) :: map.placed) := by
  unfold resolveOne at resolved
  split at resolved
  · cases resolved
  · rename_i service declared
    dsimp only at resolved
    split at resolved
    · cases resolved
      refine ⟨sound, ?_⟩
      simp only [placed, List.map_append, List.map_cons, List.map_nil, ← List.append_assoc]
      exact List.perm_append_singleton _ _
    · rename_i provider
      split at resolved
      · cases resolved
      · rename_i index found
        cases resolved
        obtain ⟨builtin, present, same⟩ := nearestBuiltin?_eq_some found
        have serves : Client.Serves graph builtin
            ⟨inst, id, AppPath.child (graph.pathOf inst) held.appId,
              ((service.operations[held.operation]?).map (·.name)).getD ""⟩ :=
          ⟨held, service, known, same.symm, same ▸ declared, provider, rfl⟩
        refine ⟨sound.addClient present serves _, ?_⟩
        exact (flatMap_modify_perm _ (List.getElem?_eq_some_iff.1 present).1).append_right _

theorem resolveAll_sound {sites : List (InstanceId × ServiceInstanceId × ServiceInstance)}
    (sound : map.Sound graph)
    (known : ∀ inst id held, (inst, id, held) ∈ sites →
      (graph.moduleOf inst).services.get? id = some held)
    (resolved : resolveAll graph map sites = .ok after) :
    after.Sound graph ∧
      after.placed.Perm (sites.map (fun site => (site.1, site.2.1)) ++ map.placed) := by
  induction sites generalizing map with
  | nil =>
      cases resolved
      exact ⟨sound, .refl _⟩
  | cons site rest induction =>
      obtain ⟨inst, id, held⟩ := site
      unfold resolveAll at resolved
      split at resolved
      · cases resolved
      · rename_i next first
        obtain ⟨sound, one⟩ :=
          resolveOne_sound sound (known inst id held (List.mem_cons_self ..)) first
        obtain ⟨sound, others⟩ := induction sound
          (fun inst id held member => known inst id held (List.mem_cons_of_mem _ member)) resolved
        refine ⟨sound, others.trans ?_⟩
        refine (one.append_left _).trans ?_
        exact List.perm_middle

theorem mem_serviceSites {inst : InstanceId} {id : ServiceInstanceId} {held : ServiceInstance}
    (member : (inst, id, held) ∈ serviceSites graph) :
    (graph.moduleOf inst).services.get? id = some held := by
  obtain ⟨inst', -, inside⟩ := List.mem_flatMap.1 member
  obtain ⟨⟨id', held'⟩, entry, equal⟩ := List.mem_map.1 inside
  cases equal
  exact Arena.mem_entries.1 entry

theorem mem_serviceSites_of_get? {inst : InstanceId} {id : ServiceInstanceId}
    {held : ServiceInstance} (known : (graph.moduleOf inst).services.get? id = some held) :
    (inst, id, held) ∈ serviceSites graph := by
  refine List.mem_flatMap.2 ⟨inst, List.mem_range.2 (Nat.lt_of_not_le fun beyond => ?_), ?_⟩
  · rw [Graph.moduleOf_of_size_le beyond] at known
    cases known
  · exact List.mem_map.2 ⟨(id, held), Arena.mem_entries.2 known, rfl⟩

theorem nodup_serviceSites (graph : Graph) :
    ((serviceSites graph).map fun site => (site.1, site.2.1)).Nodup := by
  have each (inst : InstanceId) :
      ((graph.moduleOf inst).services.entries.map fun entry => (inst, entry.1)) =
        (graph.moduleOf inst).services.ids.map fun id => (inst, id) := by
    rw [← Arena.map_fst_entries, List.map_map]
    rfl
  simp only [serviceSites, List.map_flatMap, List.map_map, Function.comp_def, each]
  refine List.nodup_flatMap.2 ⟨fun inst _ => ?_, ?_⟩
  · exact List.nodup_range.map fun id id' equal => (Prod.mk.inj equal).2
  · refine List.nodup_range.imp fun {inst inst'} apart => ?_
    intro site one other
    obtain ⟨id, -, rfl⟩ := List.mem_map.1 one
    obtain ⟨id', -, equal⟩ := List.mem_map.1 other
    exact apart (Prod.mk.inj equal).1.symm

theorem placed_builtinSites (graph : Graph) (names : Names) :
    placed { builtins := builtinSites graph names } = [] ∧
      Sound graph { builtins := builtinSites graph names } := by
  have idle : ∀ builtin ∈ builtinSites graph names, builtin.clients = [] := by
    intro builtin member
    obtain ⟨inst, -, inside⟩ := List.mem_flatMap.1 member
    obtain ⟨entry, -, rfl⟩ := List.mem_map.1 inside
    rfl
  constructor
  · simp only [placed, List.map_nil, List.append_nil, List.flatMap_eq_nil_iff]
    intro builtin member
    rw [idle builtin member, List.map_nil]
  · intro builtin member client inside
    rw [idle builtin member] at inside
    cases inside

theorem resolveOne_stands {inst : InstanceId} {id : ServiceInstanceId} {held : ServiceInstance}
    (stands : ∀ host ∈ map.hosts, host.Stands graph)
    (known : (graph.moduleOf inst).services.get? id = some held)
    (resolved : resolveOne graph map inst id held = .ok after) :
    ∀ host ∈ after.hosts, host.Stands graph := by
  unfold resolveOne at resolved
  split at resolved
  · cases resolved
  · dsimp only at resolved
    split at resolved
    · cases resolved
      intro host member
      obtain earlier | last := List.mem_append.1 member
      · exact stands host earlier
      · obtain rfl := List.mem_singleton.1 last
        exact ⟨held, known, rfl⟩
    · split at resolved
      · cases resolved
      · cases resolved
        exact stands

theorem resolveAll_stands {sites : List (InstanceId × ServiceInstanceId × ServiceInstance)}
    (stands : ∀ host ∈ map.hosts, host.Stands graph)
    (known : ∀ inst id held, (inst, id, held) ∈ sites →
      (graph.moduleOf inst).services.get? id = some held)
    (resolved : resolveAll graph map sites = .ok after) :
    ∀ host ∈ after.hosts, host.Stands graph := by
  induction sites generalizing map with
  | nil =>
      cases resolved
      exact stands
  | cons site rest induction =>
      obtain ⟨inst, id, held⟩ := site
      unfold resolveAll at resolved
      split at resolved
      · cases resolved
      · rename_i next first
        exact induction (resolveOne_stands stands (known inst id held List.mem_cons_self) first)
          (fun inst id held member => known inst id held (List.mem_cons_of_mem _ member)) resolved

theorem stands_of_resolve {names : Names} (resolved : resolve graph names = .ok map) :
    ∀ host ∈ map.hosts, host.Stands graph :=
  resolveAll_stands (fun _ member => absurd member List.not_mem_nil)
    (fun _ _ _ => mem_serviceSites) resolved

theorem placed_of_resolve {names : Names} (resolved : resolve graph names = .ok map) :
    map.Sound graph ∧
      map.placed.Perm ((serviceSites graph).map fun site => (site.1, site.2.1)) := by
  obtain ⟨idle, sound⟩ := placed_builtinSites graph names
  have all := resolveAll_sound sound (fun _ _ _ => mem_serviceSites) resolved
  rwa [idle, List.append_nil] at all

theorem mem_placed_of_resolve {names : Names} (resolved : resolve graph names = .ok map)
    {inst : InstanceId} {id : ServiceInstanceId} {held : ServiceInstance}
    (known : (graph.moduleOf inst).services.get? id = some held) : (inst, id) ∈ map.placed :=
  (placed_of_resolve resolved).2.mem_iff.2
    (List.mem_map.2 ⟨_, mem_serviceSites_of_get? known, rfl⟩)

/-- No service instance has two places, and every client of a builtin is of the builtin's
service. -/
theorem sound_of_resolve {names : Names} (resolved : resolve graph names = .ok map) :
    map.Sound graph ∧ map.placed.Nodup := by
  obtain ⟨sound, perm⟩ := placed_of_resolve resolved
  exact ⟨sound, perm.nodup_iff.2 (nodup_serviceSites graph)⟩

end ServiceMap

theorem Artifact.find?_shared {path name : String} {graph : Graph} {manifest : Manifest}
    {rest : List Artifact} (other : path ≠ "esi_system_manifest.json")
    (apart : path.toList.head? ≠ some 'h') :
    (shared name graph manifest ++ rest).find? (·.path = path) =
      rest.find? (·.path = path) := by
  have design : "hw/" ++ name ++ ".weft.json" ≠ path := by
    rintro rfl
    rw [String.toList_append, String.toList_append] at apart
    exact apart rfl
  simp [shared, design, Ne.symm other]

namespace CompiledDesign

variable {name version : String} {graph : Graph} {names : Names} {backend : BackendPreset}
  {capabilities : Capabilities} {policy : ArbitrationPolicy} {design : CompiledDesign}
  {warnings : List Diagnostic}

theorem made_of_compile (compiled :
      compile name version graph names backend capabilities policy = (.ok design, warnings)) :
    ∃ map, ServiceMap.resolve graph names = .ok map ∧
      ofResolved name version graph names backend policy map = .ok design := by
  unfold compile at compiled
  split at compiled
  · cases compiled
  · split at compiled
    · cases compiled
    · rename_i map resolved
      exact ⟨map, resolved, (Prod.mk.inj compiled).1⟩

theorem parts_of_ofResolved {map : ServiceMap}
    (made : ofResolved name version graph names backend policy map = .ok design) :
    (design.graph = graph ∧ design.names = names ∧ design.services = map) ∧
      Artifact.lower backend name policy graph map design.manifest = .ok design.artifacts := by
  unfold ofResolved at made
  simp only [bind, Except.bind, pure, Except.pure] at made
  split at made
  · cases made
  · rename_i artifacts lowered
    cases made
    exact ⟨⟨rfl, rfl, rfl⟩, lowered⟩

theorem parts_of_compile (compiled :
      compile name version graph names backend capabilities policy = (.ok design, warnings)) :
    design.graph = graph ∧ design.names = names ∧
      ServiceMap.resolve graph names = .ok design.services := by
  obtain ⟨map, resolved, made⟩ := made_of_compile compiled
  obtain ⟨⟨own, called, rfl⟩, -⟩ := parts_of_ofResolved made
  exact ⟨own, called, resolved⟩

theorem lower_of_compile (compiled :
      compile name version graph names backend capabilities policy = (.ok design, warnings)) :
    Artifact.lower backend name policy graph design.services design.manifest =
      .ok design.artifacts := by
  obtain ⟨map, -, made⟩ := made_of_compile compiled
  obtain ⟨⟨-, -, rfl⟩, lowered⟩ := parts_of_ofResolved made
  exact lowered

theorem resolve_of_compile (compiled :
      compile name version graph names backend capabilities policy = (.ok design, warnings)) :
    design.graph = graph ∧ ServiceMap.resolve graph names = .ok design.services :=
  ⟨(parts_of_compile compiled).1, (parts_of_compile compiled).2.2⟩

theorem names_of_compile (compiled :
      compile name version graph names backend capabilities policy = (.ok design, warnings)) :
    design.names = names :=
  (parts_of_compile compiled).2.1

end CompiledDesign

end Elastic
