import Elastic.Proofs.Compile.Outcome

namespace Elastic

/-! Which builtin a service instance is resolved to, and in which order the clients of a builtin and
the endpoints of the host are listed. -/

def Precedes (first second : Nat × Nat) : Prop :=
  first.1 < second.1 ∨ first.1 = second.1 ∧ first.2 < second.2

theorem Precedes.irrefl {place : Nat × Nat} : ¬ Precedes place place := by
  simp [Precedes]

theorem Precedes.asymm {first second : Nat × Nat} (before : Precedes first second) :
    ¬ Precedes second first := by
  unfold Precedes at before ⊢
  omega

theorem pairwise_precedes {items : InstanceId → List α} (place : α → Nat × Nat) (size : Nat)
    (here : ∀ inst, ∀ item ∈ items inst, (place item).1 = inst)
    (sorted : ∀ inst, (items inst).Pairwise fun first second =>
      (place first).2 < (place second).2) :
    ((List.range size).flatMap items).Pairwise fun first second =>
      Precedes (place first) (place second) := by
  refine List.pairwise_flatMap.2 ⟨fun inst _ => ?_, ?_⟩
  · refine (sorted inst).imp_of_mem fun {first second} inside inside' before => .inr ⟨?_, before⟩
    rw [here inst first inside, here inst second inside']
  · refine List.pairwise_lt_range.imp fun {inst inst'} before first inside second inside' => .inl ?_
    rwa [here inst first inside, here inst' second inside']

namespace Graph

variable {graph : Graph} {top : ModuleId}

/-- The nearest builtin of a service around an instance: no instance that is strictly nearer has
one, and in its own instance no earlier one is of the service. -/
structure Nearest (graph : Graph) (inst : InstanceId) (service : Nat) (outer : InstanceId)
    (position : Nat) : Prop where
  around : graph.Encloses outer inst
  realizes : ∃ builtin, (graph.moduleOf outer).builtins[position]? = some builtin ∧
    builtin.service = service
  first : ∀ earlier < position, ∀ builtin,
    (graph.moduleOf outer).builtins[earlier]? = some builtin → builtin.service ≠ service
  nearer : ∀ between, graph.Encloses between inst → graph.Encloses outer between →
    between ≠ outer → ∀ builtin ∈ (graph.moduleOf between).builtins, builtin.service ≠ service

theorem Rooted.le_of_encloses (rooted : graph.Rooted top) {outer inner : InstanceId}
    (encloses : graph.Encloses outer inner) : outer ≤ inner := by
  induction encloses with
  | self => exact Nat.le_refl _
  | inside around _ induction =>
      exact Nat.le_trans induction (Nat.le_of_lt (rooted.parentOf_lt around))

theorem Rooted.pairwise_chain (rooted : graph.Rooted top) (fuel : Nat) (inst : InstanceId) :
    (graph.chain fuel inst).Pairwise fun inner outer => outer < inner := by
  induction fuel generalizing inst with
  | zero => exact List.pairwise_singleton _ _
  | succ fuel induction =>
      unfold chain
      split
      · exact List.pairwise_singleton _ _
      · rename_i parent around
        refine List.pairwise_cons.2 ⟨fun outer member => ?_, induction parent⟩
        exact Nat.lt_of_le_of_lt (rooted.le_of_encloses (encloses_of_mem_chain member))
          (rooted.parentOf_lt around)

end Graph

namespace ServiceMap

variable {graph : Graph} {names : Names} {top : ModuleId} {map after : ServiceMap}
  {inst : InstanceId} {id : ServiceInstanceId} {held : ServiceInstance}

def siteOf (site : InstanceId × ServiceInstanceId × ServiceInstance) : ServiceSite :=
  (site.1, site.2.1)

theorem pairwise_serviceSites (graph : Graph) :
    (serviceSites graph).Pairwise fun first second => Precedes (siteOf first) (siteOf second) := by
  refine pairwise_precedes siteOf _
    (fun inst site inside => ?_) fun inst => ?_
  · obtain ⟨entry, -, rfl⟩ := List.mem_map.1 inside
    rfl
  · have ids : ((graph.moduleOf inst).services.entries.map (·.1)).Pairwise (· < ·) := by
      rw [Arena.map_fst_entries]
      exact List.pairwise_lt_range
    exact List.pairwise_map.2 (List.pairwise_map.1 ids)

def idle (site : BuiltinSite) : BuiltinSite :=
  { site with clients := [] }

def place (site : BuiltinSite) : Nat × Nat := (site.inst, site.position)

theorem pairwise_builtinSites (graph : Graph) (names : Names) :
    (builtinSites graph names).Pairwise fun first second =>
      Precedes (place first) (place second) := by
  refine pairwise_precedes place _
    (fun inst site inside => ?_) fun inst => ?_
  · obtain ⟨entry, -, rfl⟩ := List.mem_map.1 inside
    rfl
  · have positions : ((graph.moduleOf inst).builtins.zipIdx.map (·.2)).Pairwise (· < ·) := by
      rw [List.zipIdx_map_snd]
      exact List.pairwise_lt_range'
    exact List.pairwise_map.2 (List.pairwise_map.1 positions)

theorem declared_of_mem_builtinSites {site : BuiltinSite}
    (member : site ∈ builtinSites graph names) :
    ∃ builtin, (graph.moduleOf site.inst).builtins[site.position]? = some builtin ∧
      builtin.service = site.service := by
  obtain ⟨inst, -, inside⟩ := List.mem_flatMap.1 member
  obtain ⟨⟨builtin, position⟩, entry, rfl⟩ := List.mem_map.1 inside
  exact ⟨builtin, List.mk_mem_zipIdx_iff_getElem?.1 entry, rfl⟩

theorem exists_mem_builtinSites (names : Names) {position : Nat} {builtin : Builtin}
    (declared : (graph.moduleOf inst).builtins[position]? = some builtin) :
    ∃ site ∈ builtinSites graph names, place site = (inst, position) ∧
      site.service = builtin.service := by
  refine ⟨_, List.mem_flatMap.2 ⟨inst, List.mem_range.2 (Nat.lt_of_not_le fun beyond => ?_),
    List.mem_map.2 ⟨(builtin, position), List.mk_mem_zipIdx_iff_getElem?.2 declared, rfl⟩⟩, rfl,
    rfl⟩
  rw [Graph.moduleOf_of_size_le beyond] at declared
  cases declared

theorem idle_addClient (builtins : List BuiltinSite) (index : Nat) (client : Client) :
    (builtins.modify index (BuiltinSite.addClient client)).map idle = builtins.map idle := by
  refine List.ext_getElem? fun other => ?_
  rw [List.getElem?_map, List.getElem?_map, List.getElem?_modify]
  cases builtins[other]? with
  | none => rfl
  | some site =>
      dsimp only [Option.map_some, Option.map_eq_map]
      split <;> rfl

structure Retains (graph : Graph) (names : Names) (map : ServiceMap) : Prop where
  builtins : map.builtins.map idle = builtinSites graph names

namespace Retains

theorem declared (retains : map.Retains graph names) {site : BuiltinSite}
    (member : site ∈ map.builtins) :
    ∃ builtin, (graph.moduleOf site.inst).builtins[site.position]? = some builtin ∧
      builtin.service = site.service := by
  have listed : idle site ∈ builtinSites graph names :=
    retains.builtins ▸ List.mem_map_of_mem member
  obtain ⟨builtin, declared, same⟩ := declared_of_mem_builtinSites listed
  exact ⟨builtin, declared, same⟩

theorem exists_mem (retains : map.Retains graph names) {position : Nat} {builtin : Builtin}
    (declared : (graph.moduleOf inst).builtins[position]? = some builtin) :
    ∃ site ∈ map.builtins, place site = (inst, position) ∧ site.service = builtin.service := by
  obtain ⟨site, member, placed, same⟩ := exists_mem_builtinSites names declared
  rw [← retains.builtins] at member
  obtain ⟨held, inside, rfl⟩ := List.mem_map.1 member
  exact ⟨held, inside, placed, same⟩

theorem pairwise (retains : map.Retains graph names) :
    map.builtins.Pairwise fun first second => Precedes (place first) (place second) := by
  have sorted := pairwise_builtinSites graph names
  rw [← retains.builtins, List.pairwise_map] at sorted
  exact sorted

/-- The builtin that is found for a service instance is the nearest one of its service. -/
theorem nearest (retains : map.Retains graph names) (rooted : graph.Rooted top)
    (bound : inst < graph.instances.size) {service index : Nat}
    (found : nearestBuiltin? graph map.builtins inst service = some index) :
    ∃ site, map.builtins[index]? = some site ∧ site.service = service ∧
      graph.Nearest inst service site.inst site.position := by
  obtain ⟨inner, outer, others, chain, here, nothing⟩ := List.findSome?_eq_some_iff.1 found
  obtain ⟨within, holds, before⟩ := List.findIdx?_eq_some_iff_getElem.1 here
  obtain ⟨rfl, rfl⟩ : map.builtins[index].inst = outer ∧ map.builtins[index].service = service :=
    of_decide_eq_true holds
  have member := List.getElem_mem within
  have around : map.builtins[index].inst ∈ graph.ancestors inst := by
    rw [chain]
    exact List.mem_append_right _ List.mem_cons_self
  refine ⟨_, List.getElem?_eq_getElem within, rfl, (rooted.mem_ancestors bound).1 around,
    retains.declared member, ?_, ?_⟩
  · intro earlier smaller builtin declared same
    obtain ⟨site, inside, placed, service⟩ := retains.exists_mem declared
    obtain ⟨place', bound', rfl⟩ := List.mem_iff_getElem.1 inside
    obtain ⟨inst', position'⟩ := Prod.mk.inj placed
    rcases Nat.lt_trichotomy place' index with less | rfl | greater
    · have fails := before place' less
      simp [inst', service, same] at fails
    · exact absurd position' (Nat.ne_of_gt smaller)
    · have after := List.pairwise_iff_getElem.1 retains.pairwise _ _ within bound' greater
      rw [placed] at after
      rcases after with less | ⟨-, less⟩
      · exact Nat.lt_irrefl _ less
      · exact Nat.lt_asymm smaller less
  · intro between inside encloses apart builtin declared same
    have nearer : between ∈ inner := by
      have listed := (rooted.mem_ancestors bound).2 inside
      have farther := rooted.pairwise_chain graph.instances.size inst
      rw [chain] at listed
      change (graph.ancestors inst).Pairwise _ at farther
      rw [chain] at farther
      rcases List.mem_append.1 listed with found | behind
      · exact found
      · rcases List.mem_cons.1 behind with equal | beyond
        · exact absurd equal apart
        · have less := (List.pairwise_cons.1 (List.pairwise_append.1 farther).2.1).1 _ beyond
          exact absurd less (Nat.not_lt.2 (rooted.le_of_encloses encloses))
    obtain ⟨position, bound', rfl⟩ := List.mem_iff_getElem.1 declared
    obtain ⟨site, known, placed, service⟩ :=
      retains.exists_mem (List.getElem?_eq_getElem bound')
    have fails := List.findIdx?_eq_none_iff.1 (nothing between nearer) site known
    simp [(Prod.mk.inj placed).1, service, same] at fails

end Retains

/-- What a service instance is resolved to: an endpoint of the host, or the nearest builtin of its
service, which has it for a client. -/
inductive Resolves (graph : Graph) (map : ServiceMap) (inst : InstanceId) (id : ServiceInstanceId)
    (held : ServiceInstance) : Resolution → Prop
  | host {service : Service} {index : Nat} (known : graph.serviceAt? held.service = some service)
      (provider : service.provider = .host)
      (endpoint : map.hosts[index]? = some ⟨inst, id, AppPath.child (graph.pathOf inst) held.appId,
        service.name, ((service.operations[held.operation]?).map (·.name)).getD "", held.side⟩) :
      Resolves graph map inst id held (.host index)
  | builtin {service : Service} {index : Nat} {site : BuiltinSite}
      (known : graph.serviceAt? held.service = some service)
      (provider : service.provider = .builtin)
      (present : map.builtins[index]? = some site) (realizes : site.service = held.service)
      (nearest : graph.Nearest inst held.service site.inst site.position)
      (client : ⟨inst, id, AppPath.child (graph.pathOf inst) held.appId,
        ((service.operations[held.operation]?).map (·.name)).getD ""⟩ ∈ site.clients) :
      Resolves graph map inst id held (.builtin index)

/-- A map under way, with an entry for each of the service instances that were looked at, in their
order, and lists that agree with its entries. -/
structure Covers (graph : Graph) (names : Names)
    (sites : List (InstanceId × ServiceInstanceId × ServiceInstance)) (map : ServiceMap) :
    Prop where
  retains : map.Retains graph names
  keys : map.resolutions.map (·.1) = sites.map siteOf
  entries : ∀ site ∈ sites, ∃ resolution, (siteOf site, resolution) ∈ map.resolutions ∧
    map.Resolves graph site.1 site.2.1 site.2.2 resolution
  hosts : ∀ index host, map.hosts[index]? = some host →
    (host.site, .host index) ∈ map.resolutions
  clients : ∀ index site, map.builtins[index]? = some site → ∀ client ∈ site.clients,
    (client.site, .builtin index) ∈ map.resolutions
  hostOrder : (map.hosts.map HostEndpoint.site).Sublist (sites.map siteOf)
  clientOrder : ∀ site ∈ map.builtins, (site.clients.map Client.site).Sublist (sites.map siteOf)

variable {sites : List (InstanceId × ServiceInstanceId × ServiceInstance)}

theorem covers_start (graph : Graph) (names : Names) :
    Covers graph names [] { builtins := builtinSites graph names } := by
  have none (site : BuiltinSite) (member : site ∈ builtinSites graph names) :
      site.clients = [] := by
    obtain ⟨inst, -, inside⟩ := List.mem_flatMap.1 member
    obtain ⟨entry, -, rfl⟩ := List.mem_map.1 inside
    rfl
  refine ⟨⟨?_⟩, rfl, nofun, nofun, fun index site held client member => ?_, .slnil,
    fun site member => ?_⟩
  · have same : (builtinSites graph names).map idle = (builtinSites graph names).map id := by
      refine List.map_congr_left fun site member => ?_
      rw [idle, ← none site member, id]
    exact same.trans (List.map_id _)
  · rw [none site (List.mem_of_getElem? held)] at member
    cases member
  · rw [none site member]
    exact List.nil_sublist _

theorem Resolves.addHost {resolution : Resolution}
    (resolves : map.Resolves graph inst id held resolution) (host : HostEndpoint)
    (resolutions : List (ServiceSite × Resolution)) :
    Resolves graph { map with hosts := map.hosts ++ [host], resolutions := resolutions } inst id
      held resolution := by
  cases resolves with
  | host known provider endpoint =>
      refine .host known provider ?_
      rw [List.getElem?_append_left (List.getElem?_eq_some_iff.1 endpoint).1]
      exact endpoint
  | builtin known provider present realizes nearest client =>
      exact .builtin known provider present realizes nearest client

theorem getElem?_addClient {builtins : List BuiltinSite} {other : Nat} {site : BuiltinSite}
    (index : Nat) (client : Client) :
    (builtins.modify index (BuiltinSite.addClient client))[other]? = some site ↔
      ∃ before, builtins[other]? = some before ∧
        (if index = other then BuiltinSite.addClient client before else before) = site := by
  rw [List.getElem?_modify]
  exact Option.map_eq_some_iff

theorem Resolves.addClient {resolution : Resolution}
    (resolves : map.Resolves graph inst id held resolution) (index : Nat) (client : Client)
    (resolutions : List (ServiceSite × Resolution)) :
    Resolves graph { map with
      builtins := map.builtins.modify index (BuiltinSite.addClient client)
      resolutions := resolutions } inst id held resolution := by
  cases resolves with
  | host known provider endpoint => exact .host known provider endpoint
  | builtin known provider present realizes nearest member =>
      have after := (getElem?_addClient index client).2 ⟨_, present, rfl⟩
      refine .builtin known provider after ?_ ?_ ?_ <;> split
      · exact realizes
      · exact realizes
      · exact nearest
      · exact nearest
      · exact List.mem_append_left _ member
      · exact member

theorem Covers.addHost (covers : map.Covers graph names sites) {service : Service}
    (known : graph.serviceAt? held.service = some service) (provider : service.provider = .host) :
    Covers graph names (sites ++ [(inst, id, held)]) { map with
      hosts := map.hosts ++ [⟨inst, id, AppPath.child (graph.pathOf inst) held.appId, service.name,
        ((service.operations[held.operation]?).map (·.name)).getD "", held.side⟩]
      resolutions := map.resolutions ++ [((inst, id), .host map.hosts.length)] } := by
  refine ⟨⟨covers.retains.builtins⟩, ?_, ?_, ?_, ?_, ?_, ?_⟩
  · rw [List.map_append, List.map_append, covers.keys]
    rfl
  · refine List.forall_mem_append.2 ⟨fun site member => ?_, List.forall_mem_singleton.2 ?_⟩
    · obtain ⟨resolution, entry, resolves⟩ := covers.entries site member
      exact ⟨resolution, List.mem_append_left _ entry, resolves.addHost _ _⟩
    · exact ⟨_, List.mem_append_right _ (List.mem_singleton_self _),
        .host known provider List.getElem?_concat_length⟩
  · intro index host listed
    rw [List.getElem?_append] at listed
    split at listed
    · exact List.mem_append_left _ (covers.hosts index host listed)
    · rename_i beyond
      rw [List.getElem?_singleton] at listed
      split at listed
      · rename_i last
        cases listed
        rw [Nat.le_antisymm (Nat.sub_eq_zero_iff_le.1 last) (Nat.not_lt.1 beyond)]
        exact List.mem_append_right _ (List.mem_singleton_self _)
      · cases listed
  · exact fun index site present client member =>
      List.mem_append_left _ (covers.clients index site present client member)
  · rw [List.map_append, List.map_append]
    exact covers.hostOrder.append (.refl _)
  · intro site member
    rw [List.map_append]
    exact (covers.clientOrder site member).trans (List.sublist_append_left _ _)

theorem Covers.addClient (covers : map.Covers graph names sites) {service : Service} {index : Nat}
    {site : BuiltinSite} (known : graph.serviceAt? held.service = some service)
    (provider : service.provider = .builtin) (present : map.builtins[index]? = some site)
    (realizes : site.service = held.service)
    (nearest : graph.Nearest inst held.service site.inst site.position) :
    Covers graph names (sites ++ [(inst, id, held)]) { map with
      builtins := map.builtins.modify index (BuiltinSite.addClient
        ⟨inst, id, AppPath.child (graph.pathOf inst) held.appId,
          ((service.operations[held.operation]?).map (·.name)).getD ""⟩)
      resolutions := map.resolutions ++ [((inst, id), .builtin index)] } := by
  refine ⟨⟨?_⟩, ?_, ?_, ?_, ?_, ?_, ?_⟩
  · exact (idle_addClient map.builtins _ _).trans covers.retains.builtins
  · rw [List.map_append, List.map_append, covers.keys]
    rfl
  · refine List.forall_mem_append.2 ⟨fun site member => ?_, List.forall_mem_singleton.2 ?_⟩
    · obtain ⟨resolution, entry, resolves⟩ := covers.entries site member
      exact ⟨resolution, List.mem_append_left _ entry, resolves.addClient _ _ _⟩
    · have after := (getElem?_addClient index ⟨inst, id,
        AppPath.child (graph.pathOf inst) held.appId,
        ((service.operations[held.operation]?).map (·.name)).getD ""⟩).2 ⟨_, present, if_pos rfl⟩
      refine ⟨_, List.mem_append_right _ (List.mem_singleton_self _),
        .builtin known provider after ?_ ?_ ?_⟩
      · exact realizes
      · exact nearest
      · exact List.mem_append_right _ (List.mem_singleton_self _)
  · exact fun index host listed => List.mem_append_left _ (covers.hosts index host listed)
  · intro other site' listed client member
    obtain ⟨before, known', rfl⟩ := (getElem?_addClient _ _).1 listed
    split at member
    · rename_i same
      rcases List.mem_append.1 member with old | new
      · exact List.mem_append_left _ (covers.clients other before known' client old)
      · rw [List.mem_singleton.1 new, ← same]
        exact List.mem_append_right _ (List.mem_singleton_self _)
    · exact List.mem_append_left _ (covers.clients other before known' client member)
  · rw [List.map_append]
    exact covers.hostOrder.trans (List.sublist_append_left _ _)
  · intro site' member
    obtain ⟨other, listed⟩ := List.mem_iff_getElem?.1 member
    obtain ⟨before, known', rfl⟩ := (getElem?_addClient _ _).1 listed
    have order := covers.clientOrder before (List.mem_of_getElem? known')
    rw [List.map_append]
    split
    · rw [BuiltinSite.addClient, List.map_append]
      exact order.append (.refl _)
    · exact order.trans (List.sublist_append_left _ _)

theorem Covers.resolveOne (covers : map.Covers graph names sites) (rooted : graph.Rooted top)
    (bound : inst < graph.instances.size)
    (resolved : resolveOne graph map inst id held = .ok after) :
    after.Covers graph names (sites ++ [(inst, id, held)]) := by
  unfold ServiceMap.resolveOne at resolved
  split at resolved
  · cases resolved
  · rename_i service known
    dsimp only at resolved
    split at resolved
    · rename_i provider
      cases resolved
      exact covers.addHost known provider
    · rename_i provider
      split at resolved
      · cases resolved
      · rename_i index found
        cases resolved
        obtain ⟨site, present, realizes, nearest⟩ := covers.retains.nearest rooted bound found
        exact covers.addClient known provider present realizes nearest

theorem Covers.resolveAll {rest : List (InstanceId × ServiceInstanceId × ServiceInstance)}
    (covers : map.Covers graph names sites) (rooted : graph.Rooted top)
    (bounds : ∀ site ∈ rest, site.1 < graph.instances.size)
    (resolved : resolveAll graph map rest = .ok after) :
    after.Covers graph names (sites ++ rest) := by
  induction rest generalizing map sites with
  | nil =>
      cases resolved
      rw [List.append_nil]
      exact covers
  | cons site rest induction =>
      obtain ⟨inst, id, held⟩ := site
      unfold ServiceMap.resolveAll at resolved
      split at resolved
      · cases resolved
      · rename_i next first
        have one := covers.resolveOne rooted (bounds _ List.mem_cons_self) first
        have all := induction one (fun site member => bounds site (List.mem_cons_of_mem _ member))
          resolved
        rwa [List.append_assoc] at all

theorem resolution?_eq_some (distinct : (map.resolutions.map (·.1)).Nodup)
    {resolution : Resolution} (entry : ((inst, id), resolution) ∈ map.resolutions) :
    map.resolution? inst id = some resolution := by
  unfold resolution?
  revert distinct entry
  generalize map.resolutions = entries
  intro distinct entry
  induction entries with
  | nil => cases entry
  | cons first rest induction =>
      obtain ⟨apart, distinct⟩ := List.nodup_cons.1 distinct
      rcases List.mem_cons.1 entry with rfl | inside
      · simp
      · have other : first.1 ≠ (inst, id) := fun same =>
          apart (List.mem_map.2 ⟨_, inside, same.symm⟩)
        rw [List.find?_cons_of_neg (by simpa using other)]
        exact induction distinct inside

/-- Every service instance of the graph is resolved once, and the lists of clients and of endpoints
agree with what it is resolved to, in the order of the tree. -/
structure Assigns (graph : Graph) (names : Names) (map : ServiceMap) : Prop where
  builtins : map.builtins.map idle = builtinSites graph names
  once : (map.resolutions.map (·.1)).Nodup
  every : ∀ inst id, (inst, id) ∈ map.resolutions.map (·.1) ↔
    ∃ held, (graph.moduleOf inst).services.get? id = some held
  resolved : ∀ inst id held, (graph.moduleOf inst).services.get? id = some held →
    ∃ resolution, map.resolution? inst id = some resolution ∧
      map.Resolves graph inst id held resolution
  hosts : ∀ index host, map.hosts[index]? = some host →
    map.resolution? host.inst host.serviceInstance = some (.host index)
  clients : ∀ index site, map.builtins[index]? = some site → ∀ client ∈ site.clients,
    map.resolution? client.inst client.serviceInstance = some (.builtin index)
  hostOrder : map.hosts.Pairwise fun first second => Precedes first.site second.site
  clientOrder : ∀ site ∈ map.builtins,
    site.clients.Pairwise fun first second => Precedes first.site second.site

theorem pairwise_siteOf (graph : Graph) :
    ((serviceSites graph).map siteOf).Pairwise Precedes :=
  List.pairwise_map.2 (pairwise_serviceSites graph)

theorem Covers.assigns (covers : map.Covers graph names (serviceSites graph)) :
    map.Assigns graph names := by
  have sorted := pairwise_siteOf graph
  have distinct : (map.resolutions.map (·.1)).Nodup := by
    rw [covers.keys]
    exact nodup_serviceSites graph
  refine ⟨covers.retains.builtins, distinct, fun inst id => ?_, fun inst id held known => ?_,
    fun index host listed => ?_, fun index site listed client member => ?_, ?_,
    fun site member => ?_⟩
  · rw [covers.keys, List.mem_map]
    constructor
    · rintro ⟨⟨inst', id', held⟩, member, same⟩
      cases same
      exact ⟨held, mem_serviceSites member⟩
    · rintro ⟨held, known⟩
      exact ⟨_, mem_serviceSites_of_get? known, rfl⟩
  · obtain ⟨resolution, entry, resolves⟩ := covers.entries _ (mem_serviceSites_of_get? known)
    exact ⟨resolution, resolution?_eq_some distinct entry, resolves⟩
  · exact resolution?_eq_some distinct (covers.hosts index host listed)
  · exact resolution?_eq_some distinct (covers.clients index site listed client member)
  · exact List.pairwise_map.1 (sorted.sublist covers.hostOrder)
  · exact List.pairwise_map.1 (sorted.sublist (covers.clientOrder site member))

end ServiceMap

/-- The error names the first service instance, in the order of the tree, that builtins serve and
that has no builtin of its service around it. -/
inductive Graph.Unresolved (graph : Graph) : BuildError → Prop
  | first {inst : InstanceId} {id : ServiceInstanceId} {held : ServiceInstance} {service : Service}
      (known : (graph.moduleOf inst).services.get? id = some held)
      (declared : graph.serviceAt? held.service = some service)
      (provider : service.provider = .builtin)
      (hostSilent : ∀ outer, graph.Encloses outer inst →
        ∀ builtin ∈ (graph.moduleOf outer).builtins, builtin.service ≠ held.service)
      (earlier : ∀ inst' id' held', (graph.moduleOf inst').services.get? id' = some held' →
        Precedes (inst', id') (inst, id) → graph.Provides inst' held') :
      Unresolved graph (.unresolvedService
        (AppPath.text (AppPath.child (graph.pathOf inst) held.appId)) service.name)

theorem Precedes.trichotomy (first second : Nat × Nat) :
    Precedes first second ∨ first = second ∨ Precedes second first := by
  obtain ⟨inst, id⟩ := first
  obtain ⟨inst', id'⟩ := second
  simp only [Precedes, Prod.mk.injEq]
  omega

namespace Graph

variable {graph : Graph} {inst : InstanceId} {held : ServiceInstance} {service : Service}

theorem not_provides_iff (known : graph.serviceAt? held.service = some service) :
    ¬ graph.Provides inst held ↔ service.provider = .builtin ∧
      ∀ outer, graph.Encloses outer inst → ∀ builtin ∈ (graph.moduleOf outer).builtins,
        builtin.service ≠ held.service := by
  constructor
  · intro unprovided
    unfold Provides at unprovided
    push Not at unprovided
    obtain ⟨other, declared, provider, hostSilent⟩ := unprovided
    rw [known] at declared
    cases declared
    exact ⟨provider, hostSilent⟩
  · rintro ⟨provider, hostSilent⟩ provides
    obtain ⟨outer, encloses, builtin, member, same⟩ := provides service known provider
    exact hostSilent outer encloses builtin member same

theorem Unresolved.unique {error error' : BuildError} (one : graph.Unresolved error)
    (other : graph.Unresolved error') : error = error' := by
  obtain ⟨known, declared, provider, hostSilent, earlier⟩ := one
  rename_i inst id held service
  obtain ⟨known', declared', provider', hostSilent', earlier'⟩ := other
  rename_i inst' id' held' service'
  rcases Precedes.trichotomy (inst, id) (inst', id') with before | same | after
  · exact absurd (earlier' inst id held known before)
      ((not_provides_iff declared).2 ⟨provider, hostSilent⟩)
  · cases same
    rw [known] at known'
    cases known'
    rw [declared] at declared'
    cases declared'
    rfl
  · exact absurd (earlier inst' id' held' known' after)
      ((not_provides_iff declared').2 ⟨provider', hostSilent'⟩)

end Graph

namespace ServiceMap

variable {graph : Graph} {names : Names} {setting : Setting}

/-- Resolution either assigns every service instance or names the first that nothing provides. -/
theorem resolve_cases (ready : CompiledDesign.Ready setting graph names) :
    (∃ map, resolve graph names = .ok map ∧
        ∀ site ∈ serviceSites graph, graph.Provides site.1 site.2.2) ∨
      ∃ error, resolve graph names = .error error ∧ graph.Unresolved error := by
  obtain ⟨top, rooted⟩ := ready.rooted
  rcases all_or_first (fun site => graph.Provides site.1 site.2.2) (serviceSites graph) with
    all | ⟨earlier, ⟨inst, id, held⟩, later, sites, provided, unprovided⟩
  · obtain ⟨map, resolved, -⟩ := resolveAll_ok rooted (follows_start graph names) ready.named all
    exact .inl ⟨map, resolved, all⟩
  · have sorted := pairwise_serviceSites graph
    have member : (inst, id, held) ∈ serviceSites graph := by
      rw [sites]
      exact List.mem_append_right _ List.mem_cons_self
    obtain ⟨bound, service, operation, declared, -⟩ := ready.named _ member
    obtain ⟨provider, hostSilent⟩ := (Graph.not_provides_iff declared).1 unprovided
    refine .inr ⟨_, ?_, .first (mem_serviceSites member) declared provider hostSilent ?_⟩
    · obtain ⟨middle, resolved, follows⟩ := resolveAll_ok rooted (follows_start graph names)
        (fun site inside => ready.named site (sites ▸ List.mem_append_left _ inside)) provided
      rw [resolve, sites, resolveAll_append resolved, resolveAll,
        resolveOne_error id rooted follows bound declared unprovided]
    · intro inst' id' held' known before
      have inside := mem_serviceSites_of_get? known
      rw [sites] at inside sorted
      rcases List.mem_append.1 inside with early | rest
      · exact provided _ early
      · rcases List.mem_cons.1 rest with same | late
        · cases same
          exact absurd before Precedes.irrefl
        · have after := (List.pairwise_cons.1 (List.pairwise_append.1 sorted).2.1).1 _ late
          exact absurd before after.asymm

end ServiceMap

/-- Each service instance of a generated graph is resolved once: to an endpoint of the host, or to
the nearest builtin of its service. Resolution fails only where one has no such builtin, and names
the first. -/
theorem resolution_assigns_or_names_first {setting : Setting} {top : String} {graph : Graph}
    (generated : (generate setting top).outcome = .ok graph) :
    (∀ map, ServiceMap.resolve graph (generate setting top).names = .ok map →
        map.Assigns graph (generate setting top).names) ∧
      (∀ error, ServiceMap.resolve graph (generate setting top).names = .error error ↔
        graph.Unresolved error) ∧
      ((∃ error, ServiceMap.resolve graph (generate setting top).names = .error error) ↔
        ∃ inst id held, (graph.moduleOf inst).services.get? id = some held ∧
          ¬ graph.Provides inst held) := by
  have ready := CompiledDesign.ready_of_generate generated
  obtain ⟨root, rooted⟩ := ready.rooted
  have cases := ServiceMap.resolve_cases ready
  refine ⟨fun map resolved => ?_, fun error => ⟨fun failed => ?_, fun first => ?_⟩, ?_, ?_⟩
  · exact ((ServiceMap.covers_start graph _).resolveAll rooted (fun site member =>
      (ready.named site member).1) resolved).assigns
  · rcases cases with ⟨map, resolved, -⟩ | ⟨error', failed', first⟩
    · rw [failed] at resolved
      cases resolved
    · rw [failed] at failed'
      cases failed'
      exact first
  · rcases cases with ⟨map, -, all⟩ | ⟨error', failed', first'⟩
    · obtain ⟨known, declared, provider, hostSilent, -⟩ := first
      exact absurd (all _ (ServiceMap.mem_serviceSites_of_get? known))
        ((Graph.not_provides_iff declared).2 ⟨provider, hostSilent⟩)
    · rw [first.unique first']
      exact failed'
  · rintro ⟨error, failed⟩
    rcases cases with ⟨map, resolved, -⟩ | ⟨error', -, first⟩
    · rw [failed] at resolved
      cases resolved
    · obtain ⟨known, declared, provider, hostSilent, -⟩ := first
      exact ⟨_, _, _, known, (Graph.not_provides_iff declared).2 ⟨provider, hostSilent⟩⟩
  · rintro ⟨inst, id, held, known, unprovided⟩
    rcases cases with ⟨map, -, all⟩ | ⟨error', failed', -⟩
    · exact absurd (all _ (ServiceMap.mem_serviceSites_of_get? known)) unprovided
    · exact ⟨error', failed'⟩

/-- The two operations of the writer and the two that the host passes through have one memory. -/
theorem MemoryDesign.memory_is_assigned :
    ∃ graph map, (generate MemoryDesign.hosted "Top").outcome = .ok graph ∧
      ServiceMap.resolve graph (generate MemoryDesign.hosted "Top").names = .ok map ∧
      map.builtins.map (fun site => (site.inst, site.clients.map Client.site)) =
        [(0, [(0, 1), (0, 3), (2, 0), (2, 1)])] ∧
      map.Assigns graph (generate MemoryDesign.hosted "Top").names := by
  have assigned : ((generate MemoryDesign.hosted "Top").outcome.toOption.bind fun graph =>
      (ServiceMap.resolve graph (generate MemoryDesign.hosted "Top").names).toOption.map fun map =>
        map.builtins.map fun site => (site.inst, site.clients.map Client.site)) =
      some [(0, [(0, 1), (0, 3), (2, 0), (2, 1)])] := by
    decide +kernel
  obtain ⟨graph, returned, found⟩ := Option.bind_eq_some_iff.1 assigned
  obtain ⟨map, resolved, clients⟩ := Option.map_eq_some_iff.1 found
  have generated := eq_ok_of_toOption returned
  have resolved := eq_ok_of_toOption resolved
  exact ⟨graph, map, generated, resolved, clients,
    (resolution_assigns_or_names_first generated).1 map resolved⟩

end Elastic
