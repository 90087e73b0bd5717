import Elastic.Proofs.Build.Screening
import Elastic.Proofs.Build.Tree
import Elastic.Proofs.Compile.Resolution

namespace Elastic

/-! How the compilation of a generated graph ends. The construction has made every check but two:
that each bundle has a server, and that a builtin stands around each service instance that needs
one. -/

variable {setting : Setting} {graph : Graph} {names : Names}

/-- Every bundle has something at its server's end. -/
def Module.Answered (module : Module) : Prop :=
  ∀ id bundle, module.bundles.get? id = some bundle → bundle.server.isBound = true

/-- A service instance that builtins serve has a builtin of its service in its own instance or in
one around it. -/
def Graph.Provides (graph : Graph) (inst : InstanceId) (held : ServiceInstance) : Prop :=
  ∀ service, graph.serviceAt? held.service = some service → service.provider = .builtin →
    ∃ outer, graph.Encloses outer inst ∧
      ∃ builtin ∈ (graph.moduleOf outer).builtins, builtin.service = held.service

/-- What the manifest and the files of a backend look up is there to be found. -/
structure Graph.Readable (graph : Graph) (names : Names) : Prop where
  instances : ∀ held ∈ graph.instances.toList, ∃ module,
    graph.modules.get? held.module = some module
  modules : ∀ module ∈ graph.modules.toList, ∃ text, names.text? module.name = some text
  ports : ∀ module ∈ graph.modules.toList, ∀ port ∈ module.ports,
    (∃ text, names.text? port.name = some text) ∧ ∃ ty, graph.types.get? port.ty = some ty
  builtins : ∀ module ∈ graph.modules.toList, ∀ held ∈ module.builtins,
    (∃ tag, names.text? held.tag = some tag) ∧ ∃ service, graph.serviceAt? held.service =
      some service
  services : ∀ module ∈ graph.modules.toList, ∀ held ∈ module.services.toList,
    ∃ service operation, graph.serviceAt? held.service = some service ∧
      service.operations[held.operation]? = some operation

/-- Why a generated graph does not compile. -/
inductive Graph.Fault (graph : Graph) (names : Names) : BuildError → Prop
  | unserviced {earlier later : List Module} {module : Module} {name : String}
      (modules : graph.modules.toList = earlier ++ module :: later)
      (answered : ∀ other ∈ earlier, other.Answered) (unanswered : ¬ module.Answered)
      (named : names.text? module.name = some name) :
      Fault graph names (.unservicedBundle name "server")
  | unresolved {earlier later : List (InstanceId × ServiceInstanceId × ServiceInstance)}
      {inst : InstanceId} {id : ServiceInstanceId} {held : ServiceInstance} {service : Service}
      (answered : ∀ module ∈ graph.modules.toList, module.Answered)
      (sites : ServiceMap.serviceSites graph = earlier ++ (inst, id, held) :: later)
      (provided : ∀ site ∈ earlier, graph.Provides site.1 site.2.2)
      (unprovided : ¬ graph.Provides inst held)
      (known : graph.serviceAt? held.service = some service) :
      Fault graph names (.unresolvedService
        (AppPath.text (AppPath.child (graph.pathOf inst) held.appId)) service.name)

theorem all_or_first (property : α → Prop) (items : List α) :
    (∀ item ∈ items, property item) ∨ ∃ earlier item later, items = earlier ++ item :: later ∧
      (∀ other ∈ earlier, property other) ∧ ¬ property item := by
  induction items with
  | nil => exact .inl nofun
  | cons first rest induction =>
      by_cases holds : property first
      · rcases induction with all | ⟨earlier, item, later, rfl, before, fails⟩
        · exact .inl (List.forall_mem_cons.2 ⟨holds, all⟩)
        · exact .inr ⟨first :: earlier, item, later, rfl, List.forall_mem_cons.2 ⟨holds, before⟩,
            fails⟩
      · exact .inr ⟨[], first, rest, rfl, nofun, holds⟩

namespace Graph

theorem checkAppIds_ok (module : String) (appIds seen : List AppId) (distinct : appIds.Nodup)
    (formed : ∀ appId ∈ appIds, appId.isWellFormed = true)
    (fresh : ∀ appId ∈ appIds, appId ∉ seen) : checkAppIds module appIds seen = .ok () := by
  induction appIds generalizing seen with
  | nil => rfl
  | cons first rest induction =>
      obtain ⟨apart, distinct⟩ := List.nodup_cons.1 distinct
      have unseen : seen.contains first = false := by
        simpa using fresh first List.mem_cons_self
      simp only [checkAppIds, formed first List.mem_cons_self, unseen, Bool.not_true,
        Bool.false_eq_true, if_false]
      refine induction _ distinct (fun other member => formed other (List.mem_cons_of_mem _ member))
        fun other member => ?_
      rw [List.mem_cons, not_or]
      exact ⟨fun same => apart (same ▸ member), fresh other (List.mem_cons_of_mem _ member)⟩

theorem checkBundles_ok (module : String) {bundles : List Bundle}
    (clients : ∀ bundle ∈ bundles, bundle.client.isBound = true)
    (servers : ∀ bundle ∈ bundles, bundle.server.isBound = true) :
    checkBundles module bundles = .ok () := by
  induction bundles with
  | nil => rfl
  | cons first rest induction =>
      simp only [checkBundles, clients first List.mem_cons_self, servers first List.mem_cons_self,
        Bool.not_true, Bool.false_eq_true, if_false]
      exact induction (fun bundle member => clients bundle (List.mem_cons_of_mem _ member))
        fun bundle member => servers bundle (List.mem_cons_of_mem _ member)

theorem checkBundles_error (module : String) {bundles : List Bundle}
    (clients : ∀ bundle ∈ bundles, bundle.client.isBound = true)
    (unanswered : ¬ ∀ bundle ∈ bundles, bundle.server.isBound = true) :
    checkBundles module bundles = .error (.unservicedBundle module "server") := by
  induction bundles with
  | nil => exact absurd nofun unanswered
  | cons first rest induction =>
      simp only [checkBundles, clients first List.mem_cons_self, Bool.not_true, Bool.false_eq_true,
        if_false]
      cases server : first.server.isBound with
      | false => rfl
      | true =>
          refine induction (fun bundle member => clients bundle (List.mem_cons_of_mem _ member)) ?_
          exact fun rest => unanswered (List.forall_mem_cons.2 ⟨server, rest⟩)

theorem checkServices_ok (module : String) {services : List ServiceInstance}
    (able : ∀ held ∈ services, ∃ service, graph.serviceAt? held.service = some service ∧
      (service.provider = .host → setting.capabilities.hostChannels = true)) :
    graph.checkServices setting.preset setting.capabilities module services = .ok () := by
  induction services with
  | nil => rfl
  | cons first rest induction =>
      obtain ⟨service, known, host⟩ := able first List.mem_cons_self
      simp only [checkServices, known]
      rw [if_neg]
      · exact induction fun held member => able held (List.mem_cons_of_mem _ member)
      · rintro ⟨provider, disabled⟩
        simp [host provider] at disabled

theorem checkBuiltins_ok (module : String) {builtins : List Builtin}
    (supported : ∀ held ∈ builtins, setting.capabilities.supports (names.text held.tag) = true) :
    checkBuiltins names setting.preset setting.capabilities module builtins = .ok () := by
  induction builtins with
  | nil => rfl
  | cons first rest induction =>
      simp only [checkBuiltins, supported first List.mem_cons_self, Bool.not_true,
        Bool.false_eq_true, if_false]
      exact induction fun held member => supported held (List.mem_cons_of_mem _ member)

theorem answered_iff {module : Module} :
    module.Answered ↔ ∀ bundle ∈ module.bundles.toList, bundle.server.isBound = true := by
  simp only [Module.Answered, Arena.mem_toList]
  exact ⟨fun all bundle ⟨id, held⟩ => all id bundle held,
    fun all id bundle held => all bundle ⟨id, held⟩⟩

variable {module : Module}

theorem checkModule_vetted (vetted : module.Vetted setting names)
    (services : graph.services = setting.library.services) :
    graph.checkModule names setting.preset setting.capabilities module =
      checkBundles (names.text module.name) module.bundles.toList := by
  have appIds := checkAppIds_ok (names.text module.name) module.appIds []
    vetted.identified.distinct vetted.identified.formed fun _ _ => List.not_mem_nil
  have instances : graph.checkServices setting.preset setting.capabilities (names.text module.name)
      module.services.toList = .ok () := by
    refine checkServices_ok _ fun held member => ?_
    obtain ⟨id, present⟩ := Arena.mem_toList.1 member
    obtain ⟨service, registered, able⟩ := vetted.services id held present
    refine ⟨service, ?_, able⟩
    rw [serviceAt?, services]
    exact Library.getElem?_of_service? registered
  have builtins : checkBuiltins names setting.preset setting.capabilities (names.text module.name)
      module.builtins = .ok () := by
    refine checkBuiltins_ok _ fun held member => ?_
    obtain ⟨tag, named, supported⟩ := vetted.builtins held member
    rw [Names.text_of_text? named]
    exact supported
  unfold checkModule
  simp only [appIds, instances, builtins, bind, Except.bind]
  cases checkBundles (names.text module.name) module.bundles.toList <;> rfl

theorem checkModule_ok (vetted : module.Vetted setting names)
    (services : graph.services = setting.library.services) (answered : module.Answered) :
    graph.checkModule names setting.preset setting.capabilities module = .ok () := by
  rw [checkModule_vetted vetted services]
  refine checkBundles_ok _ (fun bundle member => ?_) (answered_iff.1 answered)
  obtain ⟨id, held⟩ := Arena.mem_toList.1 member
  exact vetted.clients id bundle held

theorem checkModule_error (vetted : module.Vetted setting names)
    (services : graph.services = setting.library.services) (unanswered : ¬ module.Answered) :
    graph.checkModule names setting.preset setting.capabilities module =
      .error (.unservicedBundle (names.text module.name) "server") := by
  rw [checkModule_vetted vetted services]
  refine checkBundles_error _ (fun bundle member => ?_) fun all => unanswered (answered_iff.2 all)
  obtain ⟨id, held⟩ := Arena.mem_toList.1 member
  exact vetted.clients id bundle held

theorem checkModules_ok {modules : List Module}
    (services : graph.services = setting.library.services)
    (vetted : ∀ module ∈ modules, module.Vetted setting names)
    (answered : ∀ module ∈ modules, module.Answered) :
    (graph.checkModules names setting.preset setting.capabilities modules).1 = .ok () := by
  induction modules with
  | nil => rfl
  | cons first rest induction =>
      have passes := checkModule_ok (vetted first List.mem_cons_self) services
        (answered first List.mem_cons_self)
      simp only [checkModules, passes]
      exact induction (fun module member => vetted module (List.mem_cons_of_mem _ member))
        fun module member => answered module (List.mem_cons_of_mem _ member)

theorem checkModules_error {earlier later : List Module}
    (services : graph.services = setting.library.services)
    (vetted : ∀ other ∈ earlier ++ module :: later, other.Vetted setting names)
    (answered : ∀ other ∈ earlier, other.Answered) (unanswered : ¬ module.Answered) :
    (graph.checkModules names setting.preset setting.capabilities (earlier ++ module :: later)).1 =
      .error (.unservicedBundle (names.text module.name) "server") := by
  induction earlier with
  | nil =>
      have fails := checkModule_error (vetted module List.mem_cons_self) services unanswered
      simp only [List.nil_append, checkModules, fails]
  | cons first rest induction =>
      have passes := checkModule_ok (vetted first List.mem_cons_self) services
        (answered first List.mem_cons_self)
      simp only [List.cons_append, checkModules, passes]
      exact induction (fun other member => vetted other (List.mem_cons_of_mem _ member))
        fun other member => answered other (List.mem_cons_of_mem _ member)

end Graph

/-- The service of an instance is the first of its name, and so is the operation. -/
def ServiceInstance.Named (graph : Graph) (held : ServiceInstance) : Prop :=
  ∃ service operation, graph.serviceAt? held.service = some service ∧
    graph.services.find? (·.name = service.name) = some service ∧
    service.operations[held.operation]? = some operation ∧
    service.operation? operation.name = some operation

theorem find?_of_findIdx? {property : α → Bool} {items : List α} {index : Nat} {item : α}
    (found : items.findIdx? property = some index) (held : items[index]? = some item) :
    items.find? property = some item := by
  rw [List.find?_eq_some_iff_getElem]
  obtain ⟨bound, holds, before⟩ := List.findIdx?_eq_some_iff_getElem.1 found
  obtain ⟨_, equal⟩ := List.getElem?_eq_some_iff.1 held
  refine ⟨equal ▸ holds, index, bound, equal, fun earlier smaller => ?_⟩
  simpa using before earlier smaller

theorem named_of_generated {own : Prop} {limit : ModuleId} {module : Module}
    (vetted : module.Vetted setting names)
    (wired : module.Wired own graph.services graph.types limit)
    (services : graph.services = setting.library.services) {id : ServiceInstanceId}
    {held : ServiceInstance} (known : module.services.get? id = some held) :
    held.Named graph := by
  obtain ⟨service, registered, -⟩ := vetted.services id held known
  obtain ⟨service', operation, bundle, present, inside, first, -⟩ :=
    wired.placed.instances id held known
  have same := Library.getElem?_of_service? registered
  rw [← services, present] at same
  cases same
  refine ⟨service, operation, present, ?_, inside, find?_of_findIdx? first inside⟩
  obtain ⟨index, found, place⟩ := Option.bind_eq_some_iff.1 registered
  obtain ⟨other, held', equal⟩ := Option.map_eq_some_iff.1 place
  cases equal
  rw [services]
  exact find?_of_findIdx? found held'

namespace ServiceMap

def providers (builtins : List BuiltinSite) : List (InstanceId × Nat) :=
  builtins.map fun site => (site.inst, site.service)

structure Follows (graph : Graph) (names : Names) (map : ServiceMap) : Prop where
  builtins : providers map.builtins = providers (builtinSites graph names)
  hosts : ∀ host ∈ map.hosts, ∃ service operation,
    graph.services.find? (·.name = host.service) = some service ∧
      service.operation? host.operation = some operation

theorem mem_providers {outer : InstanceId} {service : Nat} :
    (outer, service) ∈ providers (builtinSites graph names) ↔
      ∃ builtin ∈ (graph.moduleOf outer).builtins, builtin.service = service := by
  simp only [providers, builtinSites, List.map_flatMap, List.mem_flatMap, Arena.ids, List.mem_range,
    builtinsOf, List.map_map, List.mem_map, Function.comp_apply, Prod.mk.injEq]
  constructor
  · rintro ⟨inst, -, ⟨builtin, position⟩, member, rfl, rfl⟩
    obtain ⟨-, -, equal⟩ := List.mem_zipIdx member
    exact ⟨builtin, equal ▸ List.getElem_mem _, rfl⟩
  · rintro ⟨builtin, member, rfl⟩
    refine ⟨outer, Nat.lt_of_not_le fun beyond => ?_, ?_⟩
    · rw [Graph.moduleOf_of_size_le beyond] at member
      cases member
    · obtain ⟨position, bound, rfl⟩ := List.mem_iff_getElem.1 member
      refine ⟨(_, position), ?_, rfl, rfl⟩
      exact List.mem_zipIdx_iff_getElem?.2 (List.getElem?_eq_getElem bound)

theorem providers_addClient (builtins : List BuiltinSite) (index : Nat) (client : Client) :
    providers (builtins.modify index (BuiltinSite.addClient client)) = providers builtins := by
  simp only [providers]
  induction builtins generalizing index with
  | nil => cases index <;> rfl
  | cons first rest induction =>
      cases index with
      | zero => rfl
      | succ index => simp only [List.modify_succ_cons, List.map_cons, induction]

theorem nearestBuiltin?_isSome {map : ServiceMap} {top : ModuleId} (rooted : graph.Rooted top)
    (follows : map.Follows graph names) {inst : InstanceId} (bound : inst < graph.instances.size)
    (service : Nat) :
    (nearestBuiltin? graph map.builtins inst service).isSome ↔
      ∃ outer, graph.Encloses outer inst ∧
        ∃ builtin ∈ (graph.moduleOf outer).builtins, builtin.service = service := by
  have within (outer : InstanceId) : (builtinIn? map.builtins service outer).isSome ↔
      (outer, service) ∈ providers map.builtins := by
    simp only [builtinIn?, List.findIdx?_isSome, List.any_eq_true, decide_eq_true_eq, providers,
      List.mem_map, Prod.mk.injEq]
  simp only [nearestBuiltin?, List.findSome?_isSome_iff, rooted.mem_ancestors bound, within,
    follows.builtins, mem_providers]

theorem follows_start (graph : Graph) (names : Names) :
    Follows graph names { builtins := builtinSites graph names } :=
  ⟨rfl, nofun⟩

variable {map : ServiceMap} {top : ModuleId} {inst : InstanceId} {held : ServiceInstance}

theorem resolveOne_ok (id : ServiceInstanceId) (rooted : graph.Rooted top)
    (follows : map.Follows graph names) (bound : inst < graph.instances.size)
    (named : held.Named graph)
    (provided : graph.Provides inst held) :
    ∃ after, resolveOne graph map inst id held = .ok after ∧ after.Follows graph names := by
  obtain ⟨service, operation, known, first, inside, lookup⟩ := named
  unfold resolveOne
  simp only [known, inside]
  cases provider : service.provider with
  | host =>
      refine ⟨_, rfl, follows.builtins, fun host member => ?_⟩
      rcases List.mem_append.1 member with old | new
      · exact follows.hosts host old
      · obtain rfl := List.mem_singleton.1 new
        exact ⟨service, operation, first, lookup⟩
  | builtin =>
      have near := (nearestBuiltin?_isSome rooted follows bound held.service).2
        (provided service known provider)
      obtain ⟨index, found⟩ := Option.isSome_iff_exists.1 near
      simp only [found]
      exact ⟨_, rfl, (providers_addClient _ _ _).trans follows.builtins, follows.hosts⟩

theorem resolveOne_error {service : Service} (id : ServiceInstanceId) (rooted : graph.Rooted top)
    (follows : map.Follows graph names) (bound : inst < graph.instances.size)
    (known : graph.serviceAt? held.service = some service)
    (unprovided : ¬ graph.Provides inst held) :
    resolveOne graph map inst id held = .error (.unresolvedService
      (AppPath.text (AppPath.child (graph.pathOf inst) held.appId)) service.name) := by
  unfold resolveOne
  simp only [known]
  cases provider : service.provider with
  | host =>
      refine absurd (fun other known' builtin => ?_) unprovided
      rw [known] at known'
      cases known'
      rw [provider] at builtin
      cases builtin
  | builtin =>
      have near : nearestBuiltin? graph map.builtins inst held.service = none := by
        refine Option.not_isSome_iff_eq_none.1 fun near => unprovided fun _ _ _ => ?_
        exact (nearestBuiltin?_isSome rooted follows bound held.service).1 near
      simp only [near]

theorem resolveAll_ok {sites : List (InstanceId × ServiceInstanceId × ServiceInstance)}
    (rooted : graph.Rooted top) (follows : map.Follows graph names)
    (named : ∀ site ∈ sites, site.1 < graph.instances.size ∧ site.2.2.Named graph)
    (provided : ∀ site ∈ sites, graph.Provides site.1 site.2.2) :
    ∃ after, resolveAll graph map sites = .ok after ∧ after.Follows graph names := by
  induction sites generalizing map with
  | nil => exact ⟨map, rfl, follows⟩
  | cons site rest induction =>
      obtain ⟨inst, id, held⟩ := site
      obtain ⟨bound, known⟩ := named _ List.mem_cons_self
      obtain ⟨middle, one, follows⟩ := resolveOne_ok id rooted follows bound known
        (provided _ List.mem_cons_self)
      simp only [resolveAll, one]
      exact induction follows (fun site member => named site (List.mem_cons_of_mem _ member))
        fun site member => provided site (List.mem_cons_of_mem _ member)

theorem resolveAll_append {first second : List (InstanceId × ServiceInstanceId × ServiceInstance)}
    {middle : ServiceMap} (resolved : resolveAll graph map first = .ok middle) :
    resolveAll graph map (first ++ second) = resolveAll graph middle second := by
  induction first generalizing map with
  | nil =>
      cases resolved
      rfl
  | cons site rest induction =>
      obtain ⟨inst, id, held⟩ := site
      simp only [List.cons_append, resolveAll] at resolved ⊢
      cases one : resolveOne graph map inst id held with
      | error error =>
          rw [one] at resolved
          cases resolved
      | ok after =>
          rw [one] at resolved
          exact induction resolved

end ServiceMap

namespace Artifact

theorem endpointsJson_ok {hosts : List HostEndpoint}
    (named : ∀ host ∈ hosts, ∃ service operation,
      graph.services.find? (·.name = host.service) = some service ∧
        service.operation? host.operation = some operation) :
    ∃ endpoints, endpointsJson graph hosts = .ok endpoints := by
  induction hosts with
  | nil => exact ⟨[], rfl⟩
  | cons host rest induction =>
      obtain ⟨service, operation, known, inside⟩ := named host List.mem_cons_self
      obtain ⟨others, lowered⟩ := induction fun host member =>
        named host (List.mem_cons_of_mem _ member)
      simp only [endpointsJson, endpointJson, known, inside, lowered]
      exact ⟨_, rfl⟩

theorem lower_ok {map : ServiceMap} (follows : map.Follows graph names) (preset : BackendPreset)
    (name : String) (policy : ArbitrationPolicy) (manifest : Manifest) :
    ∃ artifacts, lower preset name policy graph map manifest = .ok artifacts := by
  cases preset with
  | xrt => exact ⟨_, rfl⟩
  | cosim =>
      obtain ⟨endpoints, lowered⟩ := endpointsJson_ok follows.hosts
      simp only [lower, lowered]
      exact ⟨_, rfl⟩

end Artifact

namespace CompiledDesign

structure Ready (setting : Setting) (graph : Graph) (names : Names) : Prop where
  wired : ∀ module ∈ graph.modules.toList, ∃ id, module.Wired False graph.services graph.types id
  services : graph.services = setting.library.services
  vetted : ∀ module ∈ graph.modules.toList, module.Vetted setting names
  rooted : ∃ top, graph.Rooted top
  named : ∀ site ∈ ServiceMap.serviceSites graph,
    site.1 < graph.instances.size ∧ site.2.2.Named graph

theorem ready_of_generate {top : String} (generated : (generate setting top).outcome = .ok graph) :
    Ready setting graph (generate setting top).names := by
  have services := services_of_generate generated
  have vetted := vetted_of_generate generated
  obtain ⟨⟨root, bound, unfolded⟩, wired⟩ := unfolded_of_generate False generated nofun
  refine ⟨fun module member => ?_, services, fun module member => ?_, ⟨root, ?_⟩, ?_⟩
  · obtain ⟨id, held⟩ := Arena.mem_toList.1 member
    exact ⟨id, wired id module held⟩
  · obtain ⟨id, held⟩ := Arena.mem_toList.1 member
    exact vetted id module held
  · rw [unfolded]
    exact Graph.rooted_unfold bound fun id module held => (wired id module held).placed.children
  · rintro ⟨inst, id, held⟩ member
    have known := ServiceMap.mem_serviceSites member
    refine ⟨Nat.lt_of_not_le fun beyond => ?_, ?_⟩
    · rw [Graph.moduleOf_of_size_le beyond] at known
      cases known
    · rcases graph.moduleOf_cases inst with absent | ⟨place, module⟩
      · rw [absent] at known
        cases known
      · exact named_of_generated (vetted place _ module) (wired place _ module) services known

theorem Ready.readable (ready : Ready setting graph names) : graph.Readable names where
  instances held member := by
    obtain ⟨id, present⟩ := Arena.mem_toList.1 member
    obtain ⟨top, rooted⟩ := ready.rooted
    exact Arena.exists_get?_of_lt_size (rooted.module_lt present)
  modules module member := (ready.vetted module member).name
  ports module member port inside := by
    obtain ⟨id, wired⟩ := ready.wired module member
    exact ⟨(ready.vetted module member).ports port inside,
      TyPool.exists_get?_of_lt_size (wired.placed.ports port inside)⟩
  builtins module member held inside := by
    obtain ⟨id, wired⟩ := ready.wired module member
    obtain ⟨tag, named, -⟩ := (ready.vetted module member).builtins held inside
    obtain ⟨⟨service, known, -⟩, -⟩ := wired.placed.builtins held inside
    exact ⟨⟨tag, named⟩, service, known⟩
  services module member held inside := by
    obtain ⟨id, wired⟩ := ready.wired module member
    obtain ⟨place, present⟩ := Arena.mem_toList.1 inside
    obtain ⟨service, operation, -, known, served, -⟩ := wired.placed.instances place held present
    exact ⟨service, operation, known, served⟩

variable (ready : Ready setting graph names) (name version : String) (policy : ArbitrationPolicy)

include ready

theorem compile_answered (answered : ∀ module ∈ graph.modules.toList, module.Answered) :
    (compile name version graph names setting.preset setting.capabilities policy).1 =
      match ServiceMap.resolve graph names with
      | .error error => .error error
      | .ok map => ofResolved name version graph names setting.preset policy map := by
  have checked := Graph.checkModules_ok ready.services ready.vetted answered
  unfold compile Graph.validate
  revert checked
  rcases graph.checkModules names setting.preset setting.capabilities graph.modules.toList with
    ⟨outcome, warnings⟩
  rintro rfl
  cases ServiceMap.resolve graph names <;> rfl

theorem compile_ok (answered : ∀ module ∈ graph.modules.toList, module.Answered)
    (provided : ∀ site ∈ ServiceMap.serviceSites graph, graph.Provides site.1 site.2.2) :
    ∃ design, (compile name version graph names setting.preset setting.capabilities policy).1 =
      .ok design := by
  obtain ⟨top, rooted⟩ := ready.rooted
  obtain ⟨map, resolved, follows⟩ := ServiceMap.resolveAll_ok rooted
    (ServiceMap.follows_start graph names) ready.named provided
  rw [compile_answered ready _ _ _ answered, ServiceMap.resolve, resolved]
  obtain ⟨artifacts, lowered⟩ := Artifact.lower_ok follows setting.preset name policy
    (Manifest.collect name version setting.preset policy graph.fingerprint graph names map)
  simp only [ofResolved, lowered]
  exact ⟨_, rfl⟩

theorem compile_error {error : BuildError} (fault : graph.Fault names error) :
    (compile name version graph names setting.preset setting.capabilities policy).1 =
      .error error := by
  cases fault with
  | unserviced modules answered unanswered named =>
      -- All modules are checked before anything is resolved, so that the services do not matter.
      have vetted := ready.vetted
      rw [modules] at vetted
      have checked := Graph.checkModules_error ready.services vetted answered unanswered
      rw [Names.text_of_text? named, ← modules] at checked
      unfold compile Graph.validate
      revert checked
      rcases graph.checkModules names setting.preset setting.capabilities graph.modules.toList with
        ⟨outcome, warnings⟩
      rintro rfl
      rfl
  | @unresolved earlier later inst id held service answered sites provided unprovided known =>
      obtain ⟨top, rooted⟩ := ready.rooted
      have named := ready.named
      rw [sites] at named
      obtain ⟨map, resolved, follows⟩ := ServiceMap.resolveAll_ok rooted
        (ServiceMap.follows_start graph names)
        (fun site member => named site (List.mem_append_left _ member)) provided
      have bound := (named _ (List.mem_append_right _ List.mem_cons_self)).1
      have refused := ServiceMap.resolveOne_error id rooted follows bound known unprovided
      rw [compile_answered ready _ _ _ answered, ServiceMap.resolve, sites,
        ServiceMap.resolveAll_append resolved]
      simp only [ServiceMap.resolveAll, refused]

omit name version policy in
/-- A generated graph compiles, or there is a first reason why not. -/
theorem compiles_or_faults :
    ((∀ module ∈ graph.modules.toList, module.Answered) ∧
      ∀ site ∈ ServiceMap.serviceSites graph, graph.Provides site.1 site.2.2) ∨
    ∃ error, graph.Fault names error := by
  rcases all_or_first Module.Answered graph.modules.toList with
    answered | ⟨earlier, module, later, modules, answered, unanswered⟩
  · rcases all_or_first (fun site => graph.Provides site.1 site.2.2)
      (ServiceMap.serviceSites graph) with
      provided | ⟨earlier, ⟨inst, id, held⟩, later, sites, provided, unprovided⟩
    · exact .inl ⟨answered, provided⟩
    · have member : (inst, id, held) ∈ ServiceMap.serviceSites graph := by
        rw [sites]
        exact List.mem_append_right _ List.mem_cons_self
      obtain ⟨service, operation, known, -⟩ := (ready.named _ member).2
      exact .inr ⟨_, .unresolved answered sites provided unprovided known⟩
  · have member : module ∈ graph.modules.toList := by
      rw [modules]
      exact List.mem_append_right _ List.mem_cons_self
    obtain ⟨text, named⟩ := (ready.vetted module member).name
    exact .inr ⟨_, .unserviced modules answered unanswered named⟩

omit name version policy in
theorem exists_compile {name version : String} {policy : ArbitrationPolicy}
    {design : CompiledDesign} (title edition : String) (other : ArbitrationPolicy)
    (compiled : (compile name version graph names setting.preset setting.capabilities policy).1 =
      .ok design) :
    ∃ twin, (compile title edition graph names setting.preset setting.capabilities other).1 =
      .ok twin := by
  rcases compiles_or_faults ready with sound | ⟨error, fault⟩
  · exact compile_ok ready title edition other sound.1 sound.2
  · rw [compile_error ready name version policy fault] at compiled
    cases compiled

end CompiledDesign

open CompiledDesign in
/-- A generated graph compiles for the backend it was generated for exactly if every bundle has a
server and a builtin stands around every service instance that needs one. If it does not compile,
the error is the first of these faults, and the servers come first. Whatever is looked up on the
way is there. -/
theorem generated_graph_compiles_iff {top name version : String} {policy : ArbitrationPolicy}
    (generated : (generate setting top).outcome = .ok graph) :
    ((∃ design, (compile name version graph (generate setting top).names setting.preset
        setting.capabilities policy).1 = .ok design) ↔
      (∀ module ∈ graph.modules.toList, module.Answered) ∧
        ∀ site ∈ ServiceMap.serviceSites graph, graph.Provides site.1 site.2.2) ∧
    (∀ error, (compile name version graph (generate setting top).names setting.preset
        setting.capabilities policy).1 = .error error ↔
      graph.Fault (generate setting top).names error) ∧
    graph.Readable (generate setting top).names := by
  have ready := ready_of_generate generated
  rcases compiles_or_faults ready with sound | ⟨first, fault⟩
  · obtain ⟨design, compiled⟩ := compile_ok ready name version policy sound.1 sound.2
    refine ⟨⟨fun _ => sound, fun _ => ⟨design, compiled⟩⟩, fun error =>
      ⟨fun fails => ?_, compile_error ready name version policy⟩, ready.readable⟩
    rw [compiled] at fails
    cases fails
  · have refused := compile_error ready name version policy fault
    refine ⟨⟨fun compiles => ?_, fun sound => ?_⟩, fun error => ⟨fun fails => ?_,
      compile_error ready name version policy⟩, ready.readable⟩
    · obtain ⟨design, compiled⟩ := compiles
      rw [refused] at compiled
      cases compiled
    · obtain ⟨design, compiled⟩ := compile_ok ready name version policy sound.1 sound.2
      rw [refused] at compiled
      cases compiled
    · rw [refused] at fails
      cases fails
      exact fault

theorem memory_design_compiles :
    ∃ graph, (generate MemoryDesign.hosted "Top").outcome = .ok graph ∧
      (∀ module ∈ graph.modules.toList, module.Answered) ∧
        ∀ site ∈ ServiceMap.serviceSites graph, graph.Provides site.1 site.2.2 := by
  have compiles : ((generate MemoryDesign.hosted "Top").outcome.toOption.bind fun graph =>
      (CompiledDesign.compile "Memory" "1.0" graph (generate MemoryDesign.hosted "Top").names .cosim
        BackendPreset.cosim.capabilities .roundRobin).1.toOption).isSome = true := by
    decide +kernel
  obtain ⟨design, found⟩ := Option.isSome_iff_exists.1 compiles
  obtain ⟨graph, returned, compiled⟩ := Option.bind_eq_some_iff.1 found
  have generated := eq_ok_of_toOption returned
  exact ⟨graph, generated, (generated_graph_compiles_iff generated).1.1
    ⟨design, eq_ok_of_toOption compiled⟩⟩

end Elastic
