import Elastic.Build.Generate
import Elastic.Proofs.Build.Wiring
import Mathlib.Data.List.Forall2

namespace Elastic

/-! The tree of instances of a generated graph. The instances below an instance stand for the
children of its module, in their order, and every instance but the root is one of those below the
instance around it, which has a smaller number. -/

theorem exists_of_forall₂ {relation : α → β → Prop} {first : List α} {second : List β}
    (both : List.Forall₂ relation first second) {item : α} (member : item ∈ first) :
    ∃ other ∈ second, relation item other := by
  induction both with
  | nil => cases member
  | cons related rest induction =>
      rcases List.mem_cons.1 member with rfl | inside
      · exact ⟨_, List.mem_cons_self, related⟩
      · obtain ⟨other, present, related⟩ := induction inside
        exact ⟨other, List.mem_cons_of_mem _ present, related⟩

namespace Instance

variable {modules : Arena Module} {before after : Arena Instance} {first : InstanceId}
  {roots : List InstanceId}

structure StandsFor (instances : Arena Instance) (outer : InstanceId) (path : AppPath)
    (id : InstanceId) (child : Child) : Prop where
  later : outer < id
  held : ∃ below, instances.get? id = some ⟨id, AppPath.child path child.appId, child.module,
    some outer, below⟩

theorem StandsFor.grow {outer id : InstanceId} {path : AppPath} {child : Child}
    (stands : StandsFor before outer path id child) (grows : before.Grows after) :
    StandsFor after outer path id child :=
  ⟨stands.later, stands.held.imp fun _ held => grows _ _ held⟩

def childrenOf (modules : Arena Module) (module : ModuleId) : List Child :=
  ((modules.get? module).map (·.children)).getD []

theorem exists_of_mem_childrenOf {module : ModuleId} {child : Child}
    (member : child ∈ childrenOf modules module) :
    ∃ held, modules.get? module = some held ∧ child ∈ held.children := by
  unfold childrenOf at member
  cases known : modules.get? module with
  | none =>
      rw [known] at member
      cases member
  | some held =>
      rw [known] at member
      exact ⟨held, rfl, member⟩

theorem childrenOf_earlier (closed : ∀ id module, modules.get? id = some module →
      ∀ child ∈ module.children, child.module < id) {module : ModuleId} {child : Child}
    (member : child ∈ childrenOf modules module) : child.module < module := by
  obtain ⟨held, known, inside⟩ := exists_of_mem_childrenOf member
  exact closed module held known child inside

def Covers (modules : Arena Module) (instances : Arena Instance) (held : Instance) : Prop :=
  List.Forall₂ (StandsFor instances held.id held.path) held.children
    (childrenOf modules held.module)

structure ChildOf (instances : Arena Instance) (first : InstanceId) (held : Instance)
    (outer : InstanceId) (around : Instance) : Prop where
  parent : held.parent = some outer
  since : first ≤ outer
  earlier : outer < held.id
  present : instances.get? outer = some around
  below : held.id ∈ around.children

/-- An instance with its number, all instances below it, and, if it is no root, one around it. -/
structure InTree (modules : Arena Module) (instances : Arena Instance) (first : InstanceId)
    (roots : List InstanceId) (id : InstanceId) (held : Instance) : Prop where
  number : held.id = id
  covers : held.Covers modules instances
  outer : id ∈ roots ∨ ∃ outer around, held.ChildOf instances first outer around

theorem Covers.grow {held : Instance} (covers : held.Covers modules before)
    (grows : before.Grows after) : held.Covers modules after :=
  covers.imp fun _ _ stands => stands.grow grows

theorem ChildOf.grow {held around : Instance} {outer : InstanceId}
    (childOf : held.ChildOf before first outer around) (grows : before.Grows after)
    {first' : InstanceId} (earlier : first' ≤ first) : held.ChildOf after first' outer around :=
  ⟨childOf.parent, Nat.le_trans earlier childOf.since, childOf.earlier, grows _ _ childOf.present,
    childOf.below⟩

structure AddsInTree (modules : Arena Module) (before after : Arena Instance)
    (roots : List InstanceId) : Prop where
  grows : before.Grows after
  inTree : ∀ id held, after.get? id = some held → before.size ≤ id →
    held.InTree modules after before.size roots id

theorem AddsInTree.nothing (modules : Arena Module) (instances : Arena Instance) :
    AddsInTree modules instances instances [] :=
  ⟨fun _ _ held => held, fun _ _ held since =>
    absurd (Arena.lt_size_of_get? held) (Nat.not_lt.2 since)⟩

theorem AddsInTree.append {middle : Arena Instance} {others : List InstanceId}
    (one : AddsInTree modules before middle roots)
    (other : AddsInTree modules middle after others) :
    AddsInTree modules before after (roots ++ others) := by
  refine ⟨fun id held known => other.grows _ _ (one.grows _ _ known), ?_⟩
  intro id held known since
  by_cases old : id < middle.size
  · obtain ⟨earlier, present⟩ := Arena.exists_get?_of_lt_size old
    cases (other.grows _ _ present).symm.trans known
    obtain ⟨number, covers, outer⟩ := one.inTree id held present since
    refine ⟨number, covers.grow other.grows, ?_⟩
    rcases outer with root | ⟨outer, around, childOf⟩
    · exact .inl (List.mem_append_left _ root)
    · exact .inr ⟨outer, around, childOf.grow other.grows (Nat.le_refl _)⟩
  · obtain ⟨number, covers, outer⟩ := other.inTree id held known (Nat.not_lt.1 old)
    refine ⟨number, covers, ?_⟩
    rcases outer with root | ⟨outer, around, childOf⟩
    · exact .inl (List.mem_append_right _ root)
    · exact .inr ⟨outer, around, childOf.grow (fun _ _ held => held) one.grows.size_le⟩

structure Places (modules : Arena Module) (module : ModuleId) (path : AppPath)
    (parent : Option InstanceId) (before : Arena Instance)
    (result : InstanceId × Arena Instance) : Prop where
  id : result.1 = before.size
  held : ∃ below, result.2.get? result.1 = some ⟨result.1, path, module, parent, below⟩
  addsInTree : AddsInTree modules before result.2 [result.1]

theorem addsInTree_placeChildren
    (place : ModuleId → AppPath → Option InstanceId → Arena Instance → InstanceId × Arena Instance)
    (path : AppPath) {parent : InstanceId} (children : List Child) (before : Arena Instance)
    (later : parent < before.size)
    (places : ∀ child ∈ children, ∀ before, Places modules child.module
      (AppPath.child path child.appId) (some parent) before
      (place child.module (AppPath.child path child.appId) (some parent) before)) :
    AddsInTree modules before (placeChildren place path parent children before).2
        (placeChildren place path parent children before).1 ∧
      List.Forall₂ (StandsFor (placeChildren place path parent children before).2 parent path)
        (placeChildren place path parent children before).1 children := by
  induction children generalizing before with
  | nil => exact ⟨.nothing modules before, .nil⟩
  | cons child rest induction =>
      have one := places child List.mem_cons_self before
      have size := one.addsInTree.grows.size_le
      obtain ⟨others, stand⟩ := induction
        (place child.module (AppPath.child path child.appId) (some parent) before).2
        (Nat.lt_of_lt_of_le later size)
        fun child member => places child (List.mem_cons_of_mem _ member)
      refine ⟨one.addsInTree.append others, .cons ⟨?_, ?_⟩ stand⟩
      · exact Nat.lt_of_lt_of_eq later one.id.symm
      · exact one.held.imp fun _ held => others.grows _ _ held

section

variable {module : ModuleId} {path : AppPath} {parent : Option InstanceId}
  {placed : Arena Instance} {below : List InstanceId}

theorem places_of_addsInTree
    (addsInTree : AddsInTree modules (before.push ⟨before.size, path, module, parent, []⟩)
      placed below)
    (stand : List.Forall₂ (StandsFor placed before.size path) below (childrenOf modules module)) :
    Places modules module path parent before
      (before.size, placed.set before.size ⟨before.size, path, module, parent, below⟩) := by
  have pushed : before.size + 1 ≤ placed.size := by
    rw [← Arena.size_push]
    exact addsInTree.grows.size_le
  have other {id : InstanceId} (apart : id ≠ before.size) :
      (placed.set before.size ⟨before.size, path, module, parent, below⟩).get? id =
        placed.get? id := by
    rw [Arena.get?_set, if_neg fun same => apart same.1]
  have self : (placed.set before.size ⟨before.size, path, module, parent, below⟩).get? before.size =
      some ⟨before.size, path, module, parent, below⟩ := by
    rw [Arena.get?_set, if_pos ⟨rfl, pushed⟩]
  have stays {outer id : InstanceId} {around : AppPath} {child : Child}
      (since : before.size ≤ outer) (stands : StandsFor placed outer around id child) :
      StandsFor (placed.set before.size ⟨before.size, path, module, parent, below⟩) outer around id
        child := by
    refine ⟨stands.later, ?_⟩
    rw [other (Nat.ne_of_gt (Nat.lt_of_le_of_lt since stands.later))]
    exact stands.held
  refine ⟨rfl, ⟨below, self⟩, ?_, ?_⟩
  · intro id held known
    have bound := Arena.lt_size_of_get? known
    rw [other (Nat.ne_of_lt bound)]
    exact addsInTree.grows _ _ (Arena.grows_push before _ _ _ known)
  · intro id held known since
    by_cases root : id = before.size
    · subst root
      cases self.symm.trans known
      exact ⟨rfl, stand.imp fun _ _ stands => stays (Nat.le_refl _) stands,
        .inl List.mem_cons_self⟩
    · have after : before.size < id := Nat.lt_of_le_of_ne since (Ne.symm root)
      rw [other root] at known
      obtain ⟨rfl, covers, outer⟩ := addsInTree.inTree id held known
        (Nat.le_trans (Nat.le_of_eq (Arena.size_push _ _)) after)
      refine ⟨rfl, covers.imp fun _ _ stands => stays since stands, .inr ?_⟩
      rcases outer with inside | ⟨outer, around, childOf⟩
      · obtain ⟨child, -, stands⟩ := exists_of_forall₂ stand inside
        obtain ⟨inner, present⟩ := stands.held
        have equal := Option.some.inj (known.symm.trans present)
        exact ⟨_, _, congrArg Instance.parent equal, Nat.le_refl _, after, self, inside⟩
      · have sinceOuter : before.size < outer :=
          Nat.lt_of_lt_of_le (Nat.lt_of_lt_of_eq (Nat.lt_succ_self _) (Arena.size_push _ _).symm)
            childOf.since
        refine ⟨outer, around, childOf.parent, Nat.le_of_lt sinceOuter, childOf.earlier, ?_,
          childOf.below⟩
        rw [other (Nat.ne_of_gt sinceOuter)]
        exact childOf.present

end

theorem places_place (closed : ∀ id module, modules.get? id = some module →
      ∀ child ∈ module.children, child.module < id) (fuel : Nat) (module : ModuleId)
    (path : AppPath) (parent : Option InstanceId) (before : Arena Instance)
    (enough : module < fuel) :
    Places modules module path parent before (place modules fuel module path parent before) := by
  induction fuel generalizing module path parent before with
  | zero => cases enough
  | succ fuel induction =>
      have inner : ∀ child ∈ childrenOf modules module, child.module < fuel := fun child member =>
        Nat.lt_of_lt_of_le (childrenOf_earlier closed member) (Nat.le_of_lt_succ enough)
      obtain ⟨addsInTree, stand⟩ := addsInTree_placeChildren (place modules fuel) path
        (childrenOf modules module)
        (before.push ⟨before.size, path, module, parent, []⟩)
        (Nat.lt_of_lt_of_eq (Nat.lt_succ_self _) (Arena.size_push _ _).symm)
        fun child member before' =>
          induction child.module (AppPath.child path child.appId) _ before' (inner child member)
      exact places_of_addsInTree addsInTree stand

end Instance

namespace Graph

theorem moduleOf_of_size_le {graph : Graph} {inst : InstanceId}
    (beyond : graph.instances.size ≤ inst) : graph.moduleOf inst = default := by
  have absent := (graph.instances.get?_eq_none_iff inst).2 beyond
  simp [moduleOf, module?, absent]

theorem moduleOf_cases (graph : Graph) (inst : InstanceId) :
    graph.moduleOf inst = default ∨ ∃ id, graph.modules.get? id = some (graph.moduleOf inst) := by
  unfold moduleOf
  cases held : graph.module? inst with
  | none => exact .inl rfl
  | some module =>
      obtain ⟨place, -, known⟩ := Option.bind_eq_some_iff.1 held
      exact .inr ⟨place.module, known⟩

/-- The instances of a graph form a tree over the children of their modules. -/
structure Rooted (graph : Graph) (module : ModuleId) : Prop where
  bound : module < graph.modules.size
  closed : ∀ id module, graph.modules.get? id = some module →
    ∀ child ∈ module.children, child.module < id
  first : graph.root = 0
  root : ∃ path below, graph.instances.get? graph.root =
    some ⟨graph.root, path, module, none, below⟩
  inTree : ∀ id held, graph.instances.get? id = some held →
    held.InTree graph.modules graph.instances 0 [graph.root] id

theorem rooted_unfold {modules : Arena Module} {types : TyPool} {services : List Service}
    {top : ModuleId} {name : String} (bound : top < modules.size)
    (closed : ∀ id module, modules.get? id = some module →
      ∀ child ∈ module.children, child.module < id) :
    (Graph.unfold modules types services top name).Rooted top := by
  have places := Instance.places_place closed modules.size top [⟨name, none⟩] none {} bound
  exact ⟨bound, closed, places.id, ⟨_, places.held⟩, fun id held known =>
    places.addsInTree.inTree id held known (Nat.zero_le _)⟩

theorem Rooted.outer {graph : Graph} {module : ModuleId} (rooted : graph.Rooted module)
    {id : InstanceId} {held : Instance} (present : graph.instances.get? id = some held)
    (below : id ≠ graph.root) :
    ∃ outer around, held.ChildOf graph.instances 0 outer around := by
  rcases (rooted.inTree id held present).outer with root | childOf
  · exact absurd (List.mem_singleton.1 root) below
  · exact childOf

theorem Rooted.module_lt {graph : Graph} {module : ModuleId} (rooted : graph.Rooted module)
    {id : InstanceId} {held : Instance} (present : graph.instances.get? id = some held) :
    held.module < graph.modules.size := by
  by_cases root : id = graph.root
  · obtain ⟨path, below, known⟩ := rooted.root
    rw [root, known] at present
    cases present
    exact rooted.bound
  · obtain ⟨outer, around, childOf⟩ := rooted.outer present root
    obtain ⟨child, member, stands⟩ :=
      exists_of_forall₂ (rooted.inTree outer around childOf.present).covers childOf.below
    obtain ⟨below, same⟩ := stands.held
    rw [(rooted.inTree id held present).number, present] at same
    cases same
    obtain ⟨module, known, inside⟩ := Instance.exists_of_mem_childrenOf member
    exact Nat.lt_trans (rooted.closed _ module known child inside) (Arena.lt_size_of_get? known)

theorem Rooted.moduleOf {graph : Graph} {module : ModuleId} (rooted : graph.Rooted module)
    {inst : InstanceId} {held : Instance} (present : graph.instances.get? inst = some held) :
    graph.modules.get? held.module = some (graph.moduleOf inst) := by
  obtain ⟨inner, known⟩ := Arena.exists_get?_of_lt_size (rooted.module_lt present)
  rw [Graph.moduleOf, module?, present, Option.bind_some, known, Option.getD_some]

inductive Encloses (graph : Graph) (outer : InstanceId) : InstanceId → Prop
  | self : Encloses graph outer outer
  | inside {inner parent : InstanceId} (around : graph.parentOf inner = some parent)
      (encloses : Encloses graph outer parent) : Encloses graph outer inner

variable {graph : Graph} {module : ModuleId}

theorem Rooted.parentOf_lt (rooted : graph.Rooted module) {inner outer : InstanceId}
    (around : graph.parentOf inner = some outer) : outer < inner := by
  obtain ⟨held, present, parent⟩ := Option.bind_eq_some_iff.1 around
  by_cases root : inner = graph.root
  · obtain ⟨path, below, first⟩ := rooted.root
    rw [root, first] at present
    cases present
    cases parent
  · obtain ⟨_, _, childOf⟩ := rooted.outer present root
    cases childOf.parent.symm.trans parent
    rw [← (rooted.inTree inner held present).number]
    exact childOf.earlier

theorem encloses_of_mem_chain {fuel : Nat} {outer inner : InstanceId}
    (member : outer ∈ graph.chain fuel inner) : graph.Encloses outer inner := by
  induction fuel generalizing inner with
  | zero =>
      obtain rfl := List.mem_singleton.1 member
      exact .self
  | succ fuel induction =>
      unfold chain at member
      split at member
      · obtain rfl := List.mem_singleton.1 member
        exact .self
      · rename_i parent around
        rcases List.mem_cons.1 member with rfl | inside
        · exact .self
        · exact .inside around (induction inside)

theorem mem_chain_self (fuel : Nat) (inner : InstanceId) : inner ∈ graph.chain fuel inner := by
  cases fuel with
  | zero => exact List.mem_singleton_self _
  | succ fuel =>
      unfold chain
      split
      · exact List.mem_singleton_self _
      · exact List.mem_cons_self

theorem Rooted.mem_chain (rooted : graph.Rooted module) {fuel : Nat} {outer inner : InstanceId}
    (enough : inner ≤ fuel) (encloses : graph.Encloses outer inner) :
    outer ∈ graph.chain fuel inner := by
  induction encloses generalizing fuel with
  | self => exact mem_chain_self fuel outer
  | @inside inner parent around encloses induction =>
      have earlier := rooted.parentOf_lt around
      cases fuel with
      | zero => exact absurd (Nat.lt_of_lt_of_le earlier enough) (Nat.not_lt_zero _)
      | succ fuel =>
          unfold chain
          rw [around]
          exact List.mem_cons_of_mem _
            (induction (Nat.le_of_lt_succ (Nat.lt_of_lt_of_le earlier enough)))

theorem Rooted.mem_ancestors (rooted : graph.Rooted module) {outer inner : InstanceId}
    (bound : inner < graph.instances.size) :
    outer ∈ graph.ancestors inner ↔ graph.Encloses outer inner :=
  ⟨encloses_of_mem_chain, rooted.mem_chain (Nat.le_of_lt bound)⟩

end Graph

end Elastic
