import Elastic.Proofs.Build.Termination
import Elastic.Proofs.Build.Tree

namespace Elastic

/-! The instances of a generated graph in their order: each stands before those below it, and what
stands for one child before what stands for the next. -/

namespace Instance

variable {modules : Arena Module}

/-- Instances that stand for children of a module in an instance, numbered from `next` on, each
followed by all those below it. -/
inductive Unfolds (modules : Arena Module) :
    AppPath → InstanceId → List Child → InstanceId → List InstanceId → List Instance → Prop
  | nil {path : AppPath} {outer next : InstanceId} : Unfolds modules path outer [] next [] []
  | cons {path : AppPath} {outer next : InstanceId} {child : Child} {rest : List Child}
      {below ids : List InstanceId} {inner others : List Instance}
      (inside : Unfolds modules (AppPath.child path child.appId) next
        (childrenOf modules child.module) (next + 1) below inner)
      (behind : Unfolds modules path outer rest (next + 1 + inner.length) ids others) :
      Unfolds modules path outer (child :: rest) next (next :: ids)
        (⟨next, AppPath.child path child.appId, child.module, some outer, below⟩ :: inner ++ others)

def AddsTree (modules : Arena Module) (module : ModuleId) (path : AppPath)
    (parent : Option InstanceId) (before : Arena Instance)
    (result : InstanceId × Arena Instance) : Prop :=
  result.1 = before.size ∧ ∃ ids below,
    Unfolds modules path before.size (childrenOf modules module) (before.size + 1) ids below ∧
    result.2.toList = before.toList ++ ⟨before.size, path, module, parent, ids⟩ :: below

theorem size_of_toList {before after : Arena Instance} {more : List Instance}
    (placed : after.toList = before.toList ++ more) : after.size = before.size + more.length := by
  have lengths := congrArg List.length placed
  simpa [Arena.toList, Arena.size] using lengths

theorem addsTree_placeChildren (modules : Arena Module)
    (place : ModuleId → AppPath → Option InstanceId → Arena Instance → InstanceId × Arena Instance)
    (path : AppPath) (parent : InstanceId) (children : List Child) (before : Arena Instance)
    (addsTree : ∀ child ∈ children, ∀ before, AddsTree modules child.module
      (AppPath.child path child.appId) (some parent) before
      (place child.module (AppPath.child path child.appId) (some parent) before)) :
    ∃ below, Unfolds modules path parent children before.size
        (placeChildren place path parent children before).1 below ∧
      (placeChildren place path parent children before).2.toList = before.toList ++ below := by
  induction children generalizing before with
  | nil => exact ⟨[], .nil, (List.append_nil _).symm⟩
  | cons child rest induction =>
      obtain ⟨number, ids, inner, inside, listed⟩ := addsTree child List.mem_cons_self before
      obtain ⟨others, behind, after⟩ := induction
        (place child.module (AppPath.child path child.appId) (some parent) before).2
        fun child member => addsTree child (List.mem_cons_of_mem _ member)
      rw [size_of_toList listed, List.length_cons, ← Nat.add_assoc, Nat.add_right_comm] at behind
      refine ⟨_, ?_, after.trans (by rw [listed, List.append_assoc])⟩
      unfold placeChildren
      dsimp only
      rw [number]
      exact .cons inside behind

theorem toList_set {instances before : Arena Instance} {old new : Instance} {rest : List Instance}
    (placed : instances.toList = before.toList ++ old :: rest) :
    (instances.set before.size new).toList = before.toList ++ new :: rest := by
  have position : before.size = before.toList.length := rfl
  have list : (instances.set before.size new).toList = instances.toList.set before.size new :=
    Array.toList_setIfInBounds
  rw [list, placed, position, List.set_append_right _ _ (Nat.le_refl _), Nat.sub_self,
    List.set_cons_zero]

theorem addsTree_place (closed : ∀ id module, modules.get? id = some module →
      ∀ child ∈ module.children, child.module < id) (fuel : Nat) (module : ModuleId)
    (path : AppPath) (parent : Option InstanceId) (before : Arena Instance)
    (enough : module < fuel) :
    AddsTree modules module path parent before (place modules fuel module path parent before) := by
  induction fuel generalizing module path parent before with
  | zero => cases enough
  | succ fuel induction =>
      have addsTree := addsTree_placeChildren modules (place modules fuel) path before.size
        (childrenOf modules module) (before.push ⟨before.size, path, module, parent, []⟩)
        fun child member before' =>
          induction child.module (AppPath.child path child.appId) _ before'
            (Nat.lt_of_lt_of_le (childrenOf_earlier closed member) (Nat.le_of_lt_succ enough))
      obtain ⟨below, unfolds, listed⟩ := addsTree
      rw [Arena.size_push] at unfolds
      have pushed : (before.push ⟨before.size, path, module, parent, []⟩).toList ++ below =
          before.toList ++ ⟨before.size, path, module, parent, []⟩ :: below := by
        simp [Arena.push, Arena.toList]
      exact ⟨rfl, _, below, unfolds, toList_set (listed.trans pushed)⟩

end Instance

namespace Graph

inductive Ascends (graph : Graph) : InstanceId → List InstanceId → Prop
  | hostSilent {inst : InstanceId} (root : graph.parentOf inst = none) : Ascends graph inst [inst]
  | inside {inst outer : InstanceId} {rest : List InstanceId}
      (around : graph.parentOf inst = some outer) (ascends : Ascends graph outer rest) :
      Ascends graph inst (inst :: rest)

variable {graph : Graph} {module : ModuleId}

theorem Rooted.ascends_chain (rooted : graph.Rooted module) {fuel : Nat} {inst : InstanceId}
    (enough : inst ≤ fuel) : graph.Ascends inst (graph.chain fuel inst) := by
  induction fuel generalizing inst with
  | zero =>
      cases around : graph.parentOf inst with
      | none => exact .hostSilent around
      | some outer =>
          have earlier := Nat.lt_of_lt_of_le (rooted.parentOf_lt around) enough
          exact absurd earlier (Nat.not_lt_zero outer)
  | succ fuel induction =>
      unfold chain
      split <;> rename_i around
      · exact .hostSilent around
      · have earlier := Nat.lt_of_lt_of_le (rooted.parentOf_lt around) enough
        exact .inside around (induction (Nat.le_of_lt_succ earlier))

theorem Rooted.ascends (rooted : graph.Rooted module) (inst : InstanceId) :
    graph.Ascends inst (graph.ancestors inst) := by
  rcases Nat.lt_or_ge inst graph.instances.size with known | beyond
  · exact rooted.ascends_chain (Nat.le_of_lt known)
  · have root : graph.parentOf inst = none := by
      rw [parentOf, (Arena.get?_eq_none_iff _ _).2 beyond, Option.bind_none]
    have single (fuel : Nat) : graph.chain fuel inst = [inst] := by
      cases fuel with
      | zero => rfl
      | succ fuel =>
          unfold chain
          rw [root]
    unfold ancestors
    rw [single]
    exact .hostSilent root

/-- The modules of a graph have different titles and stand behind their children, the top module
last. Its instances are those of the top module, each before those below it. -/
structure Preordered (names : Names) (graph : Graph) (top : String) (last : ModuleId) : Prop where
  titled : ∃ titles, Titled names graph.modules (titles ++ [top])
  highest : last + 1 = graph.modules.size
  rooted : graph.Rooted last
  unfolds : ∃ ids below, graph.instances.toList = ⟨0, [⟨top, none⟩], last, none, ids⟩ :: below ∧
    Instance.Unfolds graph.modules [⟨top, none⟩] 0 (Instance.childrenOf graph.modules last) 1 ids
      below
  ascends : ∀ inst, graph.Ascends inst (graph.ancestors inst)

end Graph

theorem preordered_of_generate {setting : Setting} {top : String} {graph : Graph}
    (generated : (generate setting top).outcome = .ok graph) :
    ∃ last, graph.Preordered (generate setting top).names top last := by
  have closed : ∀ id module, graph.modules.get? id = some module →
      ∀ child ∈ module.children, child.module < id := fun id module held =>
    (wired_of_generate False generated False.elim id module held).placed.children
  obtain ⟨last, shared, ⟨size, titled⟩, names, rfl⟩ :=
    elaborated_of_generate (Elaboration.catalogued_elaborateTop top) generated
  have bound : last < shared.modules.size := Nat.lt_of_lt_of_eq (Nat.lt_succ_self last) size
  have rooted : Graph.Rooted (Graph.unfold shared.modules shared.types setting.library.services
      last top) last := Graph.rooted_unfold bound closed
  obtain ⟨-, ids, below, unfolds, listed⟩ :=
    Instance.addsTree_place closed shared.modules.size last [⟨top, none⟩] none {} bound
  refine ⟨last, ?_, size, rooted, ⟨ids, below, listed, unfolds⟩, rooted.ascends⟩
  rw [names]
  exact titled

/-- A generation ends by itself, whatever the modules of its library ask for and whichever errors
they catch, and what it returns is in order. -/
theorem generation_ends_in_order (setting : Setting) (top : String) :
    Elaboration.elaborateTop setting top = Elaboration.unbounded setting [] top ∧
      ∀ graph, (generate setting top).outcome = .ok graph →
        ∃ last, graph.Preordered (generate setting top).names top last := by
  constructor
  · refine congrFun (Elaboration.elaborate_eq_unbounded _ [] ?_) top
    rw [Library.length_waiting]
    exact Nat.lt_succ_self _
  · exact fun graph generated => preordered_of_generate generated

/-- A ring of two modules that ask for one another. The top module catches the refusals and goes on
with two instances of a third one. -/
def entwined : Setting where
  library := { modules := [
    { name := "Leaf" },
    { name := "Ring"
      recipe := .step (.instantiate "Leaf" ⟨"leaf", none⟩ []) <|
        .step (.instantiate "Top" ⟨"top", none⟩ []) .done },
    { name := "Top"
      recipe := .attempt (.step (.instantiate "Top" ⟨"self", none⟩ []) .done) <|
        .attempt (.step (.instantiate "Ring" ⟨"ring", none⟩ []) .done) <|
        .step (.instantiate "Leaf" ⟨"leaf", some 0⟩ []) <|
        .step (.instantiate "Leaf" ⟨"leaf", some 1⟩ []) .done }] }
  preset := .cosim
  capabilities := BackendPreset.cosim.capabilities

theorem entwined_ends_in_order :
    Elaboration.elaborateTop entwined "Top" = Elaboration.unbounded entwined [] "Top" ∧
      ∃ graph last, (generate entwined "Top").outcome = .ok graph ∧ graph.instances.size = 3 ∧
        graph.Preordered (generate entwined "Top").names "Top" last := by
  obtain ⟨ends, ordered⟩ := generation_ends_in_order entwined "Top"
  have placed : ((generate entwined "Top").outcome.toOption.map fun graph =>
      graph.instances.size) = some 3 := by
    decide +kernel
  obtain ⟨graph, returned, size⟩ := Option.map_eq_some_iff.1 placed
  have generated := eq_ok_of_toOption returned
  obtain ⟨last, preordered⟩ := ordered graph generated
  exact ⟨ends, graph, last, generated, size, preordered⟩

end Elastic
