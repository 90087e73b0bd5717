import Elastic.Proofs.Build.Screening
import Elastic.Proofs.Build.Tree
import Mathlib.Data.List.Induction
import Mathlib.Data.List.Nodup

namespace Elastic

/-! Paths of identifiers, and what stands under them. The instances of a graph, their service
instances and their builtins all have a path of their own, and no two of these paths are displayed
alike. -/

namespace AppId

def suffix (id : AppId) : List Char :=
  match id.index with
  | none => []
  | some index => '[' :: (Nat.toDigits 10 index.toNat ++ [']'])

theorem toList_text (id : AppId) : id.text.toList = id.name.toList ++ id.suffix := by
  obtain ⟨name, index⟩ := id
  cases index with
  | none => exact (List.append_nil _).symm
  | some index =>
      simp only [text, suffix, String.toList_append, List.append_assoc]
      rw [show toString index.toNat = index.toNat.repr from rfl, Nat.toList_repr]
      rfl

variable {id id' : AppId}

theorem plain_of_isWellFormed (formed : id.isWellFormed = true) {c : Char}
    (member : c ∈ id.name.toList) : isReserved c = false := by
  simp only [isWellFormed, Bool.and_eq_true, Bool.not_eq_true', List.any_eq_false,
    Bool.not_eq_true] at formed
  exact formed.2 c member

theorem takeWhile_text (formed : id.isWellFormed = true) :
    id.text.toList.takeWhile (· ≠ '[') = id.name.toList := by
  have plain : ∀ c ∈ id.name.toList, decide (c ≠ '[') = true := by
    intro c member
    refine decide_eq_true fun same => ?_
    have open' := plain_of_isWellFormed formed member
    rw [same] at open'
    cases open'
  have rest : id.suffix.takeWhile (· ≠ '[') = [] := by
    unfold suffix
    split <;> rfl
  rw [toList_text, List.takeWhile_append_of_pos plain, rest, List.append_nil]

theorem suffix_injective (same : id.suffix = id'.suffix) : id.index = id'.index := by
  unfold suffix at same
  split at same <;> split at same
  · simp only [*]
  · cases same
  · cases same
  · rename_i _ index known _ index' known'
    have digits := List.append_cancel_right (List.cons.inj same).2
    have numbers := congrArg (fun digits => Nat.ofDigitChars 10 digits 0) digits
    simp only [Nat.ofDigitChars_toDigits (Nat.lt_add_left 8 Nat.one_lt_two) (Nat.le_refl 10),
      UInt32.toNat_inj] at numbers
    rw [known, known', numbers]

theorem text_injective (formed : id.isWellFormed = true) (formed' : id'.isWellFormed = true)
    (same : id.text = id'.text) : id = id' := by
  have name : id.name = id'.name := by
    rw [← String.toList_inj, ← takeWhile_text formed, ← takeWhile_text formed', same]
  have index : id.index = id'.index := by
    have texts := congrArg String.toList same
    rw [toList_text, toList_text, name] at texts
    exact suffix_injective (List.append_cancel_left texts)
  cases id
  cases id'
  cases name
  cases index
  rfl

theorem dotless_text (formed : id.isWellFormed = true) : '.' ∉ id.text.toList := by
  rw [toList_text, List.mem_append]
  rintro (inside | inside)
  · have dot := plain_of_isWellFormed formed inside
    cases dot
  · unfold suffix at inside
    split at inside
    · cases inside
    · rw [List.mem_cons, List.mem_append, List.mem_singleton] at inside
      obtain first | digit | last := inside
      · cases first
      · have known := Nat.isDigit_of_mem_toDigits (by decide) (by decide) digit
        cases known
      · cases last

end AppId

namespace AppPath

theorem toList_text (path : AppPath) :
    path.text.toList = ['.'].intercalate (path.map fun id => id.text.toList) := by
  rw [text, String.toList_intercalate, List.map_map]
  rfl

theorem toList_text_cons (root : AppId) {path : AppPath} (nonempty : path ≠ []) :
    (text (root :: path)).toList = root.text.toList ++ '.' :: path.text.toList := by
  obtain ⟨first, rest, rfl⟩ := List.exists_cons_of_ne_nil nonempty
  rw [toList_text, toList_text, List.map_cons, List.map_cons, List.intercalate_cons_cons,
    List.append_assoc]
  rfl

theorem splitOn_text {path : AppPath} (nonempty : path ≠ [])
    (formed : ∀ id ∈ path, id.isWellFormed = true) :
    path.text.toList.splitOn '.' = path.map fun id => id.text.toList := by
  rw [toList_text]
  refine List.splitOn_intercalate _ (fun segment member => ?_) (mt List.map_eq_nil_iff.1 nonempty)
  obtain ⟨id, inside, rfl⟩ := List.mem_map.1 member
  exact AppId.dotless_text (formed id inside)

theorem eq_of_map_text {path path' : AppPath} (formed : ∀ id ∈ path, id.isWellFormed = true)
    (formed' : ∀ id ∈ path', id.isWellFormed = true)
    (same : (path.map fun id => id.text.toList) = path'.map fun id => id.text.toList) :
    path = path' := by
  induction path generalizing path' with
  | nil => exact (List.map_eq_nil_iff.1 same.symm).symm
  | cons id rest induction =>
      cases path' with
      | nil => cases same
      | cons id' rest' =>
          obtain ⟨one, others⟩ := List.forall_mem_cons.1 formed
          obtain ⟨one', others'⟩ := List.forall_mem_cons.1 formed'
          obtain ⟨first, last⟩ := List.cons.inj same
          rw [AppId.text_injective one one' (String.toList_inj.1 first),
            induction others others' last]

theorem text_injective {root : AppId} {path path' : AppPath}
    (formed : ∀ id ∈ path, id.isWellFormed = true)
    (formed' : ∀ id ∈ path', id.isWellFormed = true)
    (same : text (root :: path) = text (root :: path')) : path = path' := by
  have texts := congrArg String.toList same
  have hostSilent : (text [root]).toList = root.text.toList := by
    rw [toList_text, List.map_cons, List.map_nil, List.intercalate_singleton]
  by_cases none : path = []
  · by_cases none' : path' = []
    · rw [none, none']
    · rw [none, hostSilent, toList_text_cons root none'] at texts
      exact absurd (List.self_eq_append_right.1 texts) (List.cons_ne_nil _ _)
  · by_cases none' : path' = []
    · rw [none', hostSilent, toList_text_cons root none] at texts
      exact absurd (List.self_eq_append_right.1 texts.symm) (List.cons_ne_nil _ _)
    · rw [toList_text_cons root none, toList_text_cons root none'] at texts
      have below := (List.cons.inj (List.append_cancel_left texts)).2
      refine eq_of_map_text formed formed' ?_
      rw [← splitOn_text none formed, ← splitOn_text none' formed', below]

end AppPath

/-- What a module gives an identifier to. -/
inductive Member
  | child (position : Nat)
  | service (id : ServiceInstanceId)
  | builtin (position : Nat)

namespace Module

def appIdOf? (module : Module) : Member → Option AppId
  | .child position => (module.children[position]?).map (·.appId)
  | .service id => (module.services.get? id).map (·.appId)
  | .builtin position => (module.builtins[position]?).map (·.appId)

def members (module : Module) : List (AppId × Member) :=
  (module.children.zipIdx.map fun (child, position) => (child.appId, .child position)) ++
    (module.services.entries.map fun (id, held) => (held.appId, .service id)) ++
    module.builtins.zipIdx.map fun (held, position) => (held.appId, .builtin position)

variable {module : Module} {appId : AppId} {member member' : Member}

theorem map_fst_members (module : Module) : module.members.map (·.1) = module.appIds := by
  have zipped {α : Type} (items : List α) (name : α → AppId) :
      (items.zipIdx.map fun entry => name entry.1) = items.map name := by
    have same := congrArg (List.map name) (List.zipIdx_map_fst 0 items)
    rwa [List.map_map] at same
  simp only [members, appIds, Arena.entries, List.map_append, List.map_map, Function.comp_def,
    zipped]

theorem mem_members : (appId, member) ∈ module.members ↔ module.appIdOf? member = some appId := by
  simp only [members, List.mem_append, List.mem_map, Prod.exists, Arena.mem_entries,
    List.mem_zipIdx_iff_getElem?, Prod.mk.injEq]
  cases member with
  | child position => simp [appIdOf?]
  | service id => simp [appIdOf?]
  | builtin position => simp [appIdOf?]

theorem Identified.unique (identified : module.Identified)
    (known : module.appIdOf? member = some appId) (known' : module.appIdOf? member' = some appId) :
    member = member' := by
  have distinct : (module.members.map (·.1)).Nodup := by
    rw [map_fst_members]
    exact identified.distinct
  have same := List.inj_on_of_nodup_map distinct (mem_members.2 known) (mem_members.2 known') rfl
  exact (Prod.mk.inj same).2

theorem Identified.formed_of (identified : module.Identified)
    (known : module.appIdOf? member = some appId) : appId.isWellFormed = true := by
  refine identified.formed appId ?_
  rw [← map_fst_members]
  exact List.mem_map.2 ⟨_, mem_members.2 known, rfl⟩

end Module

/-- What a graph has a path for. -/
inductive Part
  | inst (id : InstanceId)
  | service (inst : InstanceId) (id : ServiceInstanceId)
  | builtin (inst : InstanceId) (position : Nat)
deriving DecidableEq

namespace Graph

def pathOf? (graph : Graph) : Part → Option AppPath
  | .inst id => (graph.instances.get? id).map (·.path)
  | .service inst id => ((graph.moduleOf inst).services.get? id).map fun held =>
      AppPath.child (graph.pathOf inst) held.appId
  | .builtin inst position => ((graph.moduleOf inst).builtins[position]?).map fun held =>
      AppPath.child (graph.pathOf inst) held.appId

def part? (graph : Graph) (inst : InstanceId) : Member → Option Part
  | .child position =>
      ((graph.instances.get? inst).bind fun held => held.children[position]?).map .inst
  | .service id => some (.service inst id)
  | .builtin position => some (.builtin inst position)

structure Holds (graph : Graph) (inst : InstanceId) (member : Member) (part : Part)
    (path : AppPath) : Prop where
  stands : graph.part? inst member = some part
  path : ∃ around appId, graph.pathOf? (.inst inst) = some around ∧
    (graph.moduleOf inst).appIdOf? member = some appId ∧ path = AppPath.child around appId

/-- Every part but the root stands in an instance, under an identifier of its module. -/
structure Addressed (graph : Graph) (root : AppId) : Prop where
  root : graph.pathOf? (.inst graph.root) = some [root]
  within : ∀ part path, graph.pathOf? part = some path →
    part = .inst graph.root ∨ ∃ inst member, graph.Holds inst member part path
  identified : ∀ inst, (graph.moduleOf inst).Identified

variable {graph : Graph} {root : AppId} {part part' : Part} {path path' : AppPath}

theorem Addressed.below (addressed : graph.Addressed root)
    (known : graph.pathOf? part = some path) :
    ∃ rest, path = root :: rest ∧ ∀ id ∈ rest, id.isWellFormed = true := by
  induction path using List.reverseRecOn generalizing part with
  | nil =>
      obtain rfl | ⟨inst, member, -, around, appId, -, -, same⟩ := addressed.within part _ known
      · cases addressed.root.symm.trans known
      · cases (List.append_eq_nil_iff.1 same.symm).2
  | append_singleton front last induction =>
      obtain rfl | ⟨inst, member, -, around, appId, outer, named, same⟩ :=
        addressed.within part _ known
      · rw [← Option.some.inj (addressed.root.symm.trans known)]
        exact ⟨[], rfl, nofun⟩
      · obtain ⟨rfl, last⟩ := List.append_inj' same rfl
        cases last
        obtain ⟨rest, rfl, formed⟩ := induction outer
        refine ⟨rest ++ [last], rfl, List.forall_mem_append.2 ⟨formed, ?_⟩⟩
        exact List.forall_mem_singleton.2 ((addressed.identified inst).formed_of named)

theorem Addressed.not_holds_root (addressed : graph.Addressed root) {inst : InstanceId}
    {member : Member} : ¬ graph.Holds inst member part [root] := by
  intro holds
  obtain ⟨around, appId, outer, -, same⟩ := holds.path
  obtain ⟨rest, rfl, -⟩ := addressed.below outer
  have lengths := congrArg List.length same
  simp [AppPath.child] at lengths

theorem Addressed.unique (addressed : graph.Addressed root)
    (known : graph.pathOf? part = some path) (known' : graph.pathOf? part' = some path) :
    part = part' := by
  induction path using List.reverseRecOn generalizing part part' with
  | nil =>
      obtain ⟨rest, same, -⟩ := addressed.below known
      cases same
  | append_singleton front last induction =>
      obtain rfl | ⟨inst, member, holds⟩ := addressed.within part _ known <;>
        obtain rfl | ⟨inst', member', holds'⟩ := addressed.within part' _ known'
      · rfl
      · rw [← Option.some.inj (addressed.root.symm.trans known)] at holds'
        exact absurd holds' addressed.not_holds_root
      · rw [← Option.some.inj (addressed.root.symm.trans known')] at holds
        exact absurd holds addressed.not_holds_root
      · obtain ⟨around, appId, outer, named, same⟩ := holds.path
        obtain ⟨around', appId', outer', named', same'⟩ := holds'.path
        obtain ⟨rfl, own⟩ := List.append_inj' same rfl
        obtain ⟨rfl, own'⟩ := List.append_inj' same' rfl
        cases own
        cases own'
        cases induction outer outer'
        cases (addressed.identified inst).unique named named'
        exact Option.some.inj (holds.stands.symm.trans holds'.stands)

/-- No two parts have paths that are displayed alike. -/
theorem Addressed.unique_text (addressed : graph.Addressed root)
    (known : graph.pathOf? part = some path) (known' : graph.pathOf? part' = some path')
    (same : path.text = path'.text) : part = part' := by
  obtain ⟨rest, rfl, formed⟩ := addressed.below known
  obtain ⟨rest', rfl, formed'⟩ := addressed.below known'
  cases AppPath.text_injective formed formed' same
  exact addressed.unique known known'

theorem exists_instance_of_moduleOf {inst : InstanceId} {member : Member} {appId : AppId}
    (known : (graph.moduleOf inst).appIdOf? member = some appId) :
    graph.pathOf? (.inst inst) = some (graph.pathOf inst) := by
  obtain ⟨held, present⟩ : ∃ held, graph.instances.get? inst = some held := by
    refine Arena.exists_get?_of_lt_size (Nat.lt_of_not_le fun beyond => ?_)
    rw [moduleOf_of_size_le beyond] at known
    cases member <;> cases known
  rw [pathOf?, pathOf, present]
  rfl

theorem Rooted.within {top : ModuleId} (rooted : graph.Rooted top)
    (known : graph.pathOf? part = some path) :
    part = .inst graph.root ∨ ∃ inst member, graph.Holds inst member part path := by
  cases part with
  | inst id =>
      by_cases same : id = graph.root
      · exact .inl (same ▸ rfl)
      · refine .inr ?_
        obtain ⟨held, present, rfl⟩ := Option.map_eq_some_iff.1 known
        obtain ⟨outer, around, childOf⟩ := rooted.outer present same
        obtain ⟨position, below⟩ := List.mem_iff_getElem?.1 childOf.below
        rw [(rooted.inTree id held present).number] at below
        have inTree := rooted.inTree outer around childOf.present
        obtain ⟨length, each⟩ := List.forall₂_iff_get.1 inTree.covers
        obtain ⟨bound, rfl⟩ := List.getElem?_eq_some_iff.1 below
        have inside := Nat.lt_of_lt_of_eq bound length
        obtain ⟨_, stands⟩ := (each position bound inside).held
        cases present.symm.trans stands
        refine ⟨outer, .child position, ?_, around.path,
          (Instance.childrenOf graph.modules around.module)[position].appId, ?_, ?_, rfl⟩
        · rw [part?, childOf.present, Option.bind_some, below, Option.map_some]
        · rw [pathOf?, childOf.present, Option.map_some]
        · have children : Instance.childrenOf graph.modules around.module =
              (graph.moduleOf outer).children := by
            rw [Instance.childrenOf, rooted.moduleOf childOf.present]
            rfl
          rw [Module.appIdOf?, ← children, List.getElem?_eq_getElem inside, Option.map_some]
  | service inst id =>
      obtain ⟨held, present, rfl⟩ := Option.map_eq_some_iff.1 known
      have named : (graph.moduleOf inst).appIdOf? (.service id) = some held.appId := by
        rw [Module.appIdOf?, present, Option.map_some]
      exact .inr ⟨inst, .service id, rfl, _, _, exists_instance_of_moduleOf named, named, rfl⟩
  | builtin inst position =>
      obtain ⟨held, present, rfl⟩ := Option.map_eq_some_iff.1 known
      have named : (graph.moduleOf inst).appIdOf? (.builtin position) = some held.appId := by
        rw [Module.appIdOf?, present, Option.map_some]
      exact .inr ⟨inst, .builtin position, rfl, _, _, exists_instance_of_moduleOf named, named, rfl⟩

theorem pathOf?_root_unfold {modules : Arena Module} {types : TyPool} {services : List Service}
    {top : ModuleId} {name : String} (bound : top < modules.size)
    (closed : ∀ id module, modules.get? id = some module →
      ∀ child ∈ module.children, child.module < id) :
    (Graph.unfold modules types services top name).pathOf?
        (.inst (Graph.unfold modules types services top name).root) = some [⟨name, none⟩] := by
  obtain ⟨below, held⟩ :=
    (Instance.places_place closed modules.size top [⟨name, none⟩] none {} bound).held
  rw [pathOf?, unfold]
  exact Option.map_eq_some_iff.2 ⟨_, held, rfl⟩

theorem addressed_of_generate {setting : Setting} {top : String}
    (generated : (generate setting top).outcome = .ok graph) :
    graph.Addressed ⟨top, none⟩ := by
  obtain ⟨⟨module, bound, unfolded⟩, wired⟩ := unfolded_of_generate False generated nofun
  have closed : ∀ id module, graph.modules.get? id = some module →
      ∀ child ∈ module.children, child.module < id :=
    fun id module held => (wired id module held).placed.children
  have rooted : graph.Rooted module := by
    rw [unfolded]
    exact rooted_unfold bound closed
  refine ⟨?_, fun _ _ => rooted.within, fun inst => ?_⟩
  · rw [unfolded]
    exact pathOf?_root_unfold bound closed
  · obtain absent | ⟨id, known⟩ := graph.moduleOf_cases inst
    · rw [absent]
      exact ⟨.nil, nofun⟩
    · exact (vetted_of_generate generated id _ known).identified

end Graph

end Elastic
