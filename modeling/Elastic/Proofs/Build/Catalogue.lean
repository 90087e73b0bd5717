import Elastic.Proofs.Build.Generated
import Elastic.Proofs.Build.Tables

namespace Elastic

/-! The titles of the modules of a generation. A module is finished once only: one that is asked for
again is found, and one that is asked for while it is under construction is refused, also where the
refusal is caught. -/

variable {setting : Setting}

/-- Each module has its place as its number, and a title of its own that its name stands for. -/
structure Titled (names : Names) (modules : Arena Module) (titles : List String) : Prop where
  count : titles.length = modules.size
  distinct : titles.Nodup
  named : ∀ id module, modules.get? id = some module →
    module.id = id ∧ ∃ title, titles[id]? = some title ∧ names.text? module.name = some title

theorem Titled.grow {names after : Names} {modules : Arena Module} {titles : List String}
    (titled : Titled names modules titles) (grows : names.Grows after) :
    Titled after modules titles := by
  refine ⟨titled.count, titled.distinct, fun id module held => ?_⟩
  obtain ⟨number, title, listed, text⟩ := titled.named id module held
  exact ⟨number, title, listed, grows _ _ text⟩

theorem Titled.push {names : Names} {modules : Arena Module} {titles : List String}
    (titled : Titled names modules titles) {module : Module} {title : String}
    (named : names.text? module.name = some title) (fresh : title ∉ titles) :
    Titled names (modules.push { module with id := modules.size }) (titles ++ [title]) := by
  refine ⟨?_, ?_, fun id held known => ?_⟩
  · rw [List.length_append, titled.count, Arena.size_push, List.length_singleton]
  · exact List.nodup_append.2 ⟨titled.distinct, List.pairwise_singleton _ title,
      fun one inside other last => by
        rw [List.mem_singleton.1 last]
        exact fun same => fresh (same ▸ inside)⟩
  · rw [Arena.get?_push] at known
    split at known
    · rename_i last
      cases known
      refine ⟨last.symm, title, ?_, named⟩
      rw [last, ← titled.count, List.getElem?_concat_length]
    · obtain ⟨number, held, listed, text⟩ := titled.named id held known
      have bound := (List.getElem?_eq_some_iff.1 listed).1
      exact ⟨number, held, List.getElem?_append_left bound ▸ listed, text⟩

namespace Elaboration

/-- The finished modules are those that have titles, and none of them is under construction. -/
structure Listed (running : List String) (shared : Elaboration) (titles : List String) : Prop where
  titled : Titled shared.names shared.modules titles
  finished : ∀ title id, (title, id) ∈ shared.finished ↔ titles[id]? = some title
  apart : ∀ title ∈ titles, title ∉ running

/-- The modules have titles, and names that were known stay known. -/
structure Catalogued (known : Names) (running : List String) (shared : Elaboration) : Prop where
  names : known.Grows shared.names
  listed : ∃ titles, shared.Listed running titles

variable {known : Names} {running : List String}

theorem tableInvariant_catalogued : TableInvariant (Catalogued known running) := by
  refine .of_grows ?_ ?_
  · rintro shared names types ⟨grown, titles, titled, finished, apart⟩ grows -
    exact ⟨grown.trans grows, titles, titled.grow grows, finished, apart⟩
  · rintro shared notes holdings ⟨grown, titles, titled, finished, apart⟩
    exact ⟨grown, titles, titled, finished, apart⟩

theorem catalogued_empty : Catalogued {} running {} := by
  refine ⟨.refl _, [], ⟨rfl, List.nodup_nil, fun id module held => ?_⟩, ?_, nofun⟩
  · rw [Arena.get?_empty] at held
    cases held
  · exact fun title id => ⟨nofun, nofun⟩

theorem Listed.not_mem {shared : Elaboration} {titles : List String} {name : String}
    (listed : shared.Listed running titles) (fresh : shared.finished? name = none) :
    name ∉ titles := by
  intro inside
  obtain ⟨id, found⟩ := List.mem_iff_getElem?.1 inside
  have entry := (listed.finished name id).2 found
  have absent := List.find?_eq_none.1 (Option.map_eq_none_iff.1 fresh) _ entry
  exact absent (decide_eq_true rfl)

theorem Catalogued.start {shared : Elaboration} {name : String}
    (catalogued : shared.Catalogued known running) (fresh : shared.finished? name = none) :
    shared.Catalogued known (running ++ [name]) := by
  obtain ⟨grows, titles, listed⟩ := catalogued
  refine ⟨grows, titles, listed.titled, listed.finished, fun title inside member => ?_⟩
  rcases List.mem_append.1 member with earlier | last
  · exact listed.apart title inside earlier
  · exact listed.not_mem fresh (List.mem_singleton.1 last ▸ inside)

theorem Catalogued.abandon {shared : Elaboration} {earlier : Names} {name : String}
    (catalogued : shared.Catalogued known (running ++ [name])) (grows : earlier.Grows known) :
    shared.Catalogued earlier running := by
  obtain ⟨grown, titles, listed⟩ := catalogued
  exact ⟨grows.trans grown, titles, listed.titled, listed.finished, fun title inside member =>
    listed.apart title inside (List.mem_append_left _ member)⟩

theorem Catalogued.finish {shared : Elaboration} {earlier : Names} {name : String} {module : Module}
    (catalogued : shared.Catalogued known (running ++ [name])) (grows : earlier.Grows known)
    (named : shared.names.text? module.name = some name) (apart : name ∉ running) :
    (shared.finish name module).Catalogued earlier running := by
  obtain ⟨grown, titles, titled, finished, others⟩ := catalogued
  have fresh : name ∉ titles := fun inside => others name inside (by simp)
  refine ⟨grows.trans grown, titles ++ [name], titled.push named fresh, fun title id => ?_, ?_⟩
  · have entry : (title, id) ∈ (shared.finish name module).finished ↔
        (title = name ∧ id = titles.length) ∨ (title, id) ∈ shared.finished := by
      rw [Elaboration.finish, List.mem_cons, Prod.mk.injEq, titled.count]
    rw [entry, finished, List.getElem?_append, List.getElem?_singleton]
    grind
  · intro title inside member
    rcases List.mem_append.1 inside with earlier | last
    · exact others title earlier (List.mem_append_left _ member)
    · exact apart (List.mem_singleton.1 last ▸ member)

theorem maintains_declarePorts {good : Elaboration → Prop} (tableInvariant : TableInvariant good)
    (module : String) (ports : List (String × Ty)) :
    Maintains good (declarePorts module ports) := by
  induction ports with
  | nil => exact .pure _
  | cons port rest induction =>
      refine .ite (.throw_bind _) (.bind (.modifyGet fun shared holds => ?_) fun _ =>
        induction.bind fun _ => .pure _)
      exact tableInvariant.internTy _ port.2 (tableInvariant.internName shared port.1 holds)

theorem maintains_elaborate {good : Elaboration → Prop} (tableInvariant : TableInvariant good)
    (scopes : ∀ shared nextScope, good shared → good { shared with nextScope := nextScope })
    (finishes : ∀ shared name module, good shared → good (shared.finish name module))
    (fuel : Nat) (running : List String) (name : String) :
    Maintains good (Elaboration.elaborate setting fuel running name) := by
  refine fun shared holds => ends_elaborate good (fun _ _ => good) (fun _ _ => good)
    (fun _ holds _ _ => holds) (fun _ holds _ _ => holds) ?_ fuel running name shared holds
  intro fuel running maintains decl _ shared holds
  refine ends_constructModule (maintains_declarePorts tableInvariant _ _ shared holds) ?_
  intro ports first holds
  have operationInvariant : OperationInvariant setting (Elaboration.elaborate setting fuel running)
      (Builder.NamedWith good (first.names.intern decl.name).1) :=
    Construction.operationInvariant_tables tableInvariant maintains
  have begun := scopes _ (first.nextScope + 1) (tableInvariant.internName first decl.name holds)
  refine (operationInvariant.recipe decl.recipe _ ⟨rfl, begun⟩).mono ?_ ?_
  · exact fun _ _ namedWith => finishes _ _ _ namedWith.shared
  · exact fun _ _ namedWith => namedWith.shared

theorem catalogued_constructModule {elaborate : String → Elaborating ModuleId} (decl : ModuleDecl)
    (elaborates : ∀ known name,
      Maintains (Catalogued known (running ++ [decl.name])) (elaborate name))
    {shared : Elaboration} (apart : decl.name ∉ running)
    (catalogued : shared.Catalogued known (running ++ [decl.name])) :
    Ends (constructModule setting elaborate decl) shared
      (fun id after => (after.Catalogued known running ∧ (decl.name, id) ∈ after.finished) ∧
        id + 1 = after.modules.size)
      fun _ after => after.Catalogued known running := by
  have declares := maintains_declarePorts tableInvariant_catalogued decl.name decl.ports
    shared catalogued
  refine ends_constructModule (declares.mono (fun _ _ held => held) fun _ _ failed =>
    failed.abandon (.refl _)) ?_
  intro ports first held
  have grown := held.names.trans (Names.grows_intern first.names decl.name)
  have begun : Catalogued (first.names.intern decl.name).2 (running ++ [decl.name])
      { first with
        names := (first.names.intern decl.name).2
        nextScope := first.nextScope + 1 } := by
    obtain ⟨-, titles, titled, finished, others⟩ := held
    exact ⟨.refl _, titles, titled.grow (Names.grows_intern _ _), finished, others⟩
  have operationInvariant : OperationInvariant setting elaborate (Builder.NamedWith
      (Catalogued (first.names.intern decl.name).2 (running ++ [decl.name]))
      (first.names.intern decl.name).1) :=
    Construction.operationInvariant_tables tableInvariant_catalogued
      (elaborates (first.names.intern decl.name).2)
  refine Ends.mono (operationInvariant.recipe decl.recipe _ ⟨rfl, ?_⟩) ?_ ?_
  · exact begun
  · intro _ after namedWith
    refine ⟨⟨namedWith.shared.finish grown ?_ apart, List.mem_cons_self⟩,
      (Arena.size_push _ _).symm⟩
    rw [namedWith.name]
    exact namedWith.shared.names _ _ (Names.text?_intern _ _)
  · exact fun _ after namedWith => namedWith.shared.abandon grown

theorem name_of_module? {library : Library} {name : String} {decl : ModuleDecl}
    (declared : library.module? name = some decl) : decl.name = name :=
  of_decide_eq_true (List.find?_some (p := fun decl : ModuleDecl => decl.name = name) declared)

/-- However an elaboration ends, the modules that are finished are catalogued. One that ends well
gives the number of the module with the title that is asked for. -/
theorem catalogued_elaborate (fuel : Nat) (running : List String) (known : Names) (name : String)
    {shared : Elaboration} (catalogued : shared.Catalogued known running) :
    Ends (Elaboration.elaborate setting fuel running name) shared
      (fun id after => after.Catalogued known running ∧ (name, id) ∈ after.finished)
      fun _ after => after.Catalogued known running := by
  induction fuel generalizing running known name shared with
  | zero =>
      exact ends_open (fun _ inside => ⟨catalogued, inside⟩) (fun _ _ => catalogued) nofun
  | succ fuel induction =>
      refine ends_open (fun _ inside => ⟨catalogued, inside⟩) (fun _ _ => catalogued)
        fun inner same decl declared fresh apart => ?_
      cases same
      obtain rfl := name_of_module? declared
      refine (catalogued_constructModule decl (fun known name shared holds => ?_) apart
        (catalogued.start fresh)).mono (fun _ _ ends => ends.1) fun _ _ failed => failed
      exact (induction _ known name holds).mono (fun _ _ ends => ends.1) fun _ _ failed => failed

theorem catalogued_elaborateTop (top : String) :
    Ends (elaborateTop setting top) {}
      (fun id after => id + 1 = after.modules.size ∧
        ∃ titles, Titled after.names after.modules (titles ++ [top]))
      fun _ _ => True := by
  refine ends_open nofun (fun _ _ => trivial) fun inner same decl declared fresh apart => ?_
  cases same
  obtain rfl := name_of_module? declared
  have begun : Catalogued {} ([] ++ [decl.name]) {} := catalogued_empty
  refine (catalogued_constructModule decl (fun known name shared holds => ?_) apart begun).mono
    (fun id after ends => ?_) fun _ _ _ => trivial
  · exact (catalogued_elaborate _ _ known name holds).mono (fun _ _ ends => ends.1)
      fun _ _ failed => failed
  · obtain ⟨⟨⟨-, titles, titled, finished, -⟩, inside⟩, last⟩ := ends
    have found := (finished _ _).1 inside
    rcases List.eq_nil_or_concat titles with rfl | ⟨earlier, title, rfl⟩
    · cases found
    · have count := titled.count
      rw [List.concat_eq_append] at found titled count
      rw [List.length_append, ← last, List.length_singleton, Nat.add_right_cancel_iff] at count
      rw [← count, List.getElem?_concat_length] at found
      cases found
      exact ⟨last, earlier, titled⟩

end Elaboration

end Elastic
