import Elastic.Proofs.Build.Generated
import Elastic.Proofs.Build.OperationInvariants
import Elastic.Proofs.Build.Vetting

namespace Elastic

variable {setting : Setting} {elaborate : String → Elaborating ModuleId} {start : Names}

open Construction in
theorem operationInvariant_vetted (elaboratesVetted : ElaboratesVetted setting elaborate) :
    OperationInvariant setting elaborate (Builder.Vetted setting start) where
  port := keepsVetted_port
  constant := keepsVetted_constant
  bool := keepsVetted_bool
  struct := keepsVetted_struct
  field := keepsVetted_field
  and first second := keepsVetted_gate first second "and" _
  or first second := keepsVetted_gate first second "or" _
  not := keepsVetted_not
  wrap := keepsVetted_wrap
  unwrap := keepsVetted_unwrap
  pack := keepsVetted_pack
  unpack := keepsVetted_unpack
  call := keepsVetted_call
  request := keepsVetted_request
  builtin := keepsVetted_builtin
  instantiate := keepsVetted_instantiate elaboratesVetted
  withHoldings _ _ _ vetted := ⟨vetted.module, vetted.reserved, vetted.shared.modules,
    vetted.shared.names⟩

namespace Elaboration

variable {shared : Elaboration}

theorem Vetted.retable (vetted : shared.Vetted setting start) {names : Names} (types : TyPool)
    (grows : shared.names.Grows names) :
    Vetted setting start { shared with names := names, types := types } :=
  ⟨fun id module held => (vetted.modules id module held).grow grows, vetted.names.trans grows⟩

theorem names_declarePorts (module : String) (ports : List (String × Ty)) (shared : Elaboration)
    (vetted : shared.Vetted setting start) :
    Ends (declarePorts module ports) shared
      (fun declared after => (after.Vetted setting start ∧ shared.names.Grows after.names) ∧
        ∀ port ∈ declared, ∃ text, after.names.text? port.name = some text)
      fun _ after => after.Vetted setting start := by
  induction ports generalizing shared with
  | nil => exact Ends.pure_iff.2 ⟨⟨vetted, .refl _⟩, nofun⟩
  | cons port rest induction =>
      obtain ⟨name, ty⟩ := port
      unfold declarePorts
      refine Ends.ite (fun _ => Ends.throw_bind vetted) fun _ => ?_
      have grows := shared.names.grows_intern name
      refine Ends.bind_iff.2 (Ends.modifyGet_iff.2 ?_)
      refine Ends.bind (induction _ (vetted.retable (shared.types.intern ty).2 grows)) ?_
        fun _ _ vetted => vetted
      intro declared after ends
      obtain ⟨⟨vetted, later⟩, known⟩ := ends
      refine Ends.pure_iff.2 ⟨⟨vetted, grows.trans later⟩, ?_⟩
      intro port member
      rcases List.mem_cons.1 member with rfl | inside
      · exact ⟨name, later _ _ (Names.text?_intern _ _)⟩
      · exact known port inside

theorem vetted_constructModule (elaboratesVetted : Construction.ElaboratesVetted setting elaborate)
    (decl : ModuleDecl) :
    Maintains (Vetted setting start) (constructModule setting elaborate decl) := by
  intro shared vetted
  refine ends_constructModule (names_declarePorts decl.name decl.ports shared vetted) ?_
  intro ports first facts
  obtain ⟨⟨vetted, -⟩, known⟩ := facts
  have grows := first.names.grows_intern decl.name
  have vetted := vetted.retable first.types grows
  have fresh : Module.Vetted setting _ _ := Module.vetted_empty 0 decl.metadata
    ⟨_, Names.text?_intern first.names decl.name⟩ fun port member =>
      (known port member).imp fun _ named => grows _ _ named
  refine ((operationInvariant_vetted elaboratesVetted).recipe decl.recipe _
    ⟨fresh, fun _ member => member, vetted.modules, vetted.names⟩).mono ?_ ?_
  · intro _ after vetted
    refine ⟨fun id module held => ?_, vetted.shared.names⟩
    rw [Elaboration.finish, Arena.get?_push] at held
    split at held
    · cases held
      exact vetted.module.numbered _
    · exact vetted.shared.modules id module held
  · exact fun _ after vetted => vetted.shared

theorem elaboratesVetted_elaborate (fuel : Nat) (running : List String) :
    Construction.ElaboratesVetted setting (Elaboration.elaborate setting fuel running) := by
  have each := @ends_elaborate setting (fun _ => True)
    (fun shared _ after => ∀ start, shared.Vetted setting start → after.Vetted setting start)
    (fun shared _ after => ∀ start, shared.Vetted setting start → after.Vetted setting start)
    (fun _ _ _ _ _ vetted => vetted) (fun _ _ _ _ _ vetted => vetted) ?_ fuel running
  · intro name start shared vetted
    exact (each name shared trivial).mono (fun _ _ ends => ends start vetted) fun _ _ ends =>
      ends start vetted
  · intro fuel running each decl _ shared _
    have elaboratesVetted : Construction.ElaboratesVetted setting
      (Elaboration.elaborate setting fuel running) :=
      fun name start shared vetted => (each name shared trivial).mono
        (fun _ _ ends => ends start vetted) fun _ _ ends => ends start vetted
    exact Ends.all fun start => Ends.all fun vetted =>
      vetted_constructModule elaboratesVetted decl shared vetted

theorem vetted_empty (setting : Setting) : ({} : Elaboration).Vetted setting {} := by
  refine ⟨fun id module held => ?_, .refl _⟩
  rw [Arena.get?_empty] at held
  cases held

end Elaboration

theorem vetted_of_generate {top : String} {graph : Graph}
    (generated : (generate setting top).outcome = .ok graph) :
    ∀ id module, graph.modules.get? id = some module →
      module.Vetted setting (generate setting top).names := by
  have ends := Elaboration.elaboratesVetted_elaborate (setting.library.modules.length + 1)
    [] top {} {} (Elaboration.vetted_empty setting)
  obtain ⟨id, shared, vetted, names, rfl⟩ := elaborated_of_generate ends generated
  rw [names]
  exact vetted.modules

end Elastic
