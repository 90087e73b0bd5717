import Elastic.Proofs.Build.Provision
import Elastic.Proofs.Build.Invariants

namespace Elastic

/-! What modules share, and the name of the module on the builder. No operation of a construction
but an instantiation does more to it than to add names and types. -/

/-- A property of what modules share that stays when names and types are added, and that neither the
notes nor what is lent matter to. -/
structure Elaboration.TableInvariant (good : Elaboration → Prop) : Prop where
  internName : ∀ (shared : Elaboration) text, good shared →
    good { shared with names := (shared.names.intern text).2 }
  internTy : ∀ (shared : Elaboration) ty, good shared →
    good { shared with types := (shared.types.intern ty).2 }
  withHoldings : ∀ (shared : Elaboration) notes holdings, good shared →
    good { shared with notes := notes, holdings := holdings }

theorem Elaboration.TableInvariant.of_grows {good : Elaboration → Prop}
    (retable : ∀ (shared : Elaboration) names types, good shared → shared.names.Grows names →
      shared.types.Grows types → good { shared with names := names, types := types })
    (withHoldings : ∀ (shared : Elaboration) notes holdings, good shared →
      good { shared with notes := notes, holdings := holdings }) :
    Elaboration.TableInvariant good where
  internName shared text holds :=
    retable shared _ shared.types holds (shared.names.grows_intern text) (.refl _)
  internTy shared ty holds :=
    retable shared shared.names _ holds (.refl _) (shared.types.grows_intern ty)
  withHoldings := withHoldings

structure Builder.NamedWith (good : Elaboration → Prop) (ident : Ident) (builder : Builder) :
    Prop where
  name : builder.module.name = ident
  shared : good builder.shared

variable {good : Elaboration → Prop} {ident : Ident}

variable {setting : Setting} {elaborate : String → Elaborating ModuleId}

namespace Construction

theorem builderInvariant_namedWith (tableInvariant : Elaboration.TableInvariant good)
    (elaborates : ∀ name, Maintains good (elaborate name)) :
    BuilderInvariant elaborate (fun _ => True) (fun _ => True) (Builder.NamedWith good ident)
      fun _ => True where
  internTy ty _ namedWith :=
    Ends.modifyGet_iff.2 ⟨namedWith.name, tableInvariant.internTy _ ty namedWith.shared⟩
  internName text _ namedWith :=
    Ends.modifyGet_iff.2 ⟨namedWith.name, tableInvariant.internName _ text namedWith.shared⟩
  appIds _ _ namedWith := ⟨namedWith.name, namedWith.shared⟩
  addExpr _ _ _ namedWith := Ends.modifyGet_iff.2 ⟨namedWith.name, namedWith.shared⟩
  addChannel _ _ _ namedWith := Ends.modifyGet_iff.2 ⟨namedWith.name, namedWith.shared⟩
  addBundle _ _ _ _ namedWith := Ends.modifyGet_iff.2 ⟨namedWith.name, namedWith.shared⟩
  addService _ _ namedWith := Ends.modifyGet_iff.2 ⟨namedWith.name, namedWith.shared⟩
  declare _ _ _ namedWith := ⟨namedWith.name, namedWith.shared⟩
  bind channel consumer _ builder namedWith := by
    refine Ends.get_bind (Ends.ite (fun _ => Ends.modify_iff.2 ⟨?_, namedWith.shared⟩) fun _ =>
      Ends.throw_iff.2 ⟨namedWith, trivial⟩)
    have same : (builder.module.consume channel.id consumer).name = builder.module.name := by
      unfold Module.consume
      split <;> rfl
    exact same.trans namedWith.name
  setBundle _ _ _ _ namedWith := Ends.modify_iff.2 ⟨namedWith.name, namedWith.shared⟩
  elaborates name builder namedWith := by
    refine (ends_onShared (elaborates name builder.shared namedWith.shared)).mono ?_ ?_
    · rintro id _ ⟨shared, rfl, holds⟩
      exact ⟨namedWith.name, holds⟩
    · rintro error _ ⟨shared, rfl, holds⟩
      exact ⟨⟨namedWith.name, holds⟩, trivial⟩
  fresh _ _ := trivial

theorem operationInvariant_tables (tableInvariant : Elaboration.TableInvariant good)
    (elaborates : ∀ name, Maintains good (elaborate name)) :
    OperationInvariant setting elaborate (Builder.NamedWith good ident) :=
  (builderInvariant_namedWith tableInvariant elaborates).operationInvariant
    fun _ notes holdings namedWith =>
    ⟨namedWith.name, tableInvariant.withHoldings _ notes holdings namedWith.shared⟩

end Construction

end Elastic
