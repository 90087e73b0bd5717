import Elastic.Proofs.Graph.Codec
import Elastic.Proofs.Json.Indentation

namespace Elastic

open Json

/-! Different designs have different JSON texts. What is written as a number counts as that number,
of whatever size. -/

namespace Json

theorem nat_inj {first second : Nat} : nat first = nat second ↔ first = second := by
  simp [nat]

section

variable {encode : α → Json}

theorem list_injective (injective : Function.Injective encode) :
    Function.Injective (list encode) :=
  fun _ _ same => List.map_injective_iff.2 injective (Json.arr.inj same)

theorem ofOption_injective (injective : Function.Injective encode)
    (solid : ∀ value, encode value ≠ .null) : Function.Injective (ofOption encode) := by
  intro first second same
  cases first with
  | none =>
      cases second with
      | none => rfl
      | some held => exact absurd same.symm (solid held)
  | some held =>
      cases second with
      | none => exact absurd same (solid held)
      | some held' => exact congrArg some (injective same)

theorem arena_injective (injective : Function.Injective encode) :
    Function.Injective (Arena.toJson encode) := by
  rintro ⟨⟨first⟩⟩ ⟨⟨second⟩⟩ same
  have items := Json.obj.inj same
  simp only [List.cons.injEq, Prod.mk.injEq, true_and, and_true] at items
  exact congrArg Arena.ofList (list_injective injective items)

end

theorem injective_of_reads {encode : α → Json} {decode : Json → Option α}
    (reads : ∀ value, Reads decode (encode value) value) : Function.Injective encode := by
  intro first second same
  have decodes := (reads first).decodes
  rw [same, (reads second).decodes] at decodes
  exact (Option.some.inj decodes).symm

theorem nat_injective : Function.Injective nat := fun _ _ => nat_inj.1

theorem ids_inj {first second : List Nat} : list nat first = list nat second ↔ first = second :=
  (list_injective nat_injective).eq_iff

theorem optionalId_inj {first second : Option Nat} :
    ofOption nat first = ofOption nat second ↔ first = second :=
  (ofOption_injective nat_injective fun _ => nofun).eq_iff

end Json

theorem AppId.toJson_injective : Function.Injective AppId.toJson :=
  injective_of_reads AppId.reads

theorem Expr.toJson_injective : Function.Injective Expr.toJson := by
  intro first second same
  cases first <;> cases second <;>
    simp_all [toJson, variant, nat_inj, ids_inj, UInt64.toNat_inj]

theorem Port.toJson_injective : Function.Injective Port.toJson := by
  rintro ⟨name, ty⟩ ⟨name', ty'⟩ same
  simpa [toJson, nat_inj] using same

theorem Producer.toJson_injective : Function.Injective Producer.toJson := by
  intro first second same
  cases first <;> cases second <;> simp_all [toJson, variant, nat_inj]

theorem Consumer.toJson_injective : Function.Injective Consumer.toJson := by
  intro first second same
  cases first <;> cases second <;> simp_all [toJson, variant, nat_inj]

theorem Channel.toJson_injective : Function.Injective Channel.toJson := by
  rintro ⟨payload, producer, consumer⟩ ⟨payload', producer', consumer'⟩ same
  simpa [toJson, nat_inj, Producer.toJson_injective.eq_iff, Consumer.toJson_injective.eq_iff]
    using same

theorem BundleEnd.toJson_injective : Function.Injective BundleEnd.toJson := by
  intro first second same
  cases first <;> cases second <;> simp_all [toJson, variant, nat_inj]

theorem Flow.toJson_injective : Function.Injective Flow.toJson :=
  injective_of_reads Flow.reads

theorem RoleSlot.toJson_injective : Function.Injective RoleSlot.toJson := by
  rintro ⟨name, flow, payload, client, server⟩ ⟨name', flow', payload', client', server'⟩ same
  simpa [toJson, nat_inj, Flow.toJson_injective.eq_iff, optionalId_inj] using same

theorem Bundle.toJson_injective : Function.Injective Bundle.toJson := by
  rintro ⟨ty, roles, client, server⟩ ⟨ty', roles', client', server'⟩ same
  simpa [toJson, nat_inj, (list_injective RoleSlot.toJson_injective).eq_iff,
    BundleEnd.toJson_injective.eq_iff] using same

theorem ServiceSide.toJson_injective : Function.Injective ServiceSide.toJson :=
  injective_of_reads ServiceSide.reads

theorem ServiceInstance.toJson_injective : Function.Injective ServiceInstance.toJson := by
  rintro ⟨appId, service, operation, bundle, side⟩ ⟨appId', service', operation', bundle', side'⟩
    same
  simpa [toJson, nat_inj, AppId.toJson_injective.eq_iff, ServiceSide.toJson_injective.eq_iff]
    using same

theorem Builtin.toJson_injective : Function.Injective Builtin.toJson := by
  rintro ⟨appId, service, tag, results, inputs⟩ ⟨appId', service', tag', results', inputs'⟩ same
  simpa [toJson, nat_inj, AppId.toJson_injective.eq_iff, ids_inj] using same

theorem Child.toJson_injective : Function.Injective Child.toJson := by
  rintro ⟨appId, module, connections⟩ ⟨appId', module', connections'⟩ same
  simpa [toJson, nat_inj, AppId.toJson_injective.eq_iff, ids_inj] using same

theorem Instance.toJson_injective : Function.Injective Instance.toJson := by
  rintro ⟨id, path, module, parent, children⟩ ⟨id', path', module', parent', children'⟩ same
  simpa [toJson, nat_inj, AppPath.toJson, (list_injective AppId.toJson_injective).eq_iff,
    optionalId_inj, ids_inj] using same

theorem TyPool.toJson_injective : Function.Injective TyPool.toJson :=
  injective_of_reads TyPool.reads

theorem Service.toJson_injective : Function.Injective Service.toJson :=
  injective_of_reads Service.reads

namespace Metadata

theorem toJson_injective : Function.Injective toJson := by
  rintro ⟨version, entries⟩ ⟨version', entries'⟩ same
  cases version <;> cases version' <;> cases entries <;> cases entries' <;>
    simp_all [toJson]

end Metadata

namespace Module

theorem toJson_injective : Function.Injective toJson := by
  intro first second same
  obtain ⟨id, name, ports, metadata, exprs, channels, bundles, services, builtins, children⟩ :=
    first
  obtain ⟨id', name', ports', metadata', exprs', channels', bundles', services', builtins',
    children'⟩ := second
  have noted := (ofOption_injective Metadata.toJson_injective fun _ => nofun).eq_iff
    (a := metadata) (b := metadata')
  simpa [toJson, nat_inj, noted, (list_injective Port.toJson_injective).eq_iff,
    (arena_injective Expr.toJson_injective).eq_iff,
    (arena_injective Channel.toJson_injective).eq_iff,
    (arena_injective Bundle.toJson_injective).eq_iff,
    (arena_injective ServiceInstance.toJson_injective).eq_iff,
    (list_injective Builtin.toJson_injective).eq_iff,
    (list_injective Child.toJson_injective).eq_iff] using same

end Module

namespace Graph

theorem toJson_injective : Function.Injective toJson := by
  intro first second same
  obtain ⟨modules, instances, root, types, services⟩ := first
  obtain ⟨modules', instances', root', types', services'⟩ := second
  have built := (arena_injective Module.toJson_injective).eq_iff (a := modules) (b := modules')
  simpa [toJson, nat_inj, built, (arena_injective Instance.toJson_injective).eq_iff,
    TyPool.toJson_injective.eq_iff, (list_injective Service.toJson_injective).eq_iff] using same

end Graph

end Elastic
