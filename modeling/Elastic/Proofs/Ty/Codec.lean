import Elastic.Service
import Elastic.Ty.Pool
import Elastic.Proofs.Json.Records

namespace Elastic

open Json

/-! Types and services are read back from their JSON form. The depth of the JSON form is fuel enough
for the types that are nested in it. -/

theorem Flow.reads (flow : Flow) : Reads ofJson? flow.toJson flow :=
  ⟨ofJson?_toJson flow, by cases flow <;> rfl⟩

namespace Ty

theorem reads_within {limit : Nat} {name : String} {content : Json} {ty : Ty} (enough : 0 < limit)
    (plain : content.isPlain = true)
    (decodes : ofVariant? (ofJsonWithin? (limit - 1)) name content = some ty) :
    Reads (ofJsonWithin? limit) (variant name content) ty := by
  obtain ⟨fuel, rfl⟩ := Nat.exists_eq_add_one_of_ne_zero (Nat.ne_of_gt enough)
  rw [Nat.add_sub_cancel] at decodes
  exact ⟨by simp [ofJsonWithin?, variant, asVariant?, decodes],
    by simp [variant, isPlain, membersPlain, plain]⟩

theorem reads_role {decode : Json → Option Ty} {tree : Json} {payload : Ty} (name : String)
    (flow : Flow) (inner : Reads decode tree payload) :
    Reads (roleOfJson? decode)
      (.obj [("name", .str name), ("direction", flow.toJson), ("payload", tree)])
      ⟨name, flow, payload⟩ := by
  have title := reads_text name
  have flow := flow.reads
  exact reads_record (by simp) (by simp [title.plain, flow.plain, inner.plain])
    (by simp [required?, member?, title.decodes, flow.decodes, inner.decodes])

theorem reads_bundle {decode : Json → Option Ty} {items : List Json} {roles : List Role}
    (each : Reads (asList? (roleOfJson? decode)) (.arr items) roles) :
    Reads (bundleOfJson? decode) (.obj [("ports", .arr items)]) roles :=
  reads_record (by simp) (by simp [each.plain]) (by simp [required?, member?, each.decodes])

mutual
theorem reads : (ty : Ty) → ∀ limit, ty.toJson.depth < limit →
    Reads (ofJsonWithin? limit) ty.toJson ty
  | .clock, limit, enough => by
      obtain ⟨fuel, rfl⟩ := Nat.exists_eq_add_one_of_ne_zero (Nat.ne_of_gt enough)
      exact ⟨rfl, rfl⟩
  | .bits width, limit, enough => by
      have number : Reads (asNat? limit32) (.nat width.toNat) width.toNat :=
        reads_nat width.toNat_lt (by decide)
      exact reads_within (by omega) number.plain (by simp [ofVariant?, number.decodes])
  | .struct fields, limit, enough => by
      simp only [toJson, variant, depth, depthMembers] at enough
      have each := readsFields fields (limit - 1) (by omega)
      exact reads_within (by omega) each.plain (by simp [ofVariant?, each.decodes])
  | .channel payload, limit, enough => by
      simp only [toJson, variant, depth, depthMembers] at enough
      have inner := reads payload (limit - 1) (by omega)
      exact reads_within (by omega) inner.plain (by simp [ofVariant?, inner.decodes])
  | .bundle roles, limit, enough => by
      simp only [toJson, variant, depth, depthMembers] at enough
      have each := reads_bundle (readsRoles roles (limit - 1) (by omega))
      exact reads_within (by omega) each.plain (by simp [ofVariant?, each.decodes])
termination_by structural ty => ty

theorem readsFields : (fields : List (String × Ty)) → ∀ limit,
    depthItems (fieldsJson fields) ≤ limit →
      Reads (asList? (asPair? asText? (ofJsonWithin? limit))) (.arr (fieldsJson fields)) fields
  | [], _, _ => reads_nil
  | (name, ty) :: fields, limit, enough => by
      simp only [fieldsJson, depth, depthItems] at enough
      have inner := reads ty limit (by omega)
      exact reads_cons (reads_pair (reads_text name) inner) (readsFields fields limit (by omega))
termination_by structural fields => fields

theorem readsRoles : (roles : List (RoleOf Ty)) → ∀ limit, depthItems (rolesJson roles) ≤ limit →
    Reads (asList? (roleOfJson? (ofJsonWithin? limit))) (.arr (rolesJson roles)) roles
  | [], _, _ => reads_nil
  | ⟨name, flow, payload⟩ :: roles, limit, enough => by
      simp only [rolesJson, depth, depthItems, depthMembers] at enough
      have inner := reads payload limit (by omega)
      exact reads_cons (reads_role name flow inner) (readsRoles roles limit (by omega))
termination_by structural roles => roles
end

theorem reads_toJson (ty : Ty) : Reads ofJson? ty.toJson ty :=
  ⟨(reads ty _ (Nat.lt_succ_self _)).decodes, (reads ty _ (Nat.lt_succ_self _)).plain⟩

end Ty

theorem BundleTy.reads (roles : BundleTy) : Reads ofJson? roles.toJson roles := by
  have each := Ty.reads_bundle (Ty.readsRoles roles roles.toJson.depth (by
    simp only [toJson, depth, depthMembers]
    omega))
  exact ⟨each.decodes, each.plain⟩

theorem TyPool.reads (pool : TyPool) : Reads ofJson? pool.toJson pool := by
  have types : Reads (asList? Ty.ofJson?) (list Ty.toJson pool.types.toList) pool.types.toList :=
    reads_list fun ty _ => ty.reads_toJson
  exact reads_record (by simp) (by simp [types.plain]) (by simp [required?, member?, types.decodes])

theorem Provider.reads (provider : Provider) : Reads ofJson? provider.toJson provider := by
  cases provider <;> exact ⟨rfl, rfl⟩

theorem Operation.reads (operation : Operation) : Reads ofJson? operation.toJson operation := by
  have name := reads_text operation.name
  have bundle := operation.bundle.reads
  exact reads_record (by simp) (by simp [name.plain, bundle.plain])
    (by simp [required?, member?, name.decodes, bundle.decodes])

theorem MemoryShape.reads (shape : MemoryShape) : Reads ofJson? shape.toJson shape := by
  have word := shape.word.reads_toJson
  have depth : Reads (asNat? limit32) (.nat shape.depth.toNat) shape.depth.toNat :=
    reads_nat shape.depth.toNat_lt (by decide)
  exact reads_record (by simp) (by simp [word.plain, depth.plain])
    (by simp [required?, member?, word.decodes, depth.decodes])

theorem Service.reads (service : Service) : Reads ofJson? service.toJson service := by
  have name := reads_text service.name
  have provider := service.provider.reads
  have operations : Reads (asList? Operation.ofJson?) _ _ :=
    reads_list fun operation (_ : operation ∈ service.operations) => operation.reads
  obtain ⟨title, source, list, memory⟩ := service
  cases memory with
  | none =>
      exact reads_record (by simp) (by simp [name.plain, provider.plain, operations.plain])
        (by simp [required?, nullable?, optional?, member?, name.decodes, provider.decodes,
          operations.decodes])
  | some shape =>
      have memory := reads_present shape.reads nofun
      exact reads_record (by simp)
        (by simp [name.plain, provider.plain, operations.plain, memory.plain])
        (by simp [required?, nullable?, optional?, member?, name.decodes, provider.decodes,
          operations.decodes, memory.decodes])

end Elastic
