import Elastic.Proofs.Json.Sorting

namespace Elastic.Json

/-! Members by name. Of equal names the last one counts, and where the members stand does not. -/

variable {name : String} {value : Json} {members done : List (String × Json)}

theorem sortedItems_eq_map (items : List Json) : sortedItems items = items.map sorted := by
  induction items with
  | nil => rfl
  | cons item rest induction => exact congrArg (item.sorted :: ·) induction

theorem member?_append (name : String) (first second : List (String × Json)) :
    member? name (first ++ second) = (member? name first).or (member? name second) := by
  induction first with
  | nil => rfl
  | cons member rest induction =>
      rw [List.cons_append, member?, member?]
      split
      · rfl
      · exact induction

theorem isSome_member? : (member? name members).isSome ↔ name ∈ members.map (·.1) := by
  induction members with
  | nil => simp [member?]
  | cons member rest induction =>
      rw [member?, List.map_cons, List.mem_cons]
      split
      · rename_i same
        simp [same]
      · rename_i apart
        rw [induction, or_iff_right (Ne.symm apart)]

theorem member?_of_mem (distinct : (members.map (·.1)).Nodup) (inside : (name, value) ∈ members) :
    member? name members = some value := by
  induction members with
  | nil => cases inside
  | cons member rest induction =>
      obtain ⟨fresh, distinct⟩ := List.nodup_cons.1 distinct
      rw [member?]
      obtain rfl | later := List.mem_cons.1 inside
      · exact if_pos rfl
      · have apart : member.1 ≠ name := by
          rintro rfl
          exact fresh (List.mem_map.2 ⟨_, later, rfl⟩)
        rw [if_neg apart, induction distinct later]

theorem member?_insertSorted (other : String) : member? other (insertSorted name value members) =
    if name = other then some value else member? other members := by
  induction members with
  | nil => rfl
  | cons member rest induction =>
      obtain ⟨key, held⟩ := member
      unfold insertSorted
      split
      · rename_i same
        subst same
        by_cases own : name = other <;> simp [member?, own]
      · split
        · rfl
        · rename_i apart _
          rw [member?, member?, induction]
          by_cases own : key = other
          · rw [if_pos own, if_pos own, if_neg fun same => apart (same.trans own.symm)]
          · rw [if_neg own, if_neg own]

theorem member?_sortedMembers (name : String) (members done : List (String × Json)) :
    member? name (sortedMembers members done) =
      ((member? name members.reverse).map sorted).or (member? name done) := by
  induction members generalizing done with
  | nil => rfl
  | cons member rest induction =>
      obtain ⟨key, held⟩ := member
      rw [sortedMembers, induction, member?_insertSorted, List.reverse_cons, member?_append]
      cases member? name rest.reverse with
      | some later => rfl
      | none => by_cases own : key = name <;> simp [member?, own]

theorem nodup_sortedMembers (members : List (String × Json)) :
    ((sortedMembers members []).map (·.1)).Nodup := by
  have order := (inOrder_sortedMembers members [] ⟨.nil, by simp⟩).ascending
  refine List.pairwise_map.2 (order.imp fun lower same => ?_)
  exact String.lt_irrefl _ (same ▸ lower)

theorem mem_names_sortedMembers :
    name ∈ (sortedMembers members []).map (·.1) ↔ name ∈ members.map (·.1) := by
  rw [← isSome_member?, member?_sortedMembers, member?, Option.or_none, Option.isSome_map,
    isSome_member?, List.map_reverse, List.mem_reverse]

theorem length_sortedMembers (distinct : (members.map (·.1)).Nodup) :
    (sortedMembers members []).length = members.length := by
  have names := (List.perm_ext_iff_of_nodup (nodup_sortedMembers members) distinct).2
    fun _ => mem_names_sortedMembers
  simpa using names.length_eq

end Elastic.Json
