import Elastic.Proofs.Json.Records

namespace Elastic.Json

/-! Sorting puts the members of every object in order, and changes nothing that is in order. -/

structure InOrder (members : List (String × Json)) : Prop where
  ascending : members.Pairwise fun first second => first.1 < second.1
  values : ∀ member ∈ members, member.2.sorted = member.2

variable {name : String} {value : Json} {members done : List (String × Json)}

theorem mem_insertSorted {member : String × Json}
    (inside : member ∈ insertSorted name value members) :
    member = (name, value) ∨ member ∈ members := by
  induction members with
  | nil => exact .inl (List.mem_singleton.1 inside)
  | cons first rest induction =>
      obtain ⟨key, held⟩ := first
      unfold insertSorted at inside
      split at inside
      · exact (List.mem_cons.1 inside).imp_right (List.mem_cons_of_mem _)
      · split at inside
        · exact List.mem_cons.1 inside
        · rcases List.mem_cons.1 inside with rfl | later
          · exact .inr List.mem_cons_self
          · exact (induction later).imp_right (List.mem_cons_of_mem _)

theorem insertSorted_of_last (last : ∀ member ∈ members, member.1 < name) :
    insertSorted name value members = members ++ [(name, value)] := by
  induction members with
  | nil => rfl
  | cons first rest induction =>
      have before := last first List.mem_cons_self
      rw [insertSorted, if_neg (fun same => String.lt_irrefl _ (same ▸ before)),
        if_neg (String.lt_asymm before), List.cons_append,
        induction fun member inside => last member (List.mem_cons_of_mem _ inside)]

theorem InOrder.insertSorted (order : InOrder members) (inner : value.sorted = value) :
    InOrder (insertSorted name value members) := by
  refine ⟨?_, fun member inside => ?_⟩
  · have ascending := order.ascending
    clear order
    induction members with
    | nil => exact List.pairwise_singleton _ _
    | cons first rest induction =>
        obtain ⟨key, held⟩ := first
        obtain ⟨before, ascending⟩ := List.pairwise_cons.1 ascending
        unfold Json.insertSorted
        split
        · rename_i same
          exact .cons (same ▸ before) ascending
        · split
          · rename_i lower
            refine .cons (fun member inside => ?_) (.cons before ascending)
            rcases List.mem_cons.1 inside with rfl | later
            · exact lower
            · exact String.lt_trans lower (before member later)
          · rename_i other higher
            have above : key < name :=
              String.not_le.1 fun below => other (String.le_antisymm below (String.not_lt.1 higher))
            refine .cons (fun member inside => ?_) (induction ascending)
            rcases mem_insertSorted inside with rfl | earlier
            · exact above
            · exact before member earlier
  · rcases mem_insertSorted inside with rfl | earlier
    · exact inner
    · exact order.values member earlier

theorem sortedMembers_of_inOrder (order : InOrder (done ++ members)) :
    sortedMembers members done = done ++ members := by
  induction members generalizing done with
  | nil => exact (List.append_nil done).symm
  | cons member rest induction =>
      obtain ⟨name, value⟩ := member
      have last : ∀ member ∈ done, member.1 < name := fun member inside =>
        (List.pairwise_append.1 order.ascending).2.2 member inside _ List.mem_cons_self
      have kept : value.sorted = value :=
        order.values (name, value) (List.mem_append_right _ List.mem_cons_self)
      have split : done ++ (name, value) :: rest = done ++ [(name, value)] ++ rest := by simp
      rw [sortedMembers, kept, insertSorted_of_last last, split]
      exact induction (split ▸ order)

theorem InOrder.sorted_obj (order : InOrder members) : (obj members).sorted = obj members :=
  congrArg obj (sortedMembers_of_inOrder order)

mutual
theorem sorted_sorted : (tree : Json) → tree.sorted.sorted = tree.sorted
  | .null | .bool _ | .int _ | .real _ | .str _ => rfl
  | .arr items => congrArg arr (sortedItems_sortedItems items)
  | .obj members => (inOrder_sortedMembers members [] ⟨.nil, nofun⟩).sorted_obj
termination_by structural tree => tree

theorem sortedItems_sortedItems : (items : List Json) →
    sortedItems (sortedItems items) = sortedItems items
  | [] => rfl
  | item :: rest => by
      simp only [sortedItems, sorted_sorted item, sortedItems_sortedItems rest]
termination_by structural items => items

theorem inOrder_sortedMembers : (members done : List (String × Json)) → InOrder done →
    InOrder (sortedMembers members done)
  | [], _, order => order
  | (_, value) :: rest, _, order =>
      inOrder_sortedMembers rest _ (order.insertSorted (sorted_sorted value))
termination_by structural members => members
end

theorem membersPlain_insertSorted (plain : membersPlain members = true)
    (inner : value.isPlain = true) : membersPlain (insertSorted name value members) = true := by
  refine membersPlain_iff.2 fun member inside => ?_
  rcases mem_insertSorted inside with rfl | earlier
  · exact inner
  · exact membersPlain_iff.1 plain member earlier

mutual
theorem isPlain_sorted : (tree : Json) → tree.isPlain = true → tree.sorted.isPlain = true
  | .null, plain | .bool _, plain | .int _, plain | .real _, plain | .str _, plain => plain
  | .arr items, plain => arePlain_sortedItems items plain
  | .obj members, plain => membersPlain_sortedMembers members [] plain rfl
termination_by structural tree => tree

theorem arePlain_sortedItems : (items : List Json) → arePlain items = true →
    arePlain (sortedItems items) = true
  | [], _ => rfl
  | item :: rest, plain => by
      simp only [sortedItems, arePlain, Bool.and_eq_true] at plain ⊢
      exact ⟨isPlain_sorted item plain.1, arePlain_sortedItems rest plain.2⟩
termination_by structural items => items

theorem membersPlain_sortedMembers : (members done : List (String × Json)) →
    membersPlain members = true → membersPlain done = true →
    membersPlain (sortedMembers members done) = true
  | [], _, _, before => before
  | (_, value) :: rest, _, plain, before => by
      simp only [membersPlain, Bool.and_eq_true] at plain
      exact membersPlain_sortedMembers rest _ plain.2
        (membersPlain_insertSorted before (isPlain_sorted value plain.1))
termination_by structural members => members
end

theorem inOrder_of_sorted (same : (obj members).sorted = obj members) : InOrder members := by
  rw [← obj.inj same]
  exact inOrder_sortedMembers members [] ⟨.nil, nofun⟩

end Elastic.Json
