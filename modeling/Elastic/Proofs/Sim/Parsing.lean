import Elastic.Proofs.Json.Lookup
import Elastic.Sim.Value
import Mathlib.Data.List.Perm.Subperm

namespace Elastic.SimValue

open Json

/-! Values read from text. A structure is read from the values of its fields in order, or by name in
any order; what is read fits its type. -/

mutual
/-- The ways to write a value of a type. -/
inductive Writes : Ty → SimValue → Json → Prop
  | word (width : UInt32) (word : UInt64) : Writes (.bits width) (.bits word) (.nat word.toNat)
  | bit (high : Bool) : Writes (.bits 1) (.bits (if high then 1 else 0)) (.bool high)
  | clock (word : UInt64) : Writes .clock (.bits word) (.nat word.toNat)
  | level (high : Bool) : Writes .clock (.bits (if high then 1 else 0)) (.bool high)
  | array {fields : List (String × Ty)} {values : List SimValue} {members : List (String × Json)}
      (each : WritesFields fields values members) :
      Writes (.struct fields) (.struct values) (.arr (members.map (·.2)))
  | object {fields : List (String × Ty)} {values : List SimValue}
      {members shuffled : List (String × Json)} (distinct : (fields.map (·.1)).Nodup)
      (each : WritesFields fields values members) (order : members.Perm shuffled) :
      Writes (.struct fields) (.struct values) (.obj shuffled)

inductive WritesFields : List (String × Ty) → List SimValue → List (String × Json) → Prop
  | nil : WritesFields [] [] []
  | cons {name : String} {ty : Ty} {value : SimValue} {json : Json} {fields : List (String × Ty)}
      {values : List SimValue} {members : List (String × Json)} (first : Writes ty value json)
      (rest : WritesFields fields values members) :
      WritesFields ((name, ty) :: fields) (value :: values) ((name, json) :: members)
end

/-- Somewhere in a tree, where a structure is expected, stands an object that lacks one of the
fields or has a member that is none of them. -/
inductive Misnamed : Ty → Json → Prop
  | lacks {fields : List (String × Ty)} {members : List (String × Json)} {name : String}
      (field : name ∈ fields.map (·.1)) (missing : name ∉ members.map (·.1)) :
      Misnamed (.struct fields) (.obj members)
  | alien {fields : List (String × Ty)} {members : List (String × Json)} {name : String}
      (distinct : (fields.map (·.1)).Nodup) (extra : name ∈ members.map (·.1))
      (unknown : name ∉ fields.map (·.1)) : Misnamed (.struct fields) (.obj members)
  | item {fields : List (String × Ty)} {items : List Json} {index : Nat} {name : String} {ty : Ty}
      {json : Json} (field : fields[index]? = some (name, ty)) (there : items[index]? = some json)
      (inner : Misnamed ty json) : Misnamed (.struct fields) (.arr items)
  | member {fields : List (String × Ty)} {members : List (String × Json)} {name : String} {ty : Ty}
      {json : Json} (field : (name, ty) ∈ fields) (last : member? name members.reverse = some json)
      (inner : Misnamed ty json) : Misnamed (.struct fields) (.obj members)

variable {ty : Ty} {value : SimValue} {json : Json} {fields : List (String × Ty)}
  {values : List SimValue} {members : List (String × Json)}

theorem conforms_ofBool (high : Bool) :
    (ofBool high).conforms (.bits 1) = true ∧ (ofBool high).conforms .clock = true := by
  cases high <;> decide

theorem ofJson?_obj {fields : List (String × Ty)} {members : List (String × Json)}
    {value : SimValue} : ofJson? (.struct fields) (.obj members) = some value ↔
      members.length = fields.length ∧
        ∃ values, membersOfJson? fields members = some values ∧ .struct values = value := by
  change (if members.length = fields.length then (membersOfJson? fields members).map struct
    else none) = some value ↔ _
  by_cases size : members.length = fields.length <;> simp [size]

mutual
theorem conforms_of_ofJson? : (ty : Ty) → ∀ {json value}, ofJson? ty json = some value →
    value.conforms ty = true
  | .bits width, json, value, read => by
      cases json with
      | bool high =>
          change (if width = 1 then some (ofBool high) else none) = some value at read
          split at read
          · rename_i single
            cases single
            cases read
            exact (conforms_ofBool high).1
          · cases read
      | int number =>
          obtain ⟨word, known, rfl⟩ := Option.map_eq_some_iff.1 read
          exact (Option.filter_eq_some_iff.1 known).2
      | null | real literal | str text | arr items | obj members => cases read
  | .clock, json, value, read => by
      cases json with
      | bool high =>
          cases read
          exact (conforms_ofBool high).2
      | int number =>
          obtain ⟨word, known, rfl⟩ := Option.map_eq_some_iff.1 read
          exact (Option.filter_eq_some_iff.1 known).2
      | null | real literal | str text | arr items | obj members => cases read
  | .struct fields, json, value, read => by
      cases json with
      | arr items =>
          obtain ⟨values, each, rfl⟩ := Option.map_eq_some_iff.1 read
          exact conformFields_of_itemsOfJson? fields each
      | obj members =>
          obtain ⟨-, values, each, rfl⟩ := ofJson?_obj.1 read
          exact conformFields_of_membersOfJson? fields each
      | null | bool high | int number | real literal | str text => cases read
  | .channel payload, json, value, read => by
      cases json <;> cases read
  | .bundle roles, json, value, read => by
      cases json <;> cases read
termination_by structural ty => ty

theorem conformFields_of_itemsOfJson? : (fields : List (String × Ty)) → ∀ {items values},
    itemsOfJson? fields items = some values → conformFields values fields = true
  | [], items, values, read => by
      cases items with
      | nil => cases read; rfl
      | cons item rest => cases read
  | (name, ty) :: fields, items, values, read => by
      cases items with
      | nil => cases read
      | cons item rest =>
          rw [itemsOfJson?] at read
          split at read
          · rename_i first others
            cases read
            exact Bool.and_eq_true_iff.2
              ⟨conforms_of_ofJson? ty first, conformFields_of_itemsOfJson? fields others⟩
          · cases read
termination_by structural fields => fields

theorem conformFields_of_membersOfJson? : (fields : List (String × Ty)) → ∀ {members values},
    membersOfJson? fields members = some values → conformFields values fields = true
  | [], members, values, read => by
      cases read
      rfl
  | (name, ty) :: fields, members, values, read => by
      rw [membersOfJson?] at read
      split at read
      · cases read
      · split at read
        · rename_i first others
          cases read
          exact Bool.and_eq_true_iff.2
            ⟨conforms_of_ofJson? ty first, conformFields_of_membersOfJson? fields others⟩
        · cases read
termination_by structural fields => fields
end

theorem WritesFields.names : ∀ {fields values members}, WritesFields fields values members →
    members.map (·.1) = fields.map (·.1)
  | _, _, _, .nil => rfl
  | _, _, _, .cons _ rest => congrArg (_ :: ·) rest.names

theorem filter_wordOfJson? {word : UInt64} (fits : UInt64 → Bool) (fit : fits word = true) :
    (wordOfJson? (.nat word.toNat)).filter fits = some word := by
  have bound := word.toNat_lt
  simp [wordOfJson?, Json.nat, UInt64.size, bound, fit]

mutual
theorem Writes.reads : ∀ {ty value json}, Writes ty value json → value.conforms ty = true →
    ofJson? ty json.sorted = some value
  | _, _, _, .word width word, fits =>
      congrArg (Option.map SimValue.bits) (filter_wordOfJson? (fitsWidth width) fits)
  | _, _, _, .bit high, _ => rfl
  | _, _, _, .clock word, fits =>
      congrArg (Option.map SimValue.bits) (filter_wordOfJson? (· ≤ 1) fits)
  | _, _, _, .level high, _ => rfl
  | _, _, _, .array each, fits =>
      Option.map_eq_some_iff.2 ⟨_, (each.reads fits).1, rfl⟩
  | _, _, _, @Writes.object fields values members shuffled distinct each order, fits => by
      have once : (members.map (·.1)).Nodup := each.names ▸ distinct
      have once' : (shuffled.map (·.1)).Nodup := (order.map (·.1)).nodup_iff.1 once
      have found : ∀ member ∈ members,
          member? member.1 (sortedMembers shuffled []) = some member.2.sorted := by
        intro member inside
        have backwards : (shuffled.reverse.map (·.1)).Nodup := by simpa using once'
        have known := member?_of_mem backwards (List.mem_reverse.2 (order.mem_iff.1 inside))
        rw [member?_sortedMembers, known]
        rfl
      have size : (sortedMembers shuffled []).length = fields.length := by
        have lengths := congrArg List.length each.names
        rw [List.length_map, List.length_map] at lengths
        rw [length_sortedMembers once', ← lengths, order.length_eq]
      exact ofJson?_obj.2 ⟨size, values, (each.reads fits).2 _ found, rfl⟩

theorem WritesFields.reads : ∀ {fields values members}, WritesFields fields values members →
    conformFields values fields = true →
    itemsOfJson? fields (sortedItems (members.map (·.2))) = some values ∧
      ∀ found, (∀ member ∈ members, member? member.1 found = some member.2.sorted) →
        membersOfJson? fields found = some values
  | _, _, _, .nil, _ => ⟨rfl, fun _ _ => rfl⟩
  | _, _, _, .cons first rest, fits => by
      obtain ⟨own, others⟩ := Bool.and_eq_true_iff.1 fits
      obtain ⟨items, named⟩ := rest.reads others
      refine ⟨?_, fun found known => ?_⟩
      · rw [List.map_cons, sortedItems, itemsOfJson?, first.reads own, items]
      · rw [membersOfJson?, known _ List.mem_cons_self]
        dsimp only
        rw [first.reads own, named found fun member inside =>
          known member (List.mem_cons_of_mem _ inside)]
end

theorem isWord_toNat (word : UInt64) : isWord word.toNat = true := by
  have bound := word.toNat_lt
  simp [isWord]
  omega

mutual
theorem Writes.isPlain : ∀ {ty value json}, Writes ty value json → json.isPlain = true
  | _, _, _, .word _ word => isWord_toNat word
  | _, _, _, .clock word => isWord_toNat word
  | _, _, _, .bit _ | _, _, _, .level _ => rfl
  | _, _, _, .array each =>
      arePlain_iff.2 fun item inside => by
        obtain ⟨member, there, rfl⟩ := List.mem_map.1 inside
        exact each.isPlain member there
  | _, _, _, .object _ each order =>
      membersPlain_iff.2 fun member inside => each.isPlain member (order.mem_iff.2 inside)

theorem WritesFields.isPlain : ∀ {fields values members}, WritesFields fields values members →
    ∀ member ∈ members, member.2.isPlain = true
  | _, _, _, .nil, _, inside => nomatch inside
  | _, _, _, .cons first rest, member, inside => by
      obtain rfl | later := List.mem_cons.1 inside
      · exact first.isPlain
      · exact rest.isPlain member later
end

theorem depthItems_map (members : List (String × Json)) :
    depthItems (members.map (·.2)) = depthMembers members := by
  induction members with
  | nil => rfl
  | cons member rest induction => exact congrArg (max member.2.depth) induction

theorem depthMembers_perm {members shuffled : List (String × Json)}
    (order : members.Perm shuffled) : depthMembers members = depthMembers shuffled := by
  induction order with
  | nil => rfl
  | cons member order induction => exact congrArg (max member.2.depth) induction
  | swap first second rest => exact Nat.max_left_comm _ _ _
  | trans first second induction induction' => exact induction.trans induction'

mutual
theorem Writes.depth : ∀ {ty value json}, Writes ty value json → json.depth = value.toJson.depth
  | _, _, _, .word _ _ | _, _, _, .clock _ | _, _, _, .bit _ | _, _, _, .level _ => rfl
  | _, _, _, .array each => congrArg (· + 1) ((depthItems_map _).trans each.depth)
  | _, _, _, .object _ each order =>
      congrArg (· + 1) ((depthMembers_perm order).symm.trans each.depth)

theorem WritesFields.depth : ∀ {fields values members}, WritesFields fields values members →
    depthMembers members = depthItems (fieldsJson values)
  | _, _, _, .nil => rfl
  | _, _, _, .cons first rest => congr (congrArg max first.depth) rest.depth
end

mutual
theorem writes_toJson : (value : SimValue) → ∀ {ty}, value.conforms ty = true →
    Writes ty value value.toJson
  | .bits word, ty, fits => by
      cases ty with
      | bits width => exact .word width word
      | clock => exact .clock word
      | struct fields | channel payload | bundle roles => cases fits
  | .struct values, ty, fits => by
      cases ty with
      | struct fields =>
          obtain ⟨members, each, same⟩ := writesFields_toJson values fits
          rw [toJson, ← same]
          exact .array each
      | bits width | clock | channel payload | bundle roles => cases fits
termination_by structural value => value

theorem writesFields_toJson : (values : List SimValue) → ∀ {fields},
    conformFields values fields = true →
    ∃ members, WritesFields fields values members ∧ members.map (·.2) = fieldsJson values
  | [], fields, fits => by
      cases fields with
      | nil => exact ⟨[], .nil, rfl⟩
      | cons field rest => cases fits
  | value :: values, fields, fits => by
      cases fields with
      | nil => cases fits
      | cons field rest =>
          obtain ⟨own, others⟩ := Bool.and_eq_true_iff.1 fits
          obtain ⟨members, each, same⟩ := writesFields_toJson values others
          exact ⟨_, .cons (writes_toJson value own) each, congrArg (_ :: ·) same⟩
termination_by structural values => values
end

theorem each_of_itemsOfJson? {items : List Json} {values : List SimValue} {index : Nat}
    {name : String} (read : itemsOfJson? fields items = some values)
    (field : fields[index]? = some (name, ty)) (there : items[index]? = some json) :
    ∃ value, ofJson? ty json = some value := by
  induction fields generalizing items values index with
  | nil => cases field
  | cons first rest induction =>
      cases items with
      | nil => cases there
      | cons item others =>
          rw [itemsOfJson?] at read
          split at read
          · rename_i known more
            cases index with
            | zero =>
                cases field
                cases there
                exact ⟨_, known⟩
            | succ index => exact induction more field there
          · cases read

theorem each_of_membersOfJson? {values : List SimValue} {name : String}
    (read : membersOfJson? fields members = some values) (field : (name, ty) ∈ fields) :
    ∃ json value, member? name members = some json ∧ ofJson? ty json = some value := by
  induction fields generalizing values with
  | nil => cases field
  | cons first rest induction =>
      rw [membersOfJson?] at read
      split at read
      · cases read
      · rename_i json known
        split at read
        · rename_i value more
          obtain rfl | later := List.mem_cons.1 field
          · exact ⟨json, _, known, value⟩
          · exact induction more later
        · cases read

theorem names_of_membersOfJson? {values : List SimValue}
    (read : membersOfJson? fields members = some values) :
    fields.map (·.1) ⊆ members.map (·.1) := by
  intro name field
  obtain ⟨⟨name, ty⟩, inside, rfl⟩ := List.mem_map.1 field
  obtain ⟨json, _, known, -⟩ := each_of_membersOfJson? read inside
  exact isSome_member?.1 (Option.isSome_of_eq_some known)

theorem Misnamed.unread (misnamed : Misnamed ty json) : ofJson? ty json.sorted = none := by
  refine Option.eq_none_iff_forall_ne_some.2 fun value read => ?_
  induction misnamed generalizing value with
  | lacks field missing =>
      obtain ⟨-, values, each, -⟩ := ofJson?_obj.1 read
      exact missing (mem_names_sortedMembers.1 (names_of_membersOfJson? each field))
  | @alien fields members name distinct extra unknown =>
      obtain ⟨size, values, each, -⟩ := ofJson?_obj.1 read
      have inside := List.subperm_of_subset distinct (names_of_membersOfJson? each)
      have same := inside.perm_of_length_le (by rw [List.length_map, List.length_map, size])
      exact unknown (same.mem_iff.2 (mem_names_sortedMembers.2 extra))
  | @item fields items index name ty json field there inner induction =>
      obtain ⟨values, each, -⟩ := Option.map_eq_some_iff.1 read
      have sorted : (sortedItems items)[index]? = some json.sorted := by
        rw [sortedItems_eq_map, List.getElem?_map, there]
        rfl
      obtain ⟨value, known⟩ := each_of_itemsOfJson? each field sorted
      exact induction value known
  | @member fields members name ty json field last inner induction =>
      obtain ⟨-, values, each, -⟩ := ofJson?_obj.1 read
      obtain ⟨held, value, known, own⟩ := each_of_membersOfJson? each field
      rw [member?_sortedMembers, last] at known
      cases known
      exact induction value own

theorem parse_of_read {text : String} (read : read? text = some json)
    (known : ofJson? ty json.sorted = some value) : parse text ty = .ok value := by
  rw [parse, read]
  dsimp only
  rw [known]

theorem Writes.parse (writes : Writes ty value json) (fits : value.conforms ty = true)
    (shallow : value.toJson.depth ≤ nestingLimit) :
    parse json.compact ty = .ok value ∧ parse json.pretty ty = .ok value :=
  have shallow : json.depth ≤ nestingLimit := writes.depth ▸ shallow
  ⟨parse_of_read (read?_compact writes.isPlain shallow) (writes.reads fits),
    parse_of_read (read?_pretty writes.isPlain shallow) (writes.reads fits)⟩

/-- What is read from a text fits its type. A value that fits is read from its own text, and from
any text of a tree in which structures, whose fields have names of their own, are written as objects
with their fields in any order. An object that lacks a field or has a member that is none is
refused. -/
theorem parse_spec (ty : Ty) :
    (∀ text value, parse text ty = .ok value → value.conforms ty = true) ∧
    (∀ value, value.conforms ty = true → value.toJson.depth ≤ nestingLimit →
      parse value.toJson.compact ty = .ok value ∧ parse value.toJson.pretty ty = .ok value) ∧
    (∀ value json, Writes ty value json → value.conforms ty = true →
      (∀ text, read? text = some json → parse text ty = .ok value) ∧
      (value.toJson.depth ≤ nestingLimit →
        parse json.compact ty = .ok value ∧ parse json.pretty ty = .ok value)) ∧
    ∀ text json, read? text = some json → Misnamed ty json →
      parse text ty = .error (.invalidValue text ty.text "shape or width does not match") := by
  refine ⟨fun text value parsed => ?_, fun value fits => (writes_toJson value fits).parse fits,
    fun value json writes fits => ⟨fun text read => parse_of_read read (writes.reads fits),
      writes.parse fits⟩, fun text json read misnamed => ?_⟩
  · unfold parse at parsed
    split at parsed
    · cases parsed
    · split at parsed
      · cases parsed
      · rename_i known
        cases parsed
        exact conforms_of_ofJson? ty known
  · unfold parse
    rw [read]
    dsimp only
    rw [misnamed.unread]

def packetTy : Ty :=
  .struct [("tag", .bits 4), ("body", .struct [("last", .bit), ("data", .bits 64)])]

def packet : SimValue := .struct [.bits 5, .struct [.bits 1, .bits 99]]

def packetTree : Json :=
  .obj [("body", .obj [("data", .nat 99), ("last", .bool true)]), ("tag", .nat 5)]

def strayTree : Json :=
  .obj [("tag", .nat 5), ("body", .obj [("data", .nat 99), ("first", .bool true)])]

theorem writes_packetTree : Writes packetTy packet packetTree := by
  have body : Writes (.struct [("last", .bit), ("data", .bits 64)]) (.struct [.bits 1, .bits 99])
      (.obj [("data", .nat 99), ("last", .bool true)]) :=
    .object (by decide) (.cons (.bit true) (.cons (.word 64 99) .nil)) (.swap _ _ _)
  exact .object (by decide) (.cons (.word 4 5) (.cons body .nil)) (.swap _ _ _)

theorem misnamed_strayTree : Misnamed packetTy strayTree :=
  .member (List.mem_cons_of_mem _ List.mem_cons_self) rfl
    (.alien (by decide) (List.mem_cons_of_mem _ List.mem_cons_self) (by decide))

theorem parse_packet :
    packet.conforms packetTy = true ∧
    parse packet.toJson.compact packetTy = .ok packet ∧
    parse packetTree.compact packetTy = .ok packet ∧
    parse " \x7b\"body\": \x7b\"data\":99,\"last\":true\x7d , \"tag\":5\x7d" packetTy = .ok packet ∧
    parse strayTree.compact packetTy = .error (.invalidValue strayTree.compact packetTy.text
      "shape or width does not match") := by
  have fits : packet.conforms packetTy = true := by decide
  have shallow : packet.toJson.depth ≤ nestingLimit := by decide
  have stray : read? strayTree.compact = some strayTree :=
    read?_compact (by decide) (by decide)
  have spaced : read? " \x7b\"body\": \x7b\"data\":99,\"last\":true\x7d , \"tag\":5\x7d" =
      some packetTree := by
    rfl
  obtain ⟨-, own, written, refused⟩ := parse_spec packetTy
  exact ⟨fits, (own packet fits shallow).1,
    ((written packet packetTree writes_packetTree fits).2 shallow).1,
    (written packet packetTree writes_packetTree fits).1 _ spaced,
    refused _ strayTree stray misnamed_strayTree⟩

end Elastic.SimValue
