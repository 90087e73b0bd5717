import Elastic.Json.Decode
import Elastic.Proofs.Json.RoundTrip
import Mathlib.Data.List.Nodup

namespace Elastic.Json

structure Reads (decode : Json → Option α) (tree : Json) (value : α) : Prop where
  decodes : decode tree = some value
  plain : tree.isPlain = true

theorem membersPlain_iff {members : List (String × Json)} :
    membersPlain members = true ↔ ∀ member ∈ members, member.2.isPlain = true := by
  induction members with
  | nil => simp [membersPlain]
  | cons member members induction => simp [membersPlain, induction]

theorem arePlain_iff {items : List Json} :
    arePlain items = true ↔ ∀ item ∈ items, item.isPlain = true := by
  induction items with
  | nil => simp [arePlain]
  | cons item items induction => simp [arePlain, induction]

theorem asRecord?_obj (names : List String) {members : List (String × Json)}
    (distinct : (members.map (·.1)).Nodup) : asRecord? names (.obj members) = some members := by
  have once (name : String) : atMostOnce members name = true := by
    have count := List.nodup_iff_count_le_one.1 distinct name
    rw [List.count, List.countP_map, List.countP_eq_length_filter] at count
    simpa [atMostOnce, Function.comp_def, beq_eq_decide] using count
  simp [asRecord?, once]

theorem reads_record {names : List String} {members : List (String × Json)}
    {decode : List (String × Json) → Option α} {value : α}
    (distinct : (members.map (·.1)).Nodup) (plain : ∀ member ∈ members, member.2.isPlain = true)
    (decodes : decode members = some value) :
    Reads (fun json => (asRecord? names json).bind decode) (.obj members) value :=
  ⟨by simp [asRecord?_obj names distinct, decodes], membersPlain_iff.2 plain⟩

theorem reads_wholeRecord {names : List String} {members : List (String × Json)}
    {decode : List (String × Json) → Option α} {value : α}
    (distinct : (members.map (·.1)).Nodup) (plain : ∀ member ∈ members, member.2.isPlain = true)
    (decodes : decode members = some value) :
    Reads (fun json => (asWholeRecord? names json).bind decode) (.obj members) value :=
  have record : Reads (fun json => (asRecord? names json).bind decode) (.obj members) value :=
    reads_record distinct plain decodes
  ⟨record.decodes, record.plain⟩

theorem reads_variant {decode : String × Json → Option α} {name : String} {content : Json}
    {value : α} (plain : content.isPlain = true) (decodes : decode (name, content) = some value) :
    Reads (fun json => (asVariant? json).bind decode) (variant name content) value :=
  ⟨decodes, by simp [variant, isPlain, membersPlain, plain]⟩

theorem reads_label {decode : String × Json → Option α} {name : String} {value : α}
    (decodes : decode (name, .null) = some value) :
    Reads (fun json => (asVariant? json).bind decode) (.str name) value :=
  ⟨decodes, rfl⟩

theorem reads_text (text : String) : Reads asText? (.str text) text :=
  ⟨asText?_str text, rfl⟩

theorem isPlain_nat {value : Nat} (bound : value < limit64) : (nat value).isPlain = true := by
  have word : value < 2 ^ 64 := bound
  simp only [nat, isPlain, isWord, Bool.and_eq_true, decide_eq_true_eq]
  omega

theorem reads_nat {value limit : Nat} (bound : value < limit) (word : limit ≤ limit64) :
    Reads (asNat? limit) (.nat value) value :=
  ⟨asNat?_nat bound, isPlain_nat (Nat.lt_of_lt_of_le bound word)⟩

theorem reads_nil {decode : Json → Option α} : Reads (asList? decode) (.arr []) [] :=
  ⟨rfl, rfl⟩

theorem reads_cons {decode : Json → Option α} {item : Json} {items : List Json} {value : α}
    {values : List α} (first : Reads decode item value)
    (rest : Reads (asList? decode) (.arr items) values) :
    Reads (asList? decode) (.arr (item :: items)) (value :: values) := by
  have others : items.mapM decode = some values := rest.decodes
  have plain : arePlain items = true := rest.plain
  exact ⟨by simp [asList?, first.decodes, others], by simp [isPlain, arePlain, first.plain, plain]⟩

theorem reads_list {encode : α → Json} {decode : Json → Option α} {values : List α}
    (each : ∀ value ∈ values, Reads decode (encode value) value) :
    Reads (asList? decode) (list encode values) values := by
  refine ⟨asList?_list values fun value member => (each value member).decodes, ?_⟩
  refine arePlain_iff.2 fun item member => ?_
  obtain ⟨value, inside, rfl⟩ := List.mem_map.1 member
  exact (each value inside).plain

theorem reads_pair {first : Json → Option α} {second : Json → Option β} {a b : Json} {one : α}
    {other : β} (left : Reads first a one) (right : Reads second b other) :
    Reads (asPair? first second) (.arr [a, b]) (one, other) :=
  ⟨by simp [asPair?, left.decodes, right.decodes],
    by simp [isPlain, arePlain, left.plain, right.plain]⟩

theorem reads_present {decode : Json → Option α} {tree : Json} {value : α}
    (held : Reads decode tree value) (solid : tree ≠ .null) :
    Reads (asNullable? decode) tree (some value) := by
  refine ⟨?_, held.plain⟩
  unfold asNullable?
  split
  · contradiction
  · rw [held.decodes, Option.map_some]

theorem reads_option {encode : α → Json} {decode : Json → Option α} {value : Option α}
    (solid : ∀ held, encode held ≠ .null)
    (each : ∀ held, value = some held → Reads decode (encode held) held) :
    Reads (asNullable? decode) (ofOption encode value) value := by
  cases value with
  | none => exact ⟨rfl, rfl⟩
  | some held => exact reads_present (each held rfl) (solid held)

end Elastic.Json
