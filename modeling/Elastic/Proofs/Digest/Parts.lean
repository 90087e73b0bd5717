import Elastic.Digest.Content
import Mathlib.Algebra.Group.Nat.Defs

namespace Elastic.ContentHash

/-! Lists of parts as buffers. A buffer can be read back part by part, as each part stands after its
length, so that different lists of parts have different buffers. -/

def ofLittleEndian : List UInt8 → Nat
  | [] => 0
  | byte :: rest => byte.toNat + 256 * ofLittleEndian rest

theorem ofLittleEndian_littleEndian (count number : Nat) :
    ofLittleEndian (littleEndian count number) = number % 256 ^ count := by
  induction count generalizing number with
  | zero => exact (Nat.mod_one number).symm
  | succ count induction =>
      rw [littleEndian, ofLittleEndian, induction, Nat.pow_succ, Nat.mul_comm (256 ^ count),
        Nat.mod_mul, UInt8.toNat_ofNat']

/-- The parts of a buffer. Nothing may follow the last part, and none may go on past the end. -/
def splitParts? (buffer : List UInt8) : Option (List (List UInt8)) :=
  if buffer = [] then some []
  else
    let stop := 8 + ofLittleEndian (buffer.take 8)
    if stop ≤ buffer.length then
      (splitParts? (buffer.drop stop)).map fun rest => (buffer.take stop).drop 8 :: rest
    else none
termination_by buffer.length
decreasing_by
  rw [List.length_drop]
  omega

theorem splitParts?_append {size part rest : List UInt8} (eight : size.length = 8)
    (told : ofLittleEndian size = part.length) :
    splitParts? (size ++ (part ++ rest)) = (splitParts? rest).map (part :: ·) := by
  have front : (size ++ (part ++ rest)).take 8 = size := List.take_left' eight
  have stop : (size ++ part).length = 8 + part.length := by rw [List.length_append, eight]
  have solid : size ++ (part ++ rest) ≠ [] := fun empty => by
    rw [(List.append_eq_nil_iff.1 empty).1] at eight
    cases eight
  rw [splitParts?, if_neg solid]
  dsimp only
  rw [front, told, ← List.append_assoc, if_pos, List.drop_left' stop, List.take_left' stop,
    List.drop_left' eight]
  rw [List.length_append, stop]
  exact Nat.le_add_right _ _

theorem joinParts_cons (part : List UInt8) (rest : List (List UInt8)) :
    joinParts (part :: rest) = littleEndian 8 part.length ++ (part ++ joinParts rest) := by
  rw [joinParts, joinParts, List.flatMap_cons, List.append_assoc]

theorem splitParts?_joinParts {parts : List (List UInt8)}
    (short : ∀ part ∈ parts, part.length < 2 ^ 64) :
    splitParts? (joinParts parts) = some parts := by
  induction parts with
  | nil => rw [joinParts, List.flatMap_nil, splitParts?, if_pos rfl]
  | cons part rest induction =>
      have told : ofLittleEndian (littleEndian 8 part.length) = part.length := by
        rw [ofLittleEndian_littleEndian]
        exact Nat.mod_eq_of_lt (short part List.mem_cons_self)
      rw [joinParts_cons, splitParts?_append (length_littleEndian _ _) told,
        induction fun other member => short other (List.mem_cons_of_mem _ member), Option.map_some]

theorem ofBytes_eq_iff {first second : ByteArray} :
    ofBytes first = ofBytes second ↔ Digest.Xxh3.hash first = Digest.Xxh3.hash second := by
  rw [ofBytes, ofBytes]
  cases Digest.Xxh3.hash first
  cases Digest.Xxh3.hash second
  rw [ContentHash.mk.injEq, Digest.Xxh3.Wide.mk.injEq]

/-- Different lists of parts have different buffers, however their bytes are spread over parts and
whatever lengths the bytes look like. So the lists have one hash only where two different buffers
have. -/
theorem parts_share_hashes_by_collision {first second : List (List UInt8)}
    (short : ∀ part ∈ first ++ second, part.length < 2 ^ 64) (apart : first ≠ second) :
    joinParts first ≠ joinParts second ∧
      (ofParts first = ofParts second →
        ∃ one other : ByteArray, one.data.toList = joinParts first ∧
          other.data.toList = joinParts second ∧ one ≠ other ∧
          Digest.Xxh3.hash one = Digest.Xxh3.hash other) := by
  have buffers : joinParts first ≠ joinParts second := fun same => by
    have one := splitParts?_joinParts fun part member => short part (List.mem_append_left _ member)
    have other := splitParts?_joinParts fun part member =>
      short part (List.mem_append_right _ member)
    rw [same, other] at one
    exact apart (Option.some.inj one).symm
  refine ⟨buffers, fun same => ⟨⟨(joinParts first).toArray⟩, ⟨(joinParts second).toArray⟩, rfl, rfl,
    fun equal => buffers ?_, ofBytes_eq_iff.1 same⟩⟩
  exact congrArg (fun bytes : ByteArray => bytes.data.toList) equal

/-- A part that looks like the lengths of two empty ones is told from these. -/
theorem empty_parts_are_told_from_zeros :
    (∀ part ∈ [[0, 0, 0, 0, 0, 0, 0, 0], []] ++ [[], [], ([] : List UInt8)],
        part.length < 2 ^ 64) ∧
      joinParts [[0, 0, 0, 0, 0, 0, 0, 0], []] ≠ joinParts [[], [], []] := by
  have short : ∀ part ∈ [[0, 0, 0, 0, 0, 0, 0, 0], []] ++ [[], [], ([] : List UInt8)],
      part.length < 2 ^ 64 := by decide
  exact ⟨short, (parts_share_hashes_by_collision short (by decide)).1⟩

end Elastic.ContentHash
