import Elastic.Json.Decode

namespace Elastic

/-! Storage that only grows. An entry's number is its position, and never changes. -/

structure Arena (α : Type) where
  items : Array α := #[]
deriving Repr

namespace Arena

instance : Inhabited (Arena α) := ⟨{}⟩

def empty : Arena α := {}

def size (arena : Arena α) : Nat := arena.items.size

def nextId (arena : Arena α) : Nat := arena.items.size

def ids (arena : Arena α) : List Nat := List.range arena.size

def toList (arena : Arena α) : List α := arena.items.toList

def entries (arena : Arena α) : List (Nat × α) :=
  arena.toList.zipIdx.map fun (item, id) => (id, item)

def get? (arena : Arena α) (id : Nat) : Option α := arena.items[id]?

def push (arena : Arena α) (item : α) : Arena α := ⟨arena.items.push item⟩

def set (arena : Arena α) (id : Nat) (item : α) : Arena α := ⟨arena.items.setIfInBounds id item⟩

def ofList (items : List α) : Arena α := ⟨items.toArray⟩

def toJson (encode : α → Json) (arena : Arena α) : Json :=
  .obj [("items", Json.list encode arena.toList)]

def ofJson? (decode : Json → Option α) (json : Json) : Option (Arena α) := do
  let fields ← Json.asRecord? ["items"] json
  let items ← Json.required? fields "items" (Json.asList? decode)
  return ofList items

@[simp] theorem get?_push (arena : Arena α) (item : α) (id : Nat) :
    (arena.push item).get? id =
      if id = arena.size then some item else arena.get? id :=
  Array.getElem?_push

@[simp] theorem size_push (arena : Arena α) (item : α) :
    (arena.push item).size = arena.size + 1 := by
  simp [push, size]

@[simp] theorem size_set (arena : Arena α) (id : Nat) (item : α) :
    (arena.set id item).size = arena.size := by
  simp [set, size]

@[simp] theorem get?_set (arena : Arena α) (id other : Nat) (item : α) :
    (arena.set id item).get? other =
      if other = id ∧ id < arena.size then some item else arena.get? other := by
  simp only [set, get?, size, Array.getElem?_setIfInBounds]
  grind

theorem get?_eq_none_iff (arena : Arena α) (id : Nat) :
    arena.get? id = none ↔ arena.size ≤ id := by
  simp [get?, size]

end Arena

end Elastic
