import Elastic.Ty.Json

namespace Elastic

/-! A table of types in which each type stands once, so that types are equal exactly when their
numbers are. -/

abbrev TyId := Nat

structure TyPool where
  types : Array Ty := #[]
deriving DecidableEq, Inhabited

namespace TyPool

def empty : TyPool := {}

def size (pool : TyPool) : Nat := pool.types.size

def find? (pool : TyPool) (ty : Ty) : Option TyId :=
  pool.types.findIdx? (· = ty)

def get? (pool : TyPool) (id : TyId) : Option Ty := pool.types[id]?

def get (pool : TyPool) (id : TyId) : Ty := (pool.get? id).getD .clock

/-- The number of a type, which is a new one if the type is new. -/
def intern (pool : TyPool) (ty : Ty) : TyId × TyPool :=
  match pool.find? ty with
  | some id => (id, pool)
  | none => (pool.size, ⟨pool.types.push ty⟩)

def toJson (pool : TyPool) : Json :=
  .obj [("types", Json.list Ty.toJson pool.types.toList)]

def ofJson? (json : Json) : Option TyPool := do
  let fields ← Json.asRecord? ["types"] json
  let types ← Json.required? fields "types" (Json.asList? Ty.ofJson?)
  return ⟨types.toArray⟩

def Distinct (pool : TyPool) : Prop :=
  ∀ first second, first < pool.size → pool.get? first = pool.get? second → first = second

theorem get?_intern (pool : TyPool) (ty : Ty) :
    (pool.intern ty).2.get? (pool.intern ty).1 = some ty := by
  unfold intern
  split
  · rename_i id found
    obtain ⟨bound, equal, _⟩ := Array.findIdx?_eq_some_iff_getElem.1 found
    simpa [get?, bound] using equal
  · simp [get?, size]

end TyPool

end Elastic
