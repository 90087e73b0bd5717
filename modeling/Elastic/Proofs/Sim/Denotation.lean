import Elastic.Sim.Value
import Mathlib.Data.List.Forall2

namespace Elastic

/-! What values a type is taken to have. Its words have their widths checked where values come from
outside only, so there is more than one way to take it; all of them tell words from structures. -/

/-- A way to take types as sets of values. -/
structure Denotation where
  fits : SimValue → Ty → Prop
  plain : Ty → Prop
  word : ∀ {width word}, fitsWidth width word = true → fits (.bits word) (.bits width)
  bits : ∀ {value width}, fits value (.bits width) → ∃ word, value = .bits word
  struct : ∀ {values decls},
    fits (.struct values) (.struct decls) ↔
      List.Forall₂ (fun value decl => fits value decl.2) values decls
  fields : ∀ {value decls}, fits value (.struct decls) → ∃ values, value = .struct values
  conforming : ∀ {value : SimValue} {ty}, value.conforms ty = true → fits value ty
  zero : ∀ {ty}, plain ty → fits (.zero ty) ty

namespace Denotation

variable (meaning : Denotation)

theorem ofBool (bit : Bool) : meaning.fits (.ofBool bit) .bit :=
  meaning.word (by cases bit <;> decide)

theorem field {value : SimValue} {decls : List (String × Ty)} {index : Nat} {decl : String × Ty}
    (fits : meaning.fits value (.struct decls)) (known : decls[index]? = some decl) :
    ∃ part, value.field? index = some part ∧ meaning.fits part decl.2 := by
  obtain ⟨values, rfl⟩ := meaning.fields fits
  obtain ⟨length, each⟩ := List.forall₂_iff_get.1 (meaning.struct.1 fits)
  obtain ⟨bound, rfl⟩ := List.getElem?_eq_some_iff.1 known
  have inside : index < values.length := Nat.lt_of_lt_of_eq bound length.symm
  exact ⟨values[index], List.getElem?_eq_getElem inside, each index inside bound⟩

end Denotation

theorem fitsWidth_zero (width : UInt32) : fitsWidth width 0 = true := by
  simp only [fitsWidth, Nat.one_shiftLeft, UInt64.toNat_zero, Bool.or_eq_true]
  exact .inr (decide_eq_true (Nat.two_pow_pos _))

namespace SimValue

variable {allowed : UInt32 → UInt64 → Bool}

mutual
/-- Whether a value has a word for each type that is no structure, an allowed one for bits, and the
fields of each structure. -/
def shapedBy (allowed : UInt32 → UInt64 → Bool) : SimValue → Ty → Bool
  | .struct values, .struct decls => shapedFieldsBy allowed values decls
  | .struct _, _ => false
  | .bits _, .struct _ => false
  | .bits word, .bits width => allowed width word
  | .bits _, _ => true
termination_by structural value => value

def shapedFieldsBy (allowed : UInt32 → UInt64 → Bool) :
    List SimValue → List (String × Ty) → Bool
  | [], [] => true
  | value :: values, (_, ty) :: decls =>
    shapedBy allowed value ty && shapedFieldsBy allowed values decls
  | _, _ => false
termination_by structural values => values
end

theorem shapedFieldsBy_iff {values : List SimValue} {decls : List (String × Ty)} :
    shapedFieldsBy allowed values decls = true ↔
      List.Forall₂ (fun value decl => value.shapedBy allowed decl.2 = true) values decls := by
  induction values generalizing decls with
  | nil => cases decls <;> simp [shapedFieldsBy]
  | cons value values induction =>
      cases decls with
      | nil => simp [shapedFieldsBy]
      | cons decl decls => simp [shapedFieldsBy, induction]

def Admits (allowed : UInt32 → UInt64 → Bool) : Prop :=
  ∀ width word, fitsWidth width word = true → allowed width word = true

mutual
theorem shapedBy_of_conforms (wide : Admits allowed) : (value : SimValue) → (ty : Ty) →
    value.conforms ty = true → value.shapedBy allowed ty = true
  | .bits word, .bits width, conforms => wide width word conforms
  | .bits _, .clock, _ => rfl
  | .struct values, .struct decls, conforms => shapedFieldsBy_of_conforms wide values decls conforms
  | .bits _, .struct _, conforms | .bits _, .channel _, conforms | .bits _, .bundle _, conforms
  | .struct _, .clock, conforms | .struct _, .bits _, conforms | .struct _, .channel _, conforms
  | .struct _, .bundle _, conforms => nomatch conforms
termination_by structural value => value

theorem shapedFieldsBy_of_conforms (wide : Admits allowed) : (values : List SimValue) →
    (decls : List (String × Ty)) → conformFields values decls = true →
    shapedFieldsBy allowed values decls = true
  | [], [], _ => rfl
  | value :: values, (_, ty) :: decls, conforms => by
    obtain ⟨first, rest⟩ := (Bool.and_eq_true_iff ..).1 conforms
    exact Bool.and_eq_true_iff.2
      ⟨shapedBy_of_conforms wide value ty first,
        shapedFieldsBy_of_conforms wide values decls rest⟩
  | [], _ :: _, conforms | _ :: _, [], conforms => nomatch conforms
termination_by structural values => values
end

mutual
theorem shapedBy_zero (wide : Admits allowed) : (ty : Ty) → (zero ty).shapedBy allowed ty = true
  | .clock | .channel _ | .bundle _ => rfl
  | .bits width => wide width 0 (fitsWidth_zero width)
  | .struct decls => shapedFieldsBy_zero wide decls
termination_by structural ty => ty

theorem shapedFieldsBy_zero (wide : Admits allowed) : (decls : List (String × Ty)) →
    shapedFieldsBy allowed (zeroFields decls) decls = true
  | [] => rfl
  | (_, ty) :: decls =>
    Bool.and_eq_true_iff.2 ⟨shapedBy_zero wide ty, shapedFieldsBy_zero wide decls⟩
termination_by structural decls => decls
end

end SimValue

namespace Denotation

def shapedBy (allowed : UInt32 → UInt64 → Bool) (wide : SimValue.Admits allowed) :
    Denotation where
  fits value ty := value.shapedBy allowed ty = true
  plain _ := True
  word := wide _ _
  bits {value _} fits := by
    cases value with
    | bits word => exact ⟨word, rfl⟩
    | struct values => cases fits
  struct := SimValue.shapedFieldsBy_iff
  fields {value _} fits := by
    cases value with
    | bits word => cases fits
    | struct values => exact ⟨values, rfl⟩
  conforming := SimValue.shapedBy_of_conforms wide _ _
  zero _ := SimValue.shapedBy_zero wide _

def shapes : Denotation := shapedBy (fun _ _ => true) fun _ _ _ => rfl

def widths : Denotation := shapedBy fitsWidth fun _ _ => id

end Denotation

end Elastic
