namespace Elastic

/-! Types of signals. A payload travels on a ready/valid channel; a bundle is a set of named
channels between a client and a service. -/

inductive Flow
  | toService
  | fromService
deriving DecidableEq, Repr, Inhabited

namespace Flow

def flip : Flow → Flow
  | .toService => .fromService
  | .fromService => .toService

def text : Flow → String
  | .toService => "to"
  | .fromService => "from"

end Flow

structure RoleOf (τ : Type) where
  name : String
  flow : Flow
  payload : τ
deriving DecidableEq, Repr

inductive Ty
  | clock
  | bits (width : UInt32)
  | struct (fields : List (String × Ty))
  | channel (payload : Ty)
  | bundle (roles : List (RoleOf Ty))

def fitsWidth (width : UInt32) (word : UInt64) : Bool :=
  64 ≤ width.toNat || word.toNat < 1 <<< width.toNat

abbrev Role := RoleOf Ty

abbrev BundleTy := List Role

namespace Ty

instance : Inhabited Ty := ⟨.clock⟩

def bit : Ty := .bits 1

mutual
def decEq : (first second : Ty) → Decidable (first = second)
  | .clock, .clock => .isTrue rfl
  | .bits first, .bits second =>
    if equal : first = second then .isTrue (equal ▸ rfl) else .isFalse (by simp [equal])
  | .struct first, .struct second =>
    match decEqFields first second with
    | .isTrue equal => .isTrue (equal ▸ rfl)
    | .isFalse distinct => .isFalse (by simp [distinct])
  | .channel first, .channel second =>
    match decEq first second with
    | .isTrue equal => .isTrue (equal ▸ rfl)
    | .isFalse distinct => .isFalse (by simp [distinct])
  | .bundle first, .bundle second =>
    match decEqRoles first second with
    | .isTrue equal => .isTrue (equal ▸ rfl)
    | .isFalse distinct => .isFalse (by simp [distinct])
  | .clock, .bits _ | .clock, .struct _ | .clock, .channel _ | .clock, .bundle _
  | .bits _, .clock | .bits _, .struct _ | .bits _, .channel _ | .bits _, .bundle _
  | .struct _, .clock | .struct _, .bits _ | .struct _, .channel _ | .struct _, .bundle _
  | .channel _, .clock | .channel _, .bits _ | .channel _, .struct _ | .channel _, .bundle _
  | .bundle _, .clock | .bundle _, .bits _ | .bundle _, .struct _ | .bundle _, .channel _ =>
    .isFalse nofun
termination_by structural first => first

def decEqFields : (first second : List (String × Ty)) → Decidable (first = second)
  | [], [] => .isTrue rfl
  | (name, ty) :: rest, (name', ty') :: rest' =>
    if names : name = name' then
      match decEq ty ty' with
      | .isTrue types =>
        match decEqFields rest rest' with
        | .isTrue tails => .isTrue (by simp [names, types, tails])
        | .isFalse distinct => .isFalse (by simp [distinct])
      | .isFalse distinct => .isFalse (by simp [distinct])
    else .isFalse (by simp [names])
  | [], _ :: _ | _ :: _, [] => .isFalse nofun
termination_by structural first => first

def decEqRoles : (first second : List (RoleOf Ty)) → Decidable (first = second)
  | [], [] => .isTrue rfl
  | ⟨name, flow, payload⟩ :: rest, ⟨name', flow', payload'⟩ :: rest' =>
    if labels : name = name' ∧ flow = flow' then
      match decEq payload payload' with
      | .isTrue types =>
        match decEqRoles rest rest' with
        | .isTrue tails => .isTrue (by simp [labels, types, tails])
        | .isFalse distinct => .isFalse (by simp [distinct])
      | .isFalse distinct => .isFalse (by simp [distinct])
    else .isFalse (by simp only [List.cons.injEq, RoleOf.mk.injEq]; grind)
  | [], _ :: _ | _ :: _, [] => .isFalse nofun
termination_by structural first => first
end

instance : DecidableEq Ty := decEq

mutual
/-- The number of wires of a type, counted in 32-bit words. A channel or a bundle inside has
none. -/
def width? : Ty → Option UInt32
  | .clock => some 1
  | .bits width => some width
  | .struct fields => fieldsWidth? 0 fields
  | .channel _ => none
  | .bundle _ => none
termination_by structural ty => ty

def fieldsWidth? (sum : UInt32) : List (String × Ty) → Option UInt32
  | [] => some sum
  | (_, ty) :: rest =>
    match width? ty with
    | none => none
    | some width => fieldsWidth? (sum + width) rest
termination_by structural fields => fields
end

def findField? (name : String) : List (String × Ty) → Option (Nat × Ty)
  | [] => none
  | (key, ty) :: rest =>
    if key = name then some (0, ty)
    else (findField? name rest).map fun (position, ty) => (position + 1, ty)

def field? : Ty → String → Option (Nat × Ty)
  | .struct fields, name => findField? name fields
  | _, _ => none

/-- Whether a value of the type may travel on a channel. -/
def isPayload : Ty → Bool
  | .bits _ | .struct _ => true
  | .clock | .channel _ | .bundle _ => false

mutual
def text : Ty → String
  | .clock => "clock"
  | .bits width => "bits<" ++ toString width.toNat ++ ">"
  | .struct [] => "struct\x7b\x7d"
  | .struct ((name, ty) :: rest) =>
    "struct\x7b" ++ name ++ ": " ++ text ty ++ fieldsText rest ++ "\x7d"
  | .channel payload => "channel<" ++ text payload ++ ">"
  | .bundle [] => "bundle\x7b\x7d"
  | .bundle (⟨name, flow, payload⟩ :: rest) =>
    "bundle\x7b" ++ name ++ ": " ++ flow.text ++ " " ++ text payload ++ rolesText rest ++ "\x7d"
termination_by structural ty => ty

def fieldsText : List (String × Ty) → String
  | [] => ""
  | (name, ty) :: rest => ", " ++ name ++ ": " ++ text ty ++ fieldsText rest
termination_by structural fields => fields

def rolesText : List (RoleOf Ty) → String
  | [] => ""
  | ⟨name, flow, payload⟩ :: rest =>
    ", " ++ name ++ ": " ++ flow.text ++ " " ++ text payload ++ rolesText rest
termination_by structural roles => roles
end

end Ty

namespace BundleTy

def text (roles : BundleTy) : String := (Ty.bundle roles).text

def role? (name : String) : BundleTy → Option (Nat × Role)
  | [] => none
  | role :: rest =>
    if role.name = name then some (0, role)
    else (role? name rest).map fun (position, role) => (position + 1, role)

def rolesIn (roles : BundleTy) (flow : Flow) : List Role :=
  roles.filter (·.flow = flow)

end BundleTy

end Elastic
