import Elastic.Json.Decode
import Elastic.Ty.Basic

namespace Elastic

open Json

namespace Flow

def toJson : Flow → Json
  | .toService => .str "to_service"
  | .fromService => .str "from_service"

def ofJson? : Json → Option Flow :=
  asLabel? [("to_service", .toService), ("from_service", .fromService)]

theorem ofJson?_toJson (flow : Flow) : ofJson? flow.toJson = some flow := by
  cases flow <;> rfl

end Flow

namespace Ty

mutual
def toJson : Ty → Json
  | .clock => .str "Clock"
  | .bits width => variant "Bits" (.nat width.toNat)
  | .struct fields => variant "Struct" (.arr (fieldsJson fields))
  | .channel payload => variant "Channel" (toJson payload)
  | .bundle roles => variant "Bundle" (.obj [("ports", .arr (rolesJson roles))])
termination_by structural ty => ty

def fieldsJson : List (String × Ty) → List Json
  | [] => []
  | (name, ty) :: rest => .arr [.str name, toJson ty] :: fieldsJson rest
termination_by structural fields => fields

def rolesJson : List (RoleOf Ty) → List Json
  | [] => []
  | ⟨name, flow, payload⟩ :: rest =>
    .obj [("name", .str name), ("direction", flow.toJson), ("payload", toJson payload)] ::
      rolesJson rest
termination_by structural roles => roles
end

def roleOfJson? (decode : Json → Option Ty) (json : Json) : Option Role := do
  let fields ← asRecord? ["name", "direction", "payload"] json
  let name ← required? fields "name" asText?
  let flow ← required? fields "direction" Flow.ofJson?
  let payload ← required? fields "payload" decode
  return ⟨name, flow, payload⟩

def bundleOfJson? (decode : Json → Option Ty) (json : Json) : Option BundleTy := do
  let fields ← asRecord? ["ports"] json
  required? fields "ports" (asList? (roleOfJson? decode))

def ofVariant? (decode : Json → Option Ty) : String → Json → Option Ty
  | "Clock", .null => some .clock
  | "Bits", json => (asNat? limit32 json).map fun width => .bits (UInt32.ofNat width)
  | "Struct", json => (asList? (asPair? asText? decode) json).map .struct
  | "Channel", json => (decode json).map .channel
  | "Bundle", json => (bundleOfJson? decode json).map .bundle
  | _, _ => none

def ofJsonWithin? : Nat → Json → Option Ty
  | 0, _ => none
  | fuel + 1, json =>
    match asVariant? json with
    | none => none
    | some (name, content) => ofVariant? (ofJsonWithin? fuel) name content

def ofJson? (json : Json) : Option Ty :=
  ofJsonWithin? (json.depth + 1) json

end Ty

namespace BundleTy

def toJson (roles : BundleTy) : Json :=
  .obj [("ports", .arr (Ty.rolesJson roles))]

def ofJson? (json : Json) : Option BundleTy :=
  Ty.bundleOfJson? (Ty.ofJsonWithin? json.depth) json

end BundleTy

end Elastic
