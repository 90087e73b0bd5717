import Elastic.Graph.Module
import Elastic.Sim.Value

namespace Elastic

/-! The handshake monitor. A channel that offered a payload and was not ready has to offer the same
payload in the next cycle. -/

inductive ViolationKind
  | validDropped
  | dataChanged
deriving DecidableEq, Repr, Inhabited

structure Violation where
  cycle : Nat
  path : String
  channel : ChannelId
  kind : ViolationKind
deriving DecidableEq, Repr, Inhabited

namespace Violation

def text (violation : Violation) : String :=
  "cycle " ++ toString violation.cycle ++ ": " ++ violation.path ++ " channel #" ++
    toString violation.channel ++ ": " ++
    match violation.kind with
    | .validDropped => "valid dropped before ready"
    | .dataChanged => "payload changed before ready"

end Violation

abbrev ChannelSite := InstanceId × ChannelId

structure Monitor where
  /-- The payloads offered and not taken when their channel was last observed. -/
  stalled : List (ChannelSite × SimValue) := []
  violations : List Violation := []
deriving Inhabited

structure Observation where
  cycle : Nat
  site : ChannelSite
  path : String
  valid : Bool
  ready : Bool
  data : Option SimValue
deriving Inhabited

namespace Monitor

def empty : Monitor := {}

def held? (monitor : Monitor) (site : ChannelSite) : Option SimValue :=
  (monitor.stalled.find? (·.1 = site)).map (·.2)

/-- What an observation violates, given the payload held from before. -/
def breach? (held : SimValue) (seen : Observation) : Option ViolationKind :=
  if !seen.valid then some .validDropped
  else
    match seen.data with
    | some now => if now ≠ held then some .dataChanged else none
    | none => none

def waiting? (seen : Observation) : Option SimValue :=
  if seen.valid && !seen.ready then seen.data else none

def observe (monitor : Monitor) (seen : Observation) : Monitor :=
  let breach := (monitor.held? seen.site).bind fun held => breach? held seen
  let others := monitor.stalled.filter (·.1 ≠ seen.site)
  { violations := monitor.violations ++
      (breach.map fun kind => (⟨seen.cycle, seen.path, seen.site.2, kind⟩ : Violation)).toList
    stalled := ((waiting? seen).map fun data => (seen.site, data)).toList ++ others }

end Monitor

end Elastic
