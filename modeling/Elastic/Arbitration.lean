namespace Elastic

inductive ArbitrationPolicy
  | fixedPriority
  | roundRobin
deriving DecidableEq, Repr, Inhabited

namespace ArbitrationPolicy

def text : ArbitrationPolicy → String
  | .fixedPriority => "fixed-priority"
  | .roundRobin => "round-robin"

def ofText? : String → Option ArbitrationPolicy
  | "fixed-priority" => some .fixedPriority
  | "round-robin" => some .roundRobin
  | _ => none

end ArbitrationPolicy

structure Arbiter where
  policy : ArbitrationPolicy
  last : Option Nat := none
deriving DecidableEq, Repr, Inhabited

namespace Arbiter

def search (requests : List Bool) (start : Nat) : Nat → Option Nat
  | 0 => none
  | count + 1 =>
    if requests.getD (start % requests.length) false then some (start % requests.length)
    else search requests (start + 1) count

def start (arbiter : Arbiter) : Nat :=
  match arbiter.last with
  | none => 0
  | some last => last + 1

/-- The client to serve. Fixed priority takes the first that requests, round robin the first from
the start of the round on. -/
def select (arbiter : Arbiter) (requests : List Bool) : Option Nat :=
  match arbiter.policy with
  | .fixedPriority => requests.findIdx? id
  | .roundRobin => search requests arbiter.start requests.length

def commit (arbiter : Arbiter) (client : Nat) : Arbiter :=
  match arbiter.policy with
  | .fixedPriority => arbiter
  | .roundRobin => { arbiter with last := some client }

theorem search_requests {requests : List Bool} {start count client : Nat}
    (found : search requests start count = some client) :
    requests.getD client false = true := by
  induction count generalizing start with
  | zero => simp [search] at found
  | succ count induction =>
      unfold search at found
      split at found
      · rename_i requested
        simpa [← Option.some.inj found] using requested
      · exact induction found

end Arbiter

end Elastic
