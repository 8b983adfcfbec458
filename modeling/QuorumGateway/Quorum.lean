import QuorumGateway.SortedMap
import QuorumGateway.Message.Basic
/-!
When the responses of the nodes settle a request. With `f` faulty nodes tolerated, `f + 1` equal payloads contain one
from a node that is not faulty, so they are believed; payloads are equal when their compact forms are. The response that
is passed on is the one of the least node among those that are believed, whatever the order of arrival. When the nodes
still silent can no longer bring any payload up to `f + 1`, the request has failed.
-/

namespace QuorumGateway

/-- the number of nodes and the number of faulty ones that is tolerated -/
structure Quorum where
  members : Nat
  f : Nat
deriving DecidableEq, Repr

/-- the responses to a request, one for each node that has answered, in ascending order of the nodes -/
abbrev Responses := SortedMap Message

inductive Decision where
  | pending
  | agreed (m : Message)
  | failed (reason : String)
deriving Repr

namespace Quorum

/-- the number of equal payloads that is believed -/
def threshold (q : Quorum) : Nat := q.f + 1

/-- the number of failed sends from which on a request cannot be settled any more -/
def maxSendFailures (q : Quorum) : Nat := q.members - q.f

/-- what two responses have in common when they agree -/
def ballot (m : Message) : List UInt8 := m.body.payload.encoding

/-- the number of ballots equal to a given one -/
def support (ballots : List (List UInt8)) (b : List UInt8) : Nat := ballots.count b

/-- the greatest number of equal ballots -/
def largest (ballots : List (List UInt8)) : Nat := (ballots.map (support ballots)).foldl max 0

/-- why a request cannot be settled any more -/
def splitReason (q : Quorum) (answered : Nat) : String :=
  Text.ofNat answered ++ " responses from " ++ Text.ofNat q.members ++ " nodes cannot produce "
    ++ Text.ofNat q.threshold ++ " matching payloads"

def decision (q : Quorum) (rs : Responses) : Decision :=
  let ballots := rs.map fun r => ballot r.2
  match (rs.zip ballots).find? fun r => q.threshold ≤ support ballots r.2 with
  | some ((_, m), _) => .agreed m
  | none =>
    if largest ballots + (q.members - rs.length) < q.threshold then .failed (q.splitReason rs.length) else .pending

end Quorum

end QuorumGateway
