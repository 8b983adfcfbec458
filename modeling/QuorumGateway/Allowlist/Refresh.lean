import QuorumGateway.Allowlist.Snapshot
import QuorumGateway.Time
/-!
Fetching the list of allowed senders, once or again and again. A fetch is given up when it has not answered within its
time limit; an answer at the very end of the limit still counts. What a fetch brings is the list of its source at the
instant at which it answers.

The repeated refresh starts a fetch at every turn of a timer, the first one at once, and waits for it before it takes
the next turn, so that at most one of its fetches is under way at any time.
-/

namespace QuorumGateway.Allowlist

/-- how the source of the list answers: at once, with an error at once, never, after a while, or with an error after a
while -/
inductive Manner where
  | answer
  | refuse
  | hang
  | delay (span : Nat)
  | fail (span : Nat)
deriving DecidableEq, Repr

structure Source where
  senders : List Address
  manner : Manner
deriving DecidableEq, Repr

inductive Ending where
  | answered
  | refused
  | gaveUp
deriving DecidableEq, Repr

/-- a fetch under way: the instant at which it will end, and how -/
structure Fetch where
  ends : Nat
  ending : Ending
deriving DecidableEq, Repr

def Fetch.start (now limit : Nat) : Manner → Fetch
  | .answer => ⟨now, .answered⟩
  | .refuse => ⟨now, .refused⟩
  | .hang => ⟨now + limit, .gaveUp⟩
  | .delay span => if span ≤ limit then ⟨now + span, .answered⟩ else ⟨now + limit, .gaveUp⟩
  | .fail span => if span ≤ limit then ⟨now + span, .refused⟩ else ⟨now + limit, .gaveUp⟩

inductive Failure where
  | timedOut (limit : Nat)
  | unavailable (contract : Address)
deriving DecidableEq, Repr

def Failure.text : Failure → String
  | .timedOut limit => "allow-list fetch timed out after " ++ Time.text limit ++ ": deadline has elapsed"
  | .unavailable contract => "failed to fetch allow-list from " ++ contract.text ++ ": rpc unavailable"

/-- what a fetch that ends brings: the list of its source, or a failure -/
def Fetch.result (f : Fetch) (contract : Address) (limit : Nat) (source : Source) : Except Failure Snapshot :=
  match f.ending with
  | .answered => .ok (.ofFetched source.senders)
  | .refused => .error (.unavailable contract)
  | .gaveUp => .error (.timedOut limit)

/-- the list after a fetch has ended: a failure leaves it as it was -/
def Snapshot.after (s : Snapshot) : Except Failure Snapshot → Snapshot
  | .ok next => next
  | .error _ => s

/-! ## The repeated refresh -/

/-- a repeated refresh: its timer, the time limit of a fetch, and the fetch under way if there is one -/
structure Refresh where
  ticker : Time.Ticker
  limit : Nat
  fetch : Option Fetch
deriving Repr

namespace Refresh

def start (now period limit : Nat) : Refresh := ⟨.start now period, limit, none⟩

/-- the instant at which the refresh does its next step: the end of its fetch, or the next turn of its timer -/
def due (r : Refresh) : Nat :=
  match r.fetch with
  | some f => f.ends
  | none => r.ticker.wake

def begin (r : Refresh) (now : Nat) (manner : Manner) : Refresh :=
  { r with ticker := r.ticker.advance now, fetch := some (Fetch.start now r.limit manner) }

def finish (r : Refresh) : Refresh := { r with fetch := none }

end Refresh

end QuorumGateway.Allowlist
