import QuorumGateway.Error
import QuorumGateway.Quorum
import QuorumGateway.Reply
import QuorumGateway.Time
/-!
The table of open requests. A request is known by its sender, in small letters, and its message id. Each open request
owns a callback; an operation that settles requests takes them out of the table and hands back what their callbacks are
to receive, and one that evicts a request hands back nothing, so that no callback receives two values. Beside the
requests the table counts them by sender, for the cap that each sender has.
-/

namespace QuorumGateway

/-- the identity of a request -/
structure RequestKey where
  sender : String
  messageId : String
deriving DecidableEq, Repr

namespace RequestKey

/-- the key for a sender in any letter case -/
def of (sender messageId : String) : RequestKey := ⟨Text.lower sender, messageId⟩

def ofMessage (m : Message) : RequestKey := of m.body.sender m.body.messageId

def text (k : RequestKey) : String := k.sender ++ "/" ++ k.messageId

end RequestKey

namespace Pending

/-- caps on the number of open requests, of all senders and of each; zero is no cap -/
structure Limits where
  global : Nat
  perSender : Nat
deriving DecidableEq, Repr

/-- an open request: its callback, the responses so far, and the instant from which on it is overdue -/
structure Entry where
  key : RequestKey
  callback : Nat
  responses : Responses
  deadline : Nat
deriving Repr

/-- what a callback receives -/
structure Delivery where
  callback : Nat
  reply : Reply
deriving Repr

/-- the table: the open requests in the order of their registration, their number by sender, and whether the table has
been closed -/
structure Table where
  entries : List Entry
  counts : List (String × Nat)
  closed : Bool
deriving Repr

/-- what became of a response -/
inductive Outcome where
  | unmatched
  | recorded (answered : Nat)
  | resolved (code : ErrorCode)
deriving DecidableEq, Repr

/-- whether a response has taken its request out of the table -/
def Outcome.isResolved : Outcome → Bool
  | .resolved _ => true
  | .unmatched | .recorded _ => false

/-! ## Counts by sender -/

def countOf (sender : String) : List (String × Nat) → Nat
  | [] => 0
  | (s, n) :: rest => if s = sender then n else countOf sender rest

def countUp (sender : String) : List (String × Nat) → List (String × Nat)
  | [] => [(sender, 1)]
  | (s, n) :: rest => if s = sender then (s, n + 1) :: rest else (s, n) :: countUp sender rest

/-- one less for a sender; a count that comes to zero is dropped -/
def countDown (sender : String) : List (String × Nat) → List (String × Nat)
  | [] => []
  | (s, n) :: rest =>
    if s = sender then if n ≤ 1 then rest else (s, n - 1) :: rest else (s, n) :: countDown sender rest

namespace Table

def empty : Table := ⟨[], [], false⟩

def find? (t : Table) (key : RequestKey) : Option Entry := t.entries.find? fun e => e.key = key

def contains (t : Table) (key : RequestKey) : Bool := (t.find? key).isSome

def size (t : Table) : Nat := t.entries.length

/-- the number of nodes that have answered an open request -/
def responseCount? (t : Table) (key : RequestKey) : Option Nat := (t.find? key).map fun e => e.responses.length

def erase (t : Table) (key : RequestKey) : Table :=
  if t.contains key then
    { t with entries := t.entries.filter fun e => e.key ≠ key, counts := countDown key.sender t.counts }
  else t

/-- a request in place of the one with its key -/
def replace (t : Table) (entry : Entry) : Table :=
  { t with entries := t.entries.map fun e => if e.key = entry.key then entry else e }

/-- a request entered into the table, or the first objection: a closed table, an open request with the same key, the
cap on all requests, the cap on those of a sender -/
def register (t : Table) (limits : Limits) (key : RequestKey) (callback deadline : Nat) : Except GatewayError Table :=
  if t.closed then .error (.lifecycle "pending request table is closed")
  else if t.contains key then .error (.duplicateRequest key.sender key.messageId)
  else if 0 < limits.global ∧ limits.global ≤ t.size then .error (.tooManyPending .global limits.global)
  else if 0 < limits.perSender ∧ limits.perSender ≤ countOf key.sender t.counts then
    .error (.tooManyPending .perSender limits.perSender)
  else
    .ok { t with entries := t.entries ++ [⟨key, callback, [], deadline⟩], counts := countUp key.sender t.counts }

/-- what a decision brings a callback, if it settles the request -/
def replyTo : Decision → Option Reply
  | .pending => none
  | .agreed m => some (.success m)
  | .failed reason => some (.failure .nodeResponseEncodingError reason)

/-- a node's response entered in place of its earlier one, and the request settled when that decides it -/
def record (t : Table) (q : Quorum) (key : RequestKey) (node : String) (response : Message) :
    Table × Outcome × List Delivery :=
  match t.find? key with
  | none => (t, .unmatched, [])
  | some e =>
    let responses := SortedMap.put (Text.lower node) response e.responses
    match replyTo (q.decision responses) with
    | none => (t.replace { e with responses }, .recorded responses.length, [])
    | some reply => (t.erase key, .resolved reply.code, [⟨e.callback, reply⟩])

/-- a request taken out of the table without a value for its callback, and the request if it was open -/
def evict (t : Table) (key : RequestKey) : Table × Option Entry := (t.erase key, t.find? key)

/-- what the callback of an overdue request receives -/
def timeout (q : Quorum) (e : Entry) : Delivery :=
  ⟨e.callback, .failure .requestTimeoutError
    ("request timed out with " ++ Text.ofNat e.responses.length ++ " of " ++ Text.ofNat q.threshold
      ++ " required responses")⟩

/-- all requests that are overdue at an instant taken out of the table -/
def expire (t : Table) (q : Quorum) (now : Nat) : Table × List Delivery :=
  let overdue := t.entries.filter fun e => e.deadline ≤ now
  (overdue.foldl (fun t e => t.erase e.key) t, overdue.map (timeout q))

/-- all requests settled with one failure, and the table closed -/
def failAll (t : Table) (code : ErrorCode) (reason : String) : Table × List Delivery :=
  (⟨[], [], true⟩, t.entries.map fun e => ⟨e.callback, .failure code reason⟩)

def debugText (t : Table) (q : Quorum) (limits : Limits) : String :=
  "PendingRequests \x7b quorum: Quorum \x7b members: " ++ Text.ofNat q.members ++ ", f: " ++ Text.ofNat q.f
    ++ " \x7d, aggregator: MatchingPayloadAggregator, limits: PendingLimits \x7b global: " ++ Text.ofNat limits.global
    ++ ", per_sender: " ++ Text.ofNat limits.perSender ++ " \x7d, len: " ++ Text.ofNat t.size ++ " \x7d"

end Table

/-! ## Sweeping -/

/-- how often overdue requests are looked for: four times in the span a request may stay open, but no more often than
every 100 ms and no less often than every 5 s -/
def sweepInterval (timeout : Nat) : Nat := min (Time.seconds 5) (max (Time.millis 100) (timeout / 4))

end Pending

end QuorumGateway
