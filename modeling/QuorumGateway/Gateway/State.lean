import QuorumGateway.Allowlist.Refresh
import QuorumGateway.FanOut
import QuorumGateway.Gateway.Setup
import QuorumGateway.Metrics
/-!
A gateway at work. A call with a user's message is checked, registered, and sent to all members of the network; it
returns when all sends have ended. Responses of the nodes, turns of the sweeper and of the allow-list, and the end of
the gateway come in between, in any order. Each of these is one operation on the state, and all that can be seen from
outside is kept in a trace: what was sent to the nodes, what each callback received or that it was dropped, and what
each call returned.

A message is checked before anything is kept of it: the gateway is open, the fields are in order, the don id and the
method are served, the sender is an address, is on the allow-list and has signed, and the rate limits admit it. The
first failing check decides the error; only the last one spends anything.
-/

namespace QuorumGateway.Gateway

open Pending (Delivery Table)

/-- a call whose message is on its way to the nodes -/
structure Call where
  id : Nat
  key : RequestKey
  method : String
deriving DecidableEq, Repr

/-- what can be seen of a gateway -/
inductive Event where
  | sent (call : Nat) (m : Message)
  | delivered (callback : Nat) (reply : Reply)
  | dropped (callback : Nat)
  | returned (call : Nat) (result : Except GatewayError Unit)
  | started (result : Except GatewayError Unit)
  | closed (result : Except GatewayError Unit)

structure State where
  table : Table
  allowlist : Option Allowlist.Snapshot
  limiter : Option RateLimit.Limiter
  started : Bool
  closing : Bool
  calls : List Call
  metrics : Metrics
  trace : List Event

/-- a gateway that has just been built; nobody is on its allow-list yet -/
def State.ofBuilt (b : Built) : State :=
  { table := .empty
    allowlist := b.contract.map fun _ => .empty
    limiter := b.limiter
    started := false
    closing := false
    calls := []
    metrics := .zero
    trace := [] }

namespace State

/-! ## Parts of operations -/

def emit (s : State) (es : List Event) : State := { s with trace := s.trace ++ es }

def count (s : State) (f : Metrics → Metrics) : State := { s with metrics := f s.metrics }

/-- the state with its table replaced and the gauge set to the table's size -/
def withTable (s : State) (table : Table) : State :=
  { s with table, metrics := s.metrics.setPending table.size }

/-- the state with the table that a response leaves; the gauge is set only when the response took a request out -/
def heard (s : State) (table : Table) (outcome : Pending.Outcome) : State :=
  { s with
    table
    metrics := if outcome.isResolved then s.metrics.setPending table.size else s.metrics }

def deliver (s : State) (ds : List Delivery) : State :=
  { s with
    metrics := ds.foldl (fun m d => m.settled d.reply.code) s.metrics
    trace := s.trace ++ ds.map fun d => .delivered d.callback d.reply }

end State

/-! ## Admission -/

def methods : List String := ["secrets_set", "secrets_list"]

/-- the method of a message as it is counted -/
def methodLabel (method : String) : String := if methods.contains method then method else "unsupported"

def closedError : GatewayError := .lifecycle "handler is closed"

/-- whether a sender may submit requests as far as the allow-list goes -/
def listed (s : State) (sender : Address) : Bool :=
  match s.allowlist with
  | none => true
  | some list => list.allows sender

def refuse {α : Type} : Except Message.Objection α → Except GatewayError α
  | .ok a => .ok a
  | .error o => .error (.ofObjection o)

/-- the checks before the rate limits, and the sender's address if they pass -/
def screen (S : Crypto.Scheme) (g : Setup) (s : State) (m : Message) : Except GatewayError Address := do
  if s.closing then throw closedError
  refuse m.checkFields
  if g.network.donId ≠ "" ∧ m.body.donId ≠ g.network.donId then
    throw (.unsupportedDonId g.network.donId m.body.donId)
  if !methods.contains m.body.method then throw (.unsupportedMethod m.body.method)
  let sender ← refuse m.declaredSender
  if !listed s sender then throw (.notAllowlisted sender.text)
  refuse (m.checkSignature S)
  return sender

/-- a token of the rate limits for a sender, and the state without it -/
def charge (s : State) (sender : Address) (now : Nat) : Bool × State :=
  match s.limiter with
  | none => (true, s)
  | some l =>
    let (granted, l) := l.allow sender.text now
    (granted, { s with limiter := some l })

/-! ## Operations -/

/-- a call that is refused: its callback is dropped -/
def reject (s : State) (call : Nat) (method : String) (e : GatewayError) : State :=
  (s.count fun x => (x.rejection e.label).userRequest (methodLabel method) "rejected").emit
    [.dropped call, .returned call (.error e)]

def submit (S : Crypto.Scheme) (g : Setup) (s : State) (now call : Nat) (m : Message) : State :=
  match screen S g s m with
  | .error e => reject s call m.body.method e
  | .ok sender =>
    let (granted, s) := charge s sender now
    if !granted then reject s call m.body.method (.rateLimited sender.text)
    else
      let key := RequestKey.ofMessage m
      match s.table.register g.limits key call (now + g.timeout) with
      | .error e => reject s call m.body.method e
      | .ok table =>
        let c : Call := ⟨call, key, methodLabel m.body.method⟩
        ({ s.withTable table with calls := s.calls ++ [c] } : State).emit [.sent call m]

def accept (s : State) (c : Call) : State :=
  (s.count fun x => x.userRequest c.method "accepted").emit [.returned c.id (.ok ())]

/-- the end of all sends of a call: when too many have failed for a quorum, the request with the call's key is evicted,
and the call fails if there was one -/
def finish (g : Setup) (s : State) (call : Nat) (legs : List FanOut.Leg) : State :=
  match s.calls.find? fun c => c.id = call with
  | none => s
  | some c =>
    let report := FanOut.report legs
    let s := { s with calls := s.calls.filter fun c => c.id ≠ call }
    let s := s.count fun x => legs.foldl (fun x l => x.nodeSend l.error.isNone) x
    if report.failed.length < g.quorum.maxSendFailures then accept s c
    else
      match s.table.evict c.key with
      | (table, none) => accept (s.withTable table) c
      | (table, some e) =>
        let error := GatewayError.insufficientNodes report.failed.length report.total
        ((s.withTable table).count fun x => (x.rejection error.label).userRequest c.method "rejected").emit
          [.dropped e.callback, .returned c.id (.error error)]

def outcomeLabel : Pending.Outcome → String
  | .unmatched => "unmatched"
  | .recorded _ => "recorded"
  | .resolved _ => "resolved"

/-- a response of a node; only members are listened to -/
def respond (g : Setup) (s : State) (node : String) (m : Message) : State :=
  if !g.network.isMember node then s.count fun x => x.nodeResponse "non_member"
  else
    let (table, outcome, ds) := s.table.record g.quorum (RequestKey.ofMessage m) node m
    ((s.heard table outcome).deliver ds).count fun x => x.nodeResponse (outcomeLabel outcome)

def sweep (g : Setup) (s : State) (now : Nat) : State :=
  let (table, ds) := s.table.expire g.quorum now
  (s.withTable table).deliver ds

def refresh (s : State) (result : Except Allowlist.Failure Allowlist.Snapshot) : State :=
  { s with
    allowlist := s.allowlist.map fun list => list.after result
    metrics := s.metrics.refresh (result.toOption.map Allowlist.Snapshot.size) }

/-- the start of the background work, which is possible once and not after the end -/
def start (s : State) : State × Except GatewayError Unit :=
  let result : Except GatewayError Unit :=
    if s.started then .error (.lifecycle "handler already started")
    else if s.closing then .error closedError
    else .ok ()
  (({ s with started := true } : State).emit [.started result], result)

/-- the first half of the end: no more calls are admitted and the background work stops -/
def beginClose (s : State) : State × Except GatewayError Unit :=
  if s.closing then
    let error := GatewayError.lifecycle "handler already closed"
    (s.emit [.closed (.error error)], .error error)
  else ({ s with closing := true }, .ok ())

def shutdownReason : String := "gateway handler is shutting down"

/-- the second half of the end: all open requests are settled -/
def drain (s : State) : State :=
  let (table, ds) := s.table.failAll .fatalError shutdownReason
  ((s.withTable table).deliver ds).emit [.closed (.ok ())]

/-- the objection to starting the background work where there is nothing to run it on -/
def nowhereToRun : GatewayError :=
  .lifecycle
    ("start requires a Tokio runtime: there is no reactor running, "
      ++ "must be called from the context of a Tokio 1.x runtime")

/-! ## Runs -/

inductive Op where
  | submit (now call : Nat) (m : Message)
  | finish (call : Nat) (legs : List FanOut.Leg)
  | respond (node : String) (m : Message)
  | sweep (now : Nat)
  | refresh (result : Except Allowlist.Failure Allowlist.Snapshot)
  | start
  | beginClose
  | drain

def step (S : Crypto.Scheme) (g : Setup) (s : State) : Op → State
  | .submit now call m => submit S g s now call m
  | .finish call legs => finish g s call legs
  | .respond node m => respond g s node m
  | .sweep now => sweep g s now
  | .refresh result => refresh s result
  | .start => (start s).1
  | .beginClose => (beginClose s).1
  | .drain => drain s

def run (S : Crypto.Scheme) (g : Setup) (s : State) (ops : List Op) : State := ops.foldl (step S g) s

theorem run_snoc (S : Crypto.Scheme) (g : Setup) (s : State) (ops : List Op) (op : Op) :
    run S g s (ops ++ [op]) = step S g (run S g s ops) op := by
  simp [run, List.foldl_append]

end QuorumGateway.Gateway
