import QuorumGateway.Config.Settings
import QuorumGateway.Message.Basic
import QuorumGateway.Time
/-!
Sending one message to all members at once. Each send may succeed or fail after some time, or never come to an end; it
is given up when the time limit is reached or when the caller cancels, whichever comes first, and then counts as failed.
A send that ends at that very instant still counts as it ended. The report lists the failed members in the order of the
configuration.

The local network routes by address without regard to letter case; sending to an address that nobody is registered
under fails at once, and so does every send after a cancellation.
-/

namespace QuorumGateway.FanOut

/-- when a caller cancels: not at all, before the first send, or some time after the start -/
inductive Cancel where
  | never
  | before
  | after (span : Nat)
deriving DecidableEq, Repr

/-- a send left to itself: how long it takes, unless it never ends, and the error it ends with, if any -/
structure Attempt where
  span : Option Nat
  error : Option String
deriving DecidableEq, Repr

/-- a send to a member as it went: how long it took and the error it ended with, if any -/
structure Leg where
  address : String
  span : Nat
  error : Option String
deriving DecidableEq, Repr

def cancelled : String := "request cancelled"

def timedOut (limit : Nat) : String := "send timed out after " ++ Time.text limit

/-- the time after which sends are given up, and the error they end with -/
def cutoff (limit : Nat) : Cancel → Nat × String
  | .never => (limit, timedOut limit)
  | .before => (0, cancelled)
  | .after span => if span ≤ limit then (span, cancelled) else (limit, timedOut limit)

/-- a send under a time limit and a cancellation -/
def bounded (limit : Nat) (cancel : Cancel) (address : String) (a : Attempt) : Leg :=
  let (last, reason) := cutoff limit cancel
  match a.span with
  | none => ⟨address, last, some reason⟩
  | some span => if span ≤ last then ⟨address, span, a.error⟩ else ⟨address, last, some reason⟩

structure Report where
  succeeded : Nat
  failed : List (String × String)
deriving DecidableEq, Repr

def Report.total (r : Report) : Nat := r.succeeded + r.failed.length

def failures (legs : List Leg) : List (String × String) := legs.filterMap fun l => l.error.map fun e => (l.address, e)

def report (legs : List Leg) : Report := ⟨legs.countP fun l => l.error.isNone, failures legs⟩

/-- how long all sends took together -/
def duration (legs : List Leg) : Nat := legs.foldl (fun d l => max d l.span) 0

/-! ## The local network -/

/-- how a node takes a message: it accepts or refuses it at once, never answers, or accepts it after a while -/
inductive Conduct where
  | accept
  | refuse
  | stall
  | delay (span : Nat)
deriving DecidableEq, Repr

/-- a connection, under the address it was registered with, and what the node answers once it has accepted a message:
the payload of the answer, and the address it answers from if not its own -/
structure Connection where
  address : String
  conduct : Conduct
  answer : Option Json
  answerFrom : Option String
deriving Repr

/-- the connections by address in small letters -/
abbrev Connections := SortedMap Connection

namespace Connections

def find? (cs : Connections) (address : String) : Option Connection := SortedMap.get? (Text.lower address) cs

/-- a connection registered, in place of an earlier one for its address -/
def register (cs : Connections) (c : Connection) : Connections := SortedMap.put (Text.lower c.address) c cs

/-- the connection for an address taken away, and whether there was one -/
def deregister (cs : Connections) (address : String) : Connections × Bool :=
  (List.filter (fun p => p.1 ≠ Text.lower address) cs, (find? cs address).isSome)

end Connections

def Conduct.attempt : Conduct → Attempt
  | .accept => ⟨some 0, none⟩
  | .refuse => ⟨some 0, some "connection reset"⟩
  | .stall => ⟨none, none⟩
  | .delay span => ⟨some span, none⟩

/-- a send to an address nobody is registered under -/
def notConnected (address : String) : Attempt := ⟨some 0, some ("node " ++ address ++ " is not connected")⟩

def route (cs : Connections) (cancel : Cancel) (address : String) : Option Connection :=
  if cancel = .before then none else cs.find? address

def legs (cs : Connections) (cancel : Cancel) (limit : Nat) (members : List Member) : List Leg :=
  members.map fun m =>
    bounded limit cancel m.address
      (if cancel = .before then ⟨some 0, some cancelled⟩
      else match cs.find? m.address with
        | none => notConnected m.address
        | some c => c.conduct.attempt)

/-- the registered addresses of the connections that sends to all members go through -/
def called (cs : Connections) (cancel : Cancel) (members : List Member) : List String :=
  members.filterMap fun m => (route cs cancel m.address).map Connection.address

end QuorumGateway.FanOut
