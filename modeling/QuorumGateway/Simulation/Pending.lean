import QuorumGateway.Metrics
import QuorumGateway.Pending
/-!
The table of open requests on a virtual clock. Time passes only when it is told to; a sweeper looks for overdue requests
at every turn of its timer, and all turns due on the way are taken. A second sweeper runs beside the first, which can
then no longer be stopped. What happens to a callback is reported once, unless its receiver has been dropped: it is
delivered a value, or it is closed without one.
-/

namespace QuorumGateway.Simulation

inductive Fate where
  | delivered (reply : Reply)
  | closed
deriving Repr

/-- the receivers of callbacks: how many callbacks there have been, and which of their receivers still wait -/
structure Receivers where
  opened : Nat
  waiting : List Nat
deriving Repr

namespace Receivers

def none : Receivers := ⟨0, []⟩

/-- one more callback, with the next number -/
def add (r : Receivers) : Receivers := ⟨r.opened + 1, r.waiting ++ [r.opened]⟩

/-- a receiver dropped, and whether it still waited -/
def drop (r : Receivers) (callback : Nat) : Receivers × Bool :=
  ({ r with waiting := r.waiting.filter (· ≠ callback) }, r.waiting.contains callback)

/-- of what happened, that which receivers still waited for, in the order of the callbacks; they wait no longer -/
def report (r : Receivers) (fates : List (Nat × Fate)) : Receivers × List (Nat × Fate) :=
  let told := r.waiting.filterMap fun c => (fates.find? (·.1 == c)).map fun f => (c, f.2)
  ({ r with waiting := r.waiting.filter fun c => !(told.any (·.1 == c)) }, told)

end Receivers

open Pending

/-- the table with its clock, the sweeper that can be stopped, those started before it, and what has happened since the
last report -/
structure PendingClock where
  quorum : Quorum
  limits : Limits
  now : Nat
  table : Table
  sweeper : Option Time.Ticker
  unattended : List Time.Ticker
  receivers : Receivers
  fates : List (Nat × Fate)
  metrics : Metrics
deriving Repr

namespace PendingClock

def start (quorum : Quorum) (limits : Limits) : PendingClock :=
  ⟨quorum, limits, 0, .empty, none, [], .none, [], .zero⟩

def withTable (s : PendingClock) (table : Table) : PendingClock :=
  { s with table, metrics := s.metrics.setPending table.size }

/-- the clock with the table that a response leaves; the gauge is set only when the response took a request out -/
def heard (s : PendingClock) (table : Table) (outcome : Outcome) : PendingClock :=
  { s with
    table
    metrics := if outcome.isResolved then s.metrics.setPending table.size else s.metrics }

def deliver (s : PendingClock) (ds : List Delivery) : PendingClock :=
  { s with
    fates := s.fates ++ ds.map fun d => (d.callback, .delivered d.reply)
    metrics := ds.foldl (fun m d => m.settled d.reply.code) s.metrics }

def close (s : PendingClock) (callback : Nat) : PendingClock := { s with fates := s.fates ++ [(callback, .closed)] }

/-! ## Operations -/

def register (s : PendingClock) (key : RequestKey) (deadline : Nat) : PendingClock × Except GatewayError Unit :=
  let callback := s.receivers.opened
  let s := { s with receivers := s.receivers.add }
  match s.table.register s.limits key callback deadline with
  | .ok table => (withTable s table, .ok ())
  | .error e => (close s callback, .error e)

def record (s : PendingClock) (key : RequestKey) (node : String) (m : Message) : PendingClock × Outcome :=
  let (table, outcome, ds) := s.table.record s.quorum key node m
  (deliver (heard s table outcome) ds, outcome)

def evict (s : PendingClock) (key : RequestKey) : PendingClock × Bool :=
  match s.table.evict key with
  | (table, some e) => (close (withTable s table) e.callback, true)
  | (table, none) => (withTable s table, false)

/-- the requests overdue at an instant settled, and their number -/
def expire (s : PendingClock) (instant : Nat) : PendingClock × Nat :=
  let (table, ds) := s.table.expire s.quorum instant
  (deliver (withTable s table) ds, ds.length)

/-- all requests settled and the table closed, and their number -/
def failAll (s : PendingClock) (code : ErrorCode) (reason : String) : PendingClock × Nat :=
  let (table, ds) := s.table.failAll code reason
  (deliver (withTable s table) ds, ds.length)

/-! ## Time -/

def sweepers (s : PendingClock) : List Time.Ticker := s.sweeper.toList ++ s.unattended

def due? (s : PendingClock) : Option Nat := (s.sweepers.map Time.Ticker.wake).min?

/-- the timer of a sweeper after the turns taken at an instant -/
def turn (now : Nat) (t : Time.Ticker) : Time.Ticker := if t.wake ≤ now then t.advance now else t

def sweep (s : PendingClock) (instant : Nat) : PendingClock :=
  let now := max s.now instant
  (expire { s with now, sweeper := s.sweeper.map (turn now), unattended := s.unattended.map (turn now) } now).1

/-- all turns of sweepers due up to an instant, of which there are at most `fuel` -/
def settle : Nat → Nat → PendingClock → PendingClock
  | 0, _, s => s
  | fuel + 1, target, s =>
    match s.due? with
    | none => s
    | some instant => if instant ≤ target then settle fuel target (sweep s instant) else s

/-- time passes up to an instant; the due instant of a timer grows with each turn, which bounds their number -/
def advanceTo (s : PendingClock) (target : Nat) : PendingClock :=
  let s := settle (s.sweepers.map fun t => target + 1 - t.due).sum target s
  { s with now := max s.now target }

/-- a sweeper started; its first turn is taken at once -/
def startSweeper (s : PendingClock) (interval : Nat) : PendingClock :=
  advanceTo { s with sweeper := some (.start s.now interval), unattended := s.sweepers } s.now

/-- the sweeper stopped, and whether there was one to stop -/
def stopSweeper (s : PendingClock) : PendingClock × Bool := ({ s with sweeper := none }, s.sweeper.isSome)

def report (s : PendingClock) : PendingClock × List (Nat × Fate) :=
  let (receivers, told) := s.receivers.report s.fates
  ({ s with receivers, fates := [] }, told)

end PendingClock

end QuorumGateway.Simulation
