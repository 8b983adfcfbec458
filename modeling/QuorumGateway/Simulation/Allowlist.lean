import QuorumGateway.Allowlist.Refresh
import QuorumGateway.Metrics
/-!
An allow-list on a virtual clock, with any number of repeated refreshes and fetches made on request. While a requested
fetch is under way time passes, and whatever falls due before its end happens on the way.
-/

namespace QuorumGateway.Simulation

open Allowlist

/-- an allow-list with its clock: the contract and the number of confirmations asked for, the source, the number of
fetches started, whether the source has been asked yet, and the refreshes that run -/
structure AllowlistClock where
  contract : Address
  confirmations : Nat
  now : Nat
  source : Source
  snapshot : Snapshot
  fetches : Nat
  refreshes : List Refresh
  metrics : Metrics
deriving Repr

namespace AllowlistClock

def start (contract : Address) (confirmations : Nat) (source : Source) : AllowlistClock :=
  ⟨contract, confirmations, 0, source, .empty, 0, [], .zero⟩

/-- the number of confirmations last asked for; zero before the first fetch -/
def confirmationsAsked (s : AllowlistClock) : Nat := if s.fetches = 0 then 0 else s.confirmations

/-! ## Refreshes -/

/-- the next step of a refresh: its fetch ends, or it takes a turn and starts one -/
def stepRefresh (s : AllowlistClock) (r : Refresh) : AllowlistClock × Refresh :=
  match r.fetch with
  | some f =>
    let result := f.result s.contract r.limit s.source
    ({ s with
        snapshot := s.snapshot.after result
        metrics := s.metrics.refresh (result.toOption.map Snapshot.size) }, r.finish)
  | none => ({ s with fetches := s.fetches + 1 }, r.begin s.now s.source.manner)

/-- the position of the refresh whose next step is due first, with its due instant -/
def firstDue : Nat → List Refresh → Option (Nat × Nat)
  | _, [] => none
  | i, r :: rest =>
    match firstDue (i + 1) rest with
    | some (due, j) => if due < r.due then some (due, j) else some (r.due, i)
    | none => some (r.due, i)

def stepAt (s : AllowlistClock) (due i : Nat) : AllowlistClock :=
  let s := { s with now := max s.now due }
  match s.refreshes[i]? with
  | none => s
  | some r =>
    let (s, r) := stepRefresh s r
    { s with refreshes := s.refreshes.set i r }

/-- all steps of refreshes due up to an instant, of which there are at most `fuel` -/
def settle : Nat → Nat → AllowlistClock → AllowlistClock
  | 0, _, s => s
  | fuel + 1, target, s =>
    match firstDue 0 s.refreshes with
    | none => s
    | some (due, i) => if due ≤ target then settle fuel target (stepAt s due i) else s

/-- a bound on the steps of the refreshes up to an instant: each turn moves the timer on, and is followed by at most one
end of a fetch -/
def stepBound (target : Nat) (rs : List Refresh) : Nat :=
  (rs.map fun r => 2 * (target + 1 - r.ticker.due) + 1).sum

def advanceTo (s : AllowlistClock) (target : Nat) : AllowlistClock :=
  let s := settle (stepBound target s.refreshes) target s
  { s with now := max s.now target }

/-! ## Operations -/

/-- a fetch made on request -/
def update (s : AllowlistClock) (limit : Nat) : AllowlistClock × Except Failure Nat :=
  let f := Fetch.start s.now limit s.source.manner
  let s := advanceTo { s with fetches := s.fetches + 1 } (f.ends - 1)
  let s := { s with now := max s.now f.ends }
  let result := f.result s.contract limit s.source
  (advanceTo { s with snapshot := s.snapshot.after result } s.now, result.map Snapshot.size)

/-- a refresh started; its first turn is taken at once -/
def startRefresh (s : AllowlistClock) (period limit : Nat) : AllowlistClock :=
  advanceTo { s with refreshes := s.refreshes ++ [.start s.now period limit] } s.now

/-- all refreshes ended; fetches under way are abandoned -/
def shutDown (s : AllowlistClock) : AllowlistClock := { s with refreshes := [] }

end AllowlistClock

end QuorumGateway.Simulation
