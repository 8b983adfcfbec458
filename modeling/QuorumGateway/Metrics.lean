import QuorumGateway.Text.Pieces
import QuorumGateway.Decimal.Layout
import QuorumGateway.ErrorCode
/-!
Counters and gauges of a gateway, and their text form: families in the order of their names, each under two lines that
describe it, and in a family the series in the order of their label values. A family of counters without a series is
left out. Of the time that requests took only the number of requests is kept.
-/

namespace QuorumGateway

/-- counts by label values, in ascending order of these -/
abbrev Tally := List (List String × Nat)

namespace Tally

def add (labels : List String) : Tally → Tally
  | [] => [(labels, 1)]
  | (ls, n) :: rest =>
    if labels < ls then (labels, 1) :: (ls, n) :: rest
    else if labels = ls then (ls, n + 1) :: rest
    else (ls, n) :: add labels rest

def get (labels : List String) : Tally → Nat
  | [] => 0
  | (ls, n) :: rest => if ls = labels then n else get labels rest

def total (t : Tally) : Nat := (t.map Prod.snd).sum

theorem total_add (labels : List String) (t : Tally) : (add labels t).total = t.total + 1 := by
  induction t with
  | nil => rfl
  | cons p rest ih =>
    obtain ⟨ls, n⟩ := p
    simp only [add]
    split
    · simp [total]; omega
    · split
      · simp [total]; omega
      · simp only [total, List.map_cons, List.sum_cons] at ih ⊢; omega

end Tally

structure Metrics where
  userRequests : Tally
  rejections : Tally
  durations : Tally
  pending : Nat
  nodeSends : Tally
  nodeResponses : Tally
  allowlistSize : Nat
  allowlistRefreshes : Tally
deriving Repr

namespace Metrics

def zero : Metrics := ⟨[], [], [], 0, [], [], 0, []⟩

/-! ## Counting -/

def userRequest (m : Metrics) (method outcome : String) : Metrics :=
  { m with userRequests := m.userRequests.add [method, outcome] }

def rejection (m : Metrics) (reason : String) : Metrics := { m with rejections := m.rejections.add [reason] }

def settled (m : Metrics) (code : ErrorCode) : Metrics := { m with durations := m.durations.add [code.text] }

def setPending (m : Metrics) (count : Nat) : Metrics := { m with pending := count }

def nodeSend (m : Metrics) (ok : Bool) : Metrics :=
  { m with nodeSends := m.nodeSends.add [if ok then "ok" else "error"] }

def nodeResponse (m : Metrics) (outcome : String) : Metrics :=
  { m with nodeResponses := m.nodeResponses.add [outcome] }

/-- the allow-list has been fetched, with so many senders, or fetching has failed -/
def refresh (m : Metrics) : Option Nat → Metrics
  | some size => { m with allowlistSize := size, allowlistRefreshes := m.allowlistRefreshes.add ["ok"] }
  | none => { m with allowlistRefreshes := m.allowlistRefreshes.add ["error"] }

/-! ## Text -/

/-- a family: its name, what it says, its kind, the names of its labels, what its series are called, and its series -/
structure Family where
  name : String
  help : String
  kind : String
  labels : List String
  series : String
  values : List (List String × String)

def escape (c : Char) : List Char :=
  if c = '\\' then ['\\', '\\'] else if c = '"' then ['\\', '"'] else if c = '\n' then ['\\', 'n'] else [c]

def label (name value : String) : String :=
  name ++ "=\"" ++ String.ofList (value.toList.flatMap escape) ++ "\""

def line (f : Family) (values : List String) (count : String) : String :=
  let labels := (f.labels.zip values).map fun (n, v) => label n v
  f.series ++ (if labels.isEmpty then "" else "\x7b" ++ Text.join "," labels ++ "\x7d") ++ " " ++ count

def Family.lines (f : Family) : List String :=
  if f.values.isEmpty then []
  else
    ("# HELP " ++ f.name ++ " " ++ f.help) :: ("# TYPE " ++ f.name ++ " " ++ f.kind)
      :: f.values.map fun (values, count) => line f values count

def counter (name help : String) (labels : List String) (t : Tally) : Family :=
  ⟨name, help, "counter", labels, name, t.map fun (values, n) => (values, Text.ofNat n)⟩

/-- a gauge; its value passes through the 64-bit binary format -/
def gauge (name help : String) (value : Nat) : Family :=
  ⟨name, help, "gauge", [], name, [([], Decimal.Layout.message.text (Decimal.Binary64.ofNat value))]⟩

/-- a family of durations, of which the counts are shown -/
def durationCounts (name help : String) (labels : List String) (t : Tally) : Family :=
  ⟨name, help, "histogram", labels, name ++ "_count", t.map fun (values, n) => (values, Text.ofNat n)⟩

def families (m : Metrics) : List Family :=
  [counter "don_gateway_allowlist_refreshes_total" "Allow-list refresh attempts" ["outcome"] m.allowlistRefreshes,
   gauge "don_gateway_allowlist_size" "Senders in the current allow-list snapshot" m.allowlistSize,
   counter "don_gateway_node_responses_total" "Node responses received" ["outcome"] m.nodeResponses,
   counter "don_gateway_node_sends_total" "Messages sent to DON members" ["outcome"] m.nodeSends,
   gauge "don_gateway_pending_requests" "Requests awaiting quorum" m.pending,
   durationCounts "don_gateway_request_duration_seconds" "Time from registration to callback delivery" ["err_code"]
     m.durations,
   counter "don_gateway_request_rejections_total" "User requests rejected before fan-out" ["reason"] m.rejections,
   counter "don_gateway_user_requests_total" "User requests received, by method and outcome" ["method", "outcome"]
     m.userRequests]

def lines (m : Metrics) : List String := m.families.flatMap Family.lines

end Metrics

end QuorumGateway
