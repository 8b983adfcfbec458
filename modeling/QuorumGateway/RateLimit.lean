import QuorumGateway.Config.Check
/-!
How many requests are admitted. There is one budget for all callers and one for each caller; a request needs a token of
both, and a token of the common budget that was taken before the caller's own one is refused is not given back. A budget
refills at one token per period up to its burst. It is kept as a single instant: the one at which it will be full again.
-/

namespace QuorumGateway

open Decimal

namespace RateLimit

/-- one token every `period` nanoseconds, and `burst` at most -/
structure Quota where
  period : Nat
  burst : Nat
  period_pos : 0 < period
  burst_pos : 0 < burst
deriving DecidableEq, Repr

namespace Quota

/-- the period of a rate in whole nanoseconds: the reciprocal, rounded to a number of the format, times a thousand
million, rounded to the nearest; nothing for a period of `2 ^ 64` seconds or more -/
def period? (rps : Binary64) : Option Nat :=
  let seconds := (Binary64.ofNat 1).div rps
  if !seconds.isFinite then none
  else
    let (num, den) := seconds.ratio
    if 2 ^ 64 * den ≤ num then none else some (roundDiv (num * 1000000000) den)

def of? (rps : Binary64) (burst : Nat) : Option Quota :=
  match period? rps with
  | none => none
  | some period => if h : 0 < period ∧ 0 < burst then some ⟨period, burst, h.1, h.2⟩ else none

/-- one token taken at an instant from a budget that will be full at `full`: the new instant, unless less than a whole
token is left -/
def take? (q : Quota) (full now : Nat) : Option Nat :=
  if now + q.period * (q.burst - 1) < full then none else some (max full now + q.period)

end Quota

def unrepresentable (name : String) (rps : Binary64) : Problem :=
  .invalid ("rateLimiterConfig." ++ name ++ " of " ++ Layout.message.text rps ++ " cannot be represented")
    ("Set rateLimiterConfig." ++ name ++ " to a positive, finite rate")

/-- the budgets: the quotas, and the instants at which the common one and those of the callers so far will be full -/
structure Limiter where
  globalQuota : Quota
  userQuota : Quota
  global : Nat
  users : List (String × Nat)
deriving Repr

namespace Limiter

def quota (name : String) (rps : Binary64) (burst : Nat) : Except Problem Quota :=
  match Quota.of? rps burst with
  | some q => .ok q
  | none => .error (unrepresentable name rps)

/-- full budgets for the given settings. Once both rates have periods this is taken to succeed: instants and spans are
numbers without a bound here, where a limiter that keeps them as nanoseconds in 64 bits needs the period, and the period
times the burst, to be below `2 ^ 64`. -/
def ofSettings (s : RateSettings) : Except Problem Limiter := do
  s.check
  let globalQuota ← quota "globalRPS" s.globalRps s.globalBurst
  let userQuota ← quota "perUserRPS" s.perUserRps s.perUserBurst
  return ⟨globalQuota, userQuota, 0, []⟩

/-- the instant at which the budget of a caller will be full; a new caller's is -/
def fullAt (user : String) : List (String × Nat) → Nat
  | [] => 0
  | (u, full) :: rest => if u = user then full else fullAt user rest

def put (user : String) (full : Nat) : List (String × Nat) → List (String × Nat)
  | [] => [(user, full)]
  | (u, f) :: rest => if u = user then (u, full) :: rest else (u, f) :: put user full rest

/-- a request of a caller at an instant: whether it is admitted, and the budgets after it -/
def allow (l : Limiter) (user : String) (now : Nat) : Bool × Limiter :=
  match l.globalQuota.take? l.global now with
  | none => (false, l)
  | some global =>
    match l.userQuota.take? (fullAt user l.users) now with
    | none => (false, { l with global })
    | some full => (true, { l with global, users := put user full l.users })

def trackedCallers (l : Limiter) : Nat := l.users.length

end Limiter

end RateLimit

end QuorumGateway
