import QuorumGateway.Text.Ascii
/-!
Time. Instants and spans are counted in nanoseconds on one clock that starts at zero. Timers are kept in whole
milliseconds: a timer set for an instant between two milliseconds fires at the later one. A repeating timer fires for
the first time at once and then every period; when it is noticed more than five milliseconds late it counts the next
period from the late moment, so that missed turns are never made up for.
-/

namespace QuorumGateway.Time

def perMilli : Nat := 1000000

def perSecond : Nat := 1000000000

def millis (n : Nat) : Nat := perMilli * n

def seconds (n : Nat) : Nat := perSecond * n

/-- the first whole millisecond at or after an instant -/
def wake (instant : Nat) : Nat := perMilli * ((perMilli - 1 + instant) / perMilli)

/-! ## Spans in words -/

/-- the digits of `part` out of `unit = 10 ^ places`, without trailing zeros, after a point when any are left -/
def fraction (places part : Nat) : List Char :=
  let digits := Nat.toDigits 10 part
  let padded := List.replicate (places - digits.length) '0' ++ digits
  match (padded.reverse.dropWhile (· = '0')).reverse with
  | [] => []
  | kept => '.' :: kept

/-- a count of units and a decimal part of one, with the name of the unit -/
def inUnit (span places : Nat) (unit : String) : String :=
  let size := 10 ^ places
  Text.ofNat (span / size) ++ String.ofList (if places = 0 then [] else fraction places (span % size)) ++ unit

/-- a span in the largest of the units s, ms, µs and ns that it fills, with no more decimals than it needs -/
def text (span : Nat) : String :=
  if perSecond ≤ span then inUnit span 9 "s"
  else if perMilli ≤ span then inUnit span 6 "ms"
  else if 1000 ≤ span then inUnit span 3 "µs"
  else inUnit span 0 "ns"

/-! ## Repeating timers -/

/-- a repeating timer: its period and the instant its next turn is due -/
structure Ticker where
  period : Nat
  due : Nat
  period_pos : 0 < period
deriving Repr

namespace Ticker

/-- a timer whose first turn is due now; a period of nothing counts as one nanosecond -/
def start (now period : Nat) : Ticker :=
  { period := max 1 period, due := now, period_pos := Nat.le_max_left 1 period }

/-- the instant at which the next turn is taken -/
def wake (t : Ticker) : Nat := Time.wake t.due

/-- lateness that is let pass before a turn counts as missed -/
def slack : Nat := millis 5

def advance (t : Ticker) (now : Nat) : Ticker :=
  { t with due := if slack + t.due < now then now + t.period else t.due + t.period }

theorem due_lt_due_advance (t : Ticker) (now : Nat) : t.due < (t.advance now).due := by
  have hp := t.period_pos
  by_cases h : slack + t.due < now
  · have hd : (t.advance now).due = now + t.period := if_pos h
    rw [hd]
    exact Nat.lt_of_le_of_lt (Nat.le_of_lt (Nat.lt_of_le_of_lt (Nat.le_add_left _ _) h)) (Nat.lt_add_of_pos_right hp)
  · have hd : (t.advance now).due = t.due + t.period := if_neg h
    rw [hd]
    exact Nat.lt_add_of_pos_right hp

end Ticker

end QuorumGateway.Time
