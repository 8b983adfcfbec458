import QuorumGateway.Decimal.Binary64
/-!
The shortest decimal that reads back as a given number. A decimal reads back as `m · 2 ^ q` when it lies between the
midpoints to the two neighbours, the midpoints included when `m` is even. Grids of one, two, and more significant
digits are tried in turn; the value's two neighbours on the first grid with a hit decide, the nearer one first, and of
two equally near ones the even one.
-/

namespace QuorumGateway.Decimal

/-- a positive decimal `digits · 10 ^ exponent` -/
structure Digits where
  digits : Nat
  exponent : Int
deriving DecidableEq, Repr

namespace Shortest

/-- the value and its rounding interval, in units of `1 / den`: `low ≤ value ≤ high` around `value / den` -/
structure Interval where
  value : Nat
  low : Nat
  high : Nat
  den : Nat
  closed : Bool
deriving Repr

/-- the interval of reals that round to a finite number other than zero; below a power of two the neighbours lie twice
as close -/
def interval (x : Binary64) : Interval :=
  let m := x.significand
  let up := 2 ^ (x.scale - 1074)
  let closeBelow := x.fractionField = 0 ∧ 1 < x.exponentField
  { value := 4 * m * up
    low := (if closeBelow then 4 * m - 1 else 4 * m - 2) * up
    high := (4 * m + 2) * up
    den := 4 * 2 ^ (1074 - x.scale)
    closed := m % 2 = 0 }

/-- whether `d · 10 ^ e` lies in the interval, with `e` given as a numerator and a denominator -/
def Interval.has (i : Interval) (d num den : Nat) : Bool :=
  let point := d * num * i.den
  if i.closed then i.low * den ≤ point && point ≤ i.high * den
  else i.low * den < point && point < i.high * den

/-- the decimal of the interval nearest to its value on the grid of multiples of `10 ^ exponent`, if there is one -/
def onGrid (i : Interval) (exponent : Int) : Option Digits :=
  let num := 10 ^ exponent.toNat
  let den := 10 ^ (-exponent).toNat
  let unit := num * i.den
  let down := i.value * den / unit
  let rest := i.value * den % unit
  match i.has down num den, i.has (down + 1) num den with
  | true, true =>
    if 2 * rest < unit then some ⟨down, exponent⟩
    else if unit < 2 * rest then some ⟨down + 1, exponent⟩
    else some ⟨down + down % 2, exponent⟩
  | true, false => some ⟨down, exponent⟩
  | false, true => some ⟨down + 1, exponent⟩
  | false, false => none

/-- the position of the leading digit of `num / den`: the greatest `e` with `10 ^ e ≤ num / den`, searched downward
from `top` for at most `steps` positions -/
def leading (num den : Nat) : Nat → Int → Int
  | 0, e => e
  | steps + 1, e =>
    if den * 10 ^ e.toNat ≤ num * 10 ^ (-e).toNat then e else leading num den steps (e - 1)

/-- the first hit on the grids with the leading digit at `top` and `n`, `n + 1`, … digits -/
def search (i : Interval) (top : Int) : Nat → Nat → Option Digits
  | 0, _ => none
  | tries + 1, n =>
    match onGrid i (top - n + 1) with
    | some d => some d
    | none => search i top tries (n + 1)

def strip : Nat → Digits → Digits
  | 0, d => d
  | fuel + 1, d => if d.digits % 10 = 0 ∧ d.digits ≠ 0 then strip fuel ⟨d.digits / 10, d.exponent + 1⟩ else d

end Shortest

/-- the shortest decimal for the magnitude of a finite number other than zero; seventeen digits are always enough -/
def shortest (x : Binary64) : Digits :=
  let i := Shortest.interval x
  let guess : Int := ((x.ratio.1.log2 : Int) - x.ratio.2.log2 + 1) * 30103 / 100000 + 1
  let top := Shortest.leading i.value i.den 4 guess
  match Shortest.search i top 18 1 with
  | some d => Shortest.strip 20 d
  | none => ⟨0, 0⟩

end QuorumGateway.Decimal
