import QuorumGateway.Text.Ascii
import QuorumGateway.Json.Value
/-!
Numbers as they are spelled in a text, and the value of a spelling. The digits are gathered into a significand for as
long as it stays below `2 ^ 64`; digits that no longer fit count as powers of ten before the point and are dropped after
it. A spelling without point, exponent and dropped digits is a whole number when its value is in range. Any other is the
significand, rounded, times or divided by a rounded power of ten; beyond the range of the format it is no number.
-/

namespace QuorumGateway

open Decimal

/-- the spelling of a number: a sign, digits, digits after a point, and an exponent of ten with its sign -/
structure Lexeme where
  negative : Bool
  whole : List Nat
  fraction : Option (List Nat)
  exponent : Option (Bool × List Nat)
deriving DecidableEq, Repr

namespace Lexeme

/-- digits gathered into a significand, and the number of digits that did not fit -/
def gather (significand : Nat) : List Nat → Nat × Nat
  | [] => (significand, 0)
  | d :: rest =>
    if 10 * significand + d < 2 ^ 64 then gather (10 * significand + d) rest else (significand, rest.length + 1)

def natOf (digits : List Nat) : Nat := digits.foldl (fun n d => 10 * n + d) 0

def power : Option (Bool × List Nat) → Int
  | none => 0
  | some (true, ds) => -(natOf ds : Int)
  | some (false, ds) => natOf ds

def powerOfTen (n : Nat) : Binary64 := Binary64.ofDecimal false 1 n

/-- a number moved by a power of ten, in steps the format can represent; what grows too large is no number -/
def scaled (x : Binary64) (e : Int) : Option Binary64 :=
  if e.natAbs ≤ 308 then
    if 0 ≤ e then
      let y := x.mul (powerOfTen e.natAbs)
      if y.isFinite then some y else none
    else some (x.div (powerOfTen e.natAbs))
  else if x.isZero then some x
  else if h : 0 ≤ e then none
  else scaled (x.div (powerOfTen 308)) (e + 308)
termination_by e.natAbs
decreasing_by omega

def float? (l : Lexeme) : Option Binary64 :=
  let (head, dropped) := gather 0 l.whole
  let digits := l.fraction.getD []
  let (significand, left) := gather head digits
  let places : Int := digits.length - left
  (scaled (Binary64.ofNat significand) (dropped - places + power l.exponent)).map fun x =>
    if l.negative then x.neg else x

def number? (l : Lexeme) : Option Number :=
  match l.fraction, l.exponent, gather 0 l.whole with
  | none, none, (n, 0) =>
    if !l.negative then some (.int n)
    else if 0 < n ∧ n ≤ 2 ^ 63 then some (.int (-n))
    else some (.float (Binary64.ofNat n).neg)
  | _, _, _ => l.float?.map .float

end Lexeme

end QuorumGateway
