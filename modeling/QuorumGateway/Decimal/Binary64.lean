import QuorumGateway.Naturals
/-!
Numbers in the 64-bit binary format: a sign, eleven bits of exponent and fifty-two bits of fraction. Every finite one
is `±m · 2 ^ q` for a significand `m` below `2 ^ 53`, and all rounding is done on that exact value: a quotient of
natural numbers goes to the nearest number of the format, and a tie to the one with an even significand.
-/

namespace QuorumGateway.Decimal

/-- a number of the 64-bit binary format, as its bits -/
structure Binary64 where
  bits : UInt64
deriving DecidableEq, Repr

/-- the quotient rounded to the nearest natural number, a tie to the even one -/
def roundDiv (num den : Nat) : Nat :=
  let down := num / den
  let rest := num % den
  if 2 * rest < den then down
  else if den < 2 * rest then down + 1
  else down + down % 2

namespace Binary64

/-! ## Parts -/

/-- whether the sign bit is set -/
def negative (x : Binary64) : Bool := x.bits.toNat / 2 ^ 63 == 1

def exponentField (x : Binary64) : Nat := x.bits.toNat / 2 ^ 52 % 2 ^ 11

def fractionField (x : Binary64) : Nat := x.bits.toNat % 2 ^ 52

/-- neither infinite nor undefined -/
def isFinite (x : Binary64) : Bool := x.exponentField != 2047

def isNaN (x : Binary64) : Bool := x.exponentField == 2047 && x.fractionField != 0

/-- zero of either sign -/
def isZero (x : Binary64) : Bool := x.exponentField == 0 && x.fractionField == 0

/-- greater than zero, infinity included -/
def isPositive (x : Binary64) : Bool := !x.negative && !x.isZero && !x.isNaN

def significand (x : Binary64) : Nat :=
  if x.exponentField = 0 then x.fractionField else 2 ^ 52 + x.fractionField

/-- the sum `q + 1074` for the exponent `q` of a finite number -/
def scale (x : Binary64) : Nat := x.exponentField - 1

/-- the magnitude of a finite number as a quotient of natural numbers -/
def ratio (x : Binary64) : Nat × Nat :=
  if 1074 ≤ x.scale then (x.significand * 2 ^ (x.scale - 1074), 1) else (x.significand, 2 ^ (1074 - x.scale))

/-! ## Rounding -/

/-- the number with a sign and the bits of a magnitude -/
def ofMagnitude (negative : Bool) (magnitude : Nat) : Binary64 :=
  ⟨UInt64.ofNat ((if negative then 2 ^ 63 else 0) + magnitude)⟩

def infiniteMagnitude : Nat := 2047 * 2 ^ 52

def infinity (negative : Bool) : Binary64 := ofMagnitude negative infiniteMagnitude

def nan : Binary64 := ofMagnitude false (infiniteMagnitude + 2 ^ 51)

/-- the greatest `e` with `2 ^ e ≤ num / den`, moved up by `2000`, for a quotient that is not zero -/
def exponentOf (num den : Nat) : Nat :=
  let guess := num.log2 + 2000 - den.log2
  if den * 2 ^ (guess - 2000) ≤ num * 2 ^ (2000 - guess) then guess else guess - 1

/-- the scale of the numbers of the format around a quotient: the distance of neighbours there is
`2 ^ (scale - 1074)` -/
def scaleOf (num den : Nat) : Nat := exponentOf num den - 978

/-- the bits of the magnitude nearest to a quotient: a carry out of the significand moves on to the next exponent by
itself, and what is too large becomes infinite -/
def magnitudeOf (num den : Nat) : Nat :=
  if num = 0 then 0
  else
    let s := scaleOf num den
    let m := if 1074 ≤ s then roundDiv num (den * 2 ^ (s - 1074)) else roundDiv (num * 2 ^ (1074 - s)) den
    min (s * 2 ^ 52 + m) infiniteMagnitude

/-- the number nearest to `± num / den` -/
def ofRatio (negative : Bool) (num den : Nat) : Binary64 := ofMagnitude negative (magnitudeOf num den)

def ofNat (n : Nat) : Binary64 := ofRatio false n 1

def ofInt (n : Int) : Binary64 := ofRatio (n < 0) n.natAbs 1

/-- the number nearest to `± digits · 10 ^ exponent` -/
def ofDecimal (negative : Bool) (digits : Nat) (exponent : Int) : Binary64 :=
  if 0 ≤ exponent then ofRatio negative (digits * 10 ^ exponent.toNat) 1
  else ofRatio negative digits (10 ^ (-exponent).toNat)

def mul (x y : Binary64) : Binary64 :=
  ofRatio (x.negative != y.negative) (x.ratio.1 * y.ratio.1) (x.ratio.2 * y.ratio.2)

/-- the quotient of two finite numbers, rounded; the divisor is not zero -/
def div (x y : Binary64) : Binary64 :=
  ofRatio (x.negative != y.negative) (x.ratio.1 * y.ratio.2) (x.ratio.2 * y.ratio.1)

def neg (x : Binary64) : Binary64 := ofMagnitude (!x.negative) (x.bits.toNat % 2 ^ 63)

/-- a number as a natural number of the 64-bit range: rounded to the nearest, a half away from zero, and held at the
ends of the range; what is not a number gives zero -/
def toWord (x : Binary64) : Nat :=
  if x.isNaN || x.negative then 0
  else if x.isFinite then min ((2 * x.ratio.1 + x.ratio.2) / (2 * x.ratio.2)) (2 ^ 64 - 1)
  else 2 ^ 64 - 1

end Binary64

end QuorumGateway.Decimal
