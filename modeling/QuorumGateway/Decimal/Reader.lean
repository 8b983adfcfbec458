import QuorumGateway.Text.Ascii
import QuorumGateway.Decimal.Binary64
/-!
Reading numbers that an operator wrote: whole numbers with an optional sign, and decimals with an optional point and
exponent, rounded once to the nearest number of the format. The words for infinity and for what is not a number are
read in any letter case.
-/

namespace QuorumGateway.Decimal

/-- the digits at the front of a text with the value they continue, and what follows them -/
def takeDigits (value : Nat) : List Char → Nat × Nat × List Char
  | [] => (value, 0, [])
  | c :: rest =>
    match Text.digit? c with
    | some d => let (v, n, r) := takeDigits (10 * value + d) rest; (v, n + 1, r)
    | none => (value, 0, c :: rest)

def takeSign : List Char → Bool × List Char
  | '-' :: rest => (true, rest)
  | '+' :: rest => (false, rest)
  | cs => (false, cs)

def digits? (cs : List Char) : Option Nat :=
  match takeDigits 0 cs with
  | (v, n, []) => if 0 < n then some v else none
  | _ => none

/-- a whole number of the signed 64-bit range -/
def int? (s : String) : Option Int :=
  let (negative, cs) := takeSign s.toList
  match digits? cs with
  | some n => if negative then (if n ≤ 2 ^ 63 then some (-n) else none) else (if n < 2 ^ 63 then some n else none)
  | none => none

/-- a whole number of the unsigned 64-bit range; a plus sign is let pass -/
def word? (s : String) : Option Nat :=
  let cs := match s.toList with
    | '+' :: rest => rest
    | cs => cs
  match digits? cs with
  | some n => if n < 2 ^ 64 then some n else none
  | none => none

/-- an exponent of ten: nothing, or `e` with an optional sign and digits -/
def exponent? : List Char → Option Int
  | [] => some 0
  | c :: rest =>
    if c = 'e' ∨ c = 'E' then
      let (negative, cs) := takeSign rest
      (digits? cs).map fun n => if negative then -(n : Int) else n
    else none

/-- an exponent far outside the format's range stands for one that is just outside, whatever the digits are -/
def clampExponent (digitCount : Nat) (e : Int) : Int :=
  let bound : Int := 2000 + digitCount
  if e < -bound then -bound else if bound < e then bound else e

/-- a decimal with a point anywhere among its digits and an optional exponent -/
def decimal? (negative : Bool) (cs : List Char) : Option Binary64 :=
  let (whole, before, rest) := takeDigits 0 cs
  let (all, after, rest) := match rest with
    | '.' :: rest => takeDigits whole rest
    | rest => (whole, 0, rest)
  if before + after = 0 then none
  else (exponent? rest).map fun e =>
    Binary64.ofDecimal negative all (clampExponent (before + after) (e - after))

def float? (s : String) : Option Binary64 :=
  let (negative, cs) := takeSign s.toList
  let word := Text.lower (String.ofList cs)
  if word = "inf" ∨ word = "infinity" then some (Binary64.infinity negative)
  else if word = "nan" then some (if negative then Binary64.neg Binary64.nan else Binary64.nan)
  else decimal? negative cs

end QuorumGateway.Decimal
