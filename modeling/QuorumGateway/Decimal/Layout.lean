import QuorumGateway.Text.Ascii
import QuorumGateway.Decimal.Shortest
/-!
How a shortest decimal is laid out as text. Two layouts are in use. Payloads are written positionally from `1e-5` up to
`1e16`, with `.0` on whole numbers, and with a signed exponent elsewhere. Messages to an operator are always written
positionally and whole numbers have no point.
-/

namespace QuorumGateway.Decimal

/-- the choices of a layout -/
structure Layout where
  /-- whether a decimal whose leading digit stands at this power of ten is written positionally -/
  positional : Int → Bool
  /-- what follows the digits of a whole number -/
  wholeMark : String

def Layout.payload : Layout := ⟨fun top => -5 ≤ top && top < 16, ".0"⟩

/-- the layout of numbers in messages to an operator -/
def Layout.message : Layout := ⟨fun _ => true, ""⟩

namespace Layout

def zeros (n : Nat) : String := String.ofList (List.replicate n '0')

def plain (l : Layout) (d : Digits) : String :=
  let ds := Nat.toDigits 10 d.digits
  if 0 ≤ d.exponent then String.ofList ds ++ zeros d.exponent.toNat ++ l.wholeMark
  else
    let places := (-d.exponent).toNat
    if places < ds.length then
      String.ofList (ds.take (ds.length - places)) ++ "." ++ String.ofList (ds.drop (ds.length - places))
    else "0." ++ zeros (places - ds.length) ++ String.ofList ds

/-- a decimal with one digit before the point and a signed exponent -/
def scientific (d : Digits) : String :=
  let ds := Nat.toDigits 10 d.digits
  let top := d.exponent + ds.length - 1
  let mantissa :=
    match ds with
    | [] => ""
    | [c] => String.ofList [c]
    | c :: rest => String.ofList (c :: '.' :: rest)
  mantissa ++ "e" ++ (if top < 0 then "-" else "+") ++ Text.ofNat top.natAbs

def text (l : Layout) (x : Binary64) : String :=
  if x.isNaN then "NaN"
  else
    let sign := if x.negative then "-" else ""
    if !x.isFinite then sign ++ "inf"
    else if x.isZero then sign ++ "0" ++ l.wholeMark
    else
      let d := shortest x
      let top := d.exponent + (Nat.toDigits 10 d.digits).length - 1
      sign ++ (if l.positional top then l.plain d else scientific d)

end Layout

end QuorumGateway.Decimal
