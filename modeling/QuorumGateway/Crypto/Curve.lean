import QuorumGateway.Text.Ascii
/-!
The curve `y² = x³ + 7` over the field of integers modulo a prime, with its generator and the prime order of the group
it spans. Points are added in coordinates with a common denominator, so that a single inversion is needed at the end.
-/

namespace QuorumGateway.Crypto.Curve

def fieldSize : Nat := 0xFFFFFFFFFFFFFFFFFFFFFFFFFFFFFFFFFFFFFFFFFFFFFFFFFFFFFFFEFFFFFC2F

def order : Nat := 0xFFFFFFFFFFFFFFFFFFFFFFFFFFFFFFFEBAAEDCE6AF48A03BBFD25E8CD0364141

/-- the power `base ^ exponent` modulo `modulus`, by squaring -/
def powMod (modulus base exponent : Nat) : Nat :=
  if h : exponent = 0 then 1 % modulus
  else
    let half := powMod modulus (base * base % modulus) (exponent / 2)
    if exponent % 2 = 1 then base * half % modulus else half
termination_by exponent
decreasing_by omega

/-- the inverse of a number modulo a prime -/
def inverse (modulus n : Nat) : Nat := powMod modulus n (modulus - 2)

def sub (a b : Nat) : Nat := (a + (fieldSize - b)) % fieldSize

def mul (a b : Nat) : Nat := a * b % fieldSize

/-- a point other than the neutral one -/
structure Point where
  x : Nat
  y : Nat
deriving DecidableEq, Repr

/-- a point as `x / z²`, `y / z³`; the neutral one has `z = 0` -/
structure Weighted where
  x : Nat
  y : Nat
  z : Nat
deriving Repr

def neutral : Weighted := ⟨1, 1, 0⟩

def Point.weighted (p : Point) : Weighted := ⟨p.x, p.y, 1⟩

def Weighted.point? (p : Weighted) : Option Point :=
  if p.z = 0 then none
  else
    let i := inverse fieldSize p.z
    let i2 := mul i i
    some ⟨mul p.x i2, mul p.y (mul i2 i)⟩

def Weighted.double (p : Weighted) : Weighted :=
  if p.z = 0 ∨ p.y = 0 then neutral
  else
    let a := mul p.y p.y
    let b := mul 4 (mul p.x a)
    let c := mul 8 (mul a a)
    let d := mul 3 (mul p.x p.x)
    let x := sub (mul d d) (mul 2 b)
    ⟨x, sub (mul d (sub b x)) c, mul 2 (mul p.y p.z)⟩

def Weighted.add (p q : Weighted) : Weighted :=
  if p.z = 0 then q
  else if q.z = 0 then p
  else
    let pz := mul p.z p.z
    let qz := mul q.z q.z
    let u := mul p.x qz
    let v := mul q.x pz
    let s := mul p.y (mul qz q.z)
    let t := mul q.y (mul pz p.z)
    if u = v then if s = t then p.double else neutral
    else
      let h := sub v u
      let r := sub t s
      let h2 := mul h h
      let h3 := mul h2 h
      let w := mul u h2
      let x := sub (sub (mul r r) h3) (mul 2 w)
      ⟨x, sub (mul r (sub w x)) (mul s h3), mul h (mul p.z q.z)⟩

def multiply (n : Nat) (p : Weighted) : Weighted :=
  if h : n = 0 then neutral
  else
    let half := multiply (n / 2) p.double
    if n % 2 = 1 then p.add half else half
termination_by n
decreasing_by omega

def generator : Point :=
  ⟨0x79BE667EF9DCBBAC55A06295CE870B07029BFCDB2DCE28D959F2815B16F81798,
   0x483ADA7726A3C4655DA4FBFC0E1108A8FD17B448A68554199C47D08FFB10D4B8⟩

/-- the point with a given `x` whose `y` is odd or even as asked, if the curve has one -/
def lift (x : Nat) (odd : Bool) : Option Point :=
  if fieldSize ≤ x then none
  else
    let square := (mul (mul x x) x + 7) % fieldSize
    let root := powMod fieldSize square ((fieldSize + 1) / 4)
    if mul root root ≠ square then none
    else some ⟨x, if (root % 2 == 1) == odd then root else (fieldSize - root) % fieldSize⟩

end QuorumGateway.Crypto.Curve
