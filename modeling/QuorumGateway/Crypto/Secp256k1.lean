import QuorumGateway.Crypto.Keccak
import QuorumGateway.Crypto.Sha256
import QuorumGateway.Crypto.Signature
/-!
The signature scheme of the curve. The nonce is drawn from the key and the digest by a keyed hash, so a signature is a
function of both. Of the two values that `s` can take the smaller one is used, and signatures with the larger one are
not recovered from.
-/

namespace QuorumGateway.Crypto.Secp256k1

open Curve

structure Key where
  secret : Nat
  secret_inRange : InRange secret
deriving Repr

namespace Key

inductive Fault where
  | hex (fault : Text.Hex.Fault)
  | unusable
deriving DecidableEq, Repr

def Fault.text : Fault → String
  | .hex fault => fault.text
  | .unusable => "signature error"

/-- the key that bytes spell; up to eight leading zero bytes may be left out -/
def ofBytes? (bytes : List UInt8) : Option Key :=
  if 24 ≤ bytes.length ∧ bytes.length ≤ 32 then
    if h : InRange (natOfBytes bytes) then some ⟨natOfBytes bytes, h⟩ else none
  else none

def parse (s : String) : Except Fault Key :=
  match Text.Hex.decode s with
  | .error fault => .error (.hex fault)
  | .ok bytes =>
    match ofBytes? bytes with
    | some key => .ok key
    | none => .error .unusable

end Key

/-- the address of a public key: the last twenty bytes of the hash of its coordinates -/
def addressOf (p : Point) : Address :=
  .ofTail (Keccak.hash (bytes32 p.x ++ bytes32 p.y)) (by rw [Keccak.length_hash]; decide)

def address (key : Key) : Address := addressOf (((multiply key.secret generator.weighted).point?).getD generator)

/-! ## Nonces -/

structure Nonces where
  key : List UInt8
  value : List UInt8
deriving Repr

namespace Nonces

def stir (g : Nonces) (mark : UInt8) (input : List UInt8) : Nonces :=
  let key := Sha256.keyed g.key (g.value ++ mark :: input)
  ⟨key, Sha256.keyed key g.value⟩

def seed (key : Key) (digest : List UInt8) : Nonces :=
  let input := bytes32 key.secret ++ digest
  ((⟨List.replicate 32 0, List.replicate 32 1⟩ : Nonces).stir 0 input).stir 1 input

/-- the next nonce in range, among at most `tries` -/
def draw : Nat → Nonces → Option Nat
  | 0, _ => none
  | tries + 1, g =>
    let value := Sha256.keyed g.key g.value
    if InRange (natOfBytes value) then some (natOfBytes value) else draw tries ((⟨g.key, value⟩ : Nonces).stir 0 [])

end Nonces

/-! ## Signing and recovering -/

/-- the smaller of the two values of `s`, and whether it is not the given one -/
def lowered (s : Nat) : Nat × Bool := if order / 2 < s then (order - s, true) else (s, false)

/-- the hint for a point of a nonce: whether its `y` is odd, and whether its `x` was reduced -/
def hint (odd reduced : Bool) : Fin 4 :=
  match reduced, odd with
  | false, false => 0
  | false, true => 1
  | true, false => 2
  | true, true => 3

def sign (key : Key) (digest : List UInt8) : Option (Signature × Fin 4) := do
  let k ← (Nonces.seed key digest).draw 128
  let p ← (multiply k generator.weighted).point?
  let r := p.x % order
  let s := inverse order k * ((natOfBytes digest + r * key.secret) % order) % order
  let (low, flipped) := lowered s
  if h : InRange r ∧ InRange low then
    some (⟨r, low, h.1, h.2⟩, hint ((p.y % 2 == 1) != flipped) (order ≤ p.x))
  else none

def recover (digest : List UInt8) (σ : Signature) (id : Fin 4) : Option Address := do
  if order / 2 < σ.s then none
  else
    let p ← lift (if 2 ≤ id.val then σ.r + order else σ.r) (id.val % 2 == 1)
    let i := inverse order σ.r
    let u := (order - natOfBytes digest % order * i % order) % order
    let v := i * σ.s % order
    let q ← ((multiply u generator.weighted).add (multiply v p.weighted)).point?
    return addressOf q

def scheme : Scheme := { Key, address, sign, recover }

end QuorumGateway.Crypto.Secp256k1
