import QuorumGateway.Address
import QuorumGateway.Crypto.Curve
/-!
Signatures from which the signer can be told. A signature is a pair of numbers between zero and the order of the group;
with it goes a hint of two bits that picks one of the up to four keys that fit. A scheme says how keys sign digests and
how the signer is recovered; what is built on signatures holds for every scheme whose recovery gives the signer back.
-/

namespace QuorumGateway.Crypto

/-- a number in thirty-two bytes, the highest first -/
def bytes32 (n : Nat) : List UInt8 := (List.range 32).reverse.map fun i => UInt8.ofNat (n / 256 ^ i)

/-- the number that bytes spell, the highest first -/
def natOfBytes (bytes : List UInt8) : Nat := bytes.foldl (fun n b => 256 * n + b.toNat) 0

/-- a number that is neither zero nor as large as the order of the group -/
def InRange (n : Nat) : Prop := 0 < n ∧ n < Curve.order

instance (n : Nat) : Decidable (InRange n) := inferInstanceAs (Decidable (_ ∧ _))

structure Signature where
  r : Nat
  s : Nat
  r_inRange : InRange r
  s_inRange : InRange s
deriving DecidableEq, Repr

namespace Signature

def toBytes (σ : Signature) : List UInt8 := bytes32 σ.r ++ bytes32 σ.s

def ofBytes? (bytes : List UInt8) : Option Signature :=
  let r := natOfBytes (bytes.take 32)
  let s := natOfBytes (bytes.drop 32)
  if h : InRange r ∧ InRange s then some ⟨r, s, h.1, h.2⟩ else none

end Signature

/-- a way to sign digests: the address a key stands for, the signature of a digest with its hint, and the address that
a signature and a hint point to -/
structure Scheme where
  Key : Type
  address : Key → Address
  sign : Key → List UInt8 → Option (Signature × Fin 4)
  recover : List UInt8 → Signature → Fin 4 → Option Address

end QuorumGateway.Crypto
