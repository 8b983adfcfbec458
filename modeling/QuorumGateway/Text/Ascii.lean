import QuorumGateway.Naturals
/-!
ASCII letter case and ASCII digits. Node addresses and senders are compared without regard to the case of ASCII letters;
letters outside ASCII are left as they are, so 'É' and 'é' stay different names.
-/

namespace QuorumGateway.Text

/-- the text with its ASCII capitals turned into small letters -/
def lower (s : String) : String := String.ofList (s.toList.map Char.toLower)

/-- equality up to the case of ASCII letters -/
def sameIgnoringCase (a b : String) : Bool := lower a == lower b

theorem sameIgnoringCase_iff {a b : String} : sameIgnoringCase a b = true ↔ lower a = lower b := by
  simp [sameIgnoringCase]

def bytes (s : String) : List UInt8 := s.toUTF8.toList

def byteLength (s : String) : Nat := s.utf8ByteSize

/-- the value of an ASCII decimal digit -/
def digit? (c : Char) : Option Nat :=
  if '0' ≤ c ∧ c ≤ '9' then some (c.toNat - '0'.toNat) else none

def ofNat (n : Nat) : String := String.ofList (Nat.toDigits 10 n)

def ofInt : Int → String
  | .ofNat n => ofNat n
  | .negSucc n => "-" ++ ofNat (n + 1)

end QuorumGateway.Text
