import QuorumGateway.Text.Ascii
import QuorumGateway.Text.Quoted
/-!
Hexadecimal text. Bytes are written with small letters and read with letters of either case; reading names the
first cause of a failure: an odd number of digits comes before a character that is no digit.
-/

namespace QuorumGateway.Text.Hex

inductive Fault where
  | oddLength
  | badDigit (byte : UInt8) (index : Nat)
deriving DecidableEq, Repr

/-- the fault in words; a byte is shown as the character with its number -/
def Fault.text : Fault → String
  | .oddLength => "Odd number of digits"
  | .badDigit byte index =>
    "Invalid character " ++ Quoted.char (Char.ofNat byte.toNat) ++ " at position " ++ ofNat index

def digit (n : Nat) : Char := if n < 10 then Char.ofNat (48 + n) else Char.ofNat (87 + n)

/-- the value of a digit of either case, given as its ASCII byte -/
def value? (b : UInt8) : Option UInt8 :=
  if 48 ≤ b ∧ b ≤ 57 then some (b - 48)
  else if 97 ≤ b ∧ b ≤ 102 then some (b - 87)
  else if 65 ≤ b ∧ b ≤ 70 then some (b - 55)
  else none

/-- the two digits of a byte, high half first -/
def byteDigits (b : UInt8) : List Char := [digit (b.toNat / 16), digit (b.toNat % 16)]

def encode (bs : List UInt8) : String := String.ofList (bs.flatMap byteDigits)

/-- pairs of digits as bytes; `index` is the position of the first one in the whole text -/
def decodePairs (index : Nat) : List UInt8 → Except Fault (List UInt8)
  | a :: b :: rest =>
    match value? a, value? b with
    | some x, some y =>
      match decodePairs (index + 2) rest with
      | .ok bs => .ok ((x * 16 + y) :: bs)
      | .error e => .error e
    | none, _ => .error (.badDigit a index)
    | _, none => .error (.badDigit b (index + 1))
  | _ => .ok []

def decode (s : String) : Except Fault (List UInt8) :=
  if (bytes s).length % 2 = 1 then .error .oddLength else decodePairs 0 (bytes s)

end QuorumGateway.Text.Hex
