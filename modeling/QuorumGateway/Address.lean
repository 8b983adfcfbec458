import QuorumGateway.Text.Blank
import QuorumGateway.Text.Hex
import QuorumGateway.Json.Decode
/-!
Account addresses: twenty bytes. They are read with or without a `0x` in front, in either letter case and with blanks
around them, and always written with small letters and the `0x`. The written form is the identity of a sender.
-/

namespace QuorumGateway

structure Address where
  bytes : List UInt8
  length_bytes : bytes.length = 20
deriving DecidableEq, Repr

namespace Address

/-- why a text is no address -/
inductive Fault where
  | wrongLength
  | notHex
deriving DecidableEq, Repr

def Fault.reason : Fault → String
  | .wrongLength => "expected 40 hex characters"
  | .notHex => "contains non-hex characters"

def Fault.message (input : String) (fault : Fault) : String :=
  "'" ++ input ++ "' is not a valid hex address: " ++ fault.reason

/-- the characters without one `0x` or `0X` in front -/
def stripMark : List Char → List Char
  | '0' :: 'x' :: rest => rest
  | '0' :: 'X' :: rest => rest
  | cs => cs

def parse (s : String) : Except Fault Address :=
  let digits := String.ofList (stripMark (Text.trimChars s.toList))
  if Text.byteLength digits ≠ 40 then .error .wrongLength
  else
    match Text.Hex.decode digits with
    | .ok bytes => if h : bytes.length = 20 then .ok ⟨bytes, h⟩ else .error .wrongLength
    | .error _ => .error .notHex

def text (a : Address) : String := "0x" ++ Text.Hex.encode a.bytes

/-- the written form with the name of the type, for an operator -/
def debugText (a : Address) : String := "Address(" ++ a.text ++ ")"

def toJson (a : Address) : Json := .string a.text

def read : Decode.Reader Address := fun o d => do
  let s ← Decode.string o d
  match parse s with
  | .ok a => return a
  | .error fault => .error (.refused (fault.message s))

/-- the address made of the last twenty of at least twenty bytes -/
def ofTail (bytes : List UInt8) (h : 20 ≤ bytes.length) : Address :=
  ⟨bytes.drop (bytes.length - 20), by simp; omega⟩

end Address

end QuorumGateway
