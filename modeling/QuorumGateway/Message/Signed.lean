import QuorumGateway.Message.Basic
import QuorumGateway.Crypto.Keccak
import QuorumGateway.Crypto.Signature
/-!
Signed messages. The fields of a body are laid out at fixed widths, with the payload in its compact form behind them and
a null payload as nothing; what is hashed and signed is a fixed mark, the length of that layout in decimal digits, and
the layout. A signature is written as the hexadecimal digits of its sixty-four bytes and of the hint plus 27. A message
is accepted when the address recovered from its signature is the declared sender.
-/

namespace QuorumGateway

namespace Body

/-- the width of a message id in bytes -/
def idWidth : Nat := 128

def methodWidth : Nat := 64

def donIdWidth : Nat := 64

/-- a field at a fixed width: what is too long is cut off, what is missing is filled with zeros -/
def padded (width : Nat) (field : String) : List UInt8 :=
  let kept := (Text.bytes field).take width
  kept ++ List.replicate (width - kept.length) 0

/-- the payload as it is laid out -/
def payloadBytes (b : Body) : List UInt8 := if b.payload.isNull then [] else b.payload.encoding

def rawBytes (b : Body) : List UInt8 :=
  padded idWidth b.messageId ++ padded methodWidth b.method ++ padded donIdWidth b.donId ++ b.payloadBytes

/-- the mark in front of what is signed -/
def signingMark : String := "\x19Ethereum Signed Message:\n"

/-- the bytes that are hashed and signed -/
def signingBytes (b : Body) : List UInt8 :=
  Text.bytes signingMark ++ Text.bytes (Text.ofNat b.rawBytes.length) ++ b.rawBytes

def digest (b : Body) : List UInt8 := Crypto.Keccak.hash b.signingBytes

end Body

namespace Message

open Crypto

/-! ## Signing -/

def signatureText (σ : Signature) (hint : Fin 4) : String :=
  "0x" ++ Text.Hex.encode (σ.toBytes ++ [UInt8.ofNat (hint.val + 27)])

/-- the message signed with a key, which also makes the key's address its sender; nothing if the scheme fails -/
def sign (S : Scheme) (key : S.Key) (m : Message) : Option Message :=
  (S.sign key m.body.digest).map fun (σ, hint) =>
    ⟨{ m.body with sender := (S.address key).text }, signatureText σ hint⟩

/-! ## Checking -/

inductive Objection where
  | emptyId
  | longId
  | emptyMethod
  | longMethod
  | longDonId
  | emptySender
  | badSender (input : String) (fault : Address.Fault)
  | notHex (fault : Text.Hex.Fault)
  | signatureLength (length : Nat)
  | malformedSignature
  | badHint (byte : Nat)
  | notRecovered
  | foreignSigner (signer declared : Address)
deriving DecidableEq, Repr

def Objection.text : Objection → String
  | .emptyId => "empty message id"
  | .longId => "message id exceeds " ++ Text.ofNat Body.idWidth ++ " bytes"
  | .emptyMethod => "empty method"
  | .longMethod => "method exceeds " ++ Text.ofNat Body.methodWidth ++ " bytes"
  | .longDonId => "DON id exceeds " ++ Text.ofNat Body.donIdWidth ++ " bytes"
  | .emptySender => "empty sender"
  | .badSender input fault => fault.message input
  | .notHex fault => "malformed signature: " ++ fault.text
  | .signatureLength length => "signature must be 65 bytes, got " ++ Text.ofNat length
  | .malformedSignature => "malformed signature: signature error"
  | .badHint byte => "invalid recovery id " ++ Text.ofNat byte
  | .notRecovered => "signature recovery failed: signature error"
  | .foreignSigner signer declared => "signer " ++ signer.text ++ " does not match sender " ++ declared.text

/-- the checks of the fields, which need no cryptography -/
def checkFields (m : Message) : Except Objection Unit :=
  let b := m.body
  if Text.byteLength b.messageId = 0 then .error .emptyId
  else if Body.idWidth < Text.byteLength b.messageId then .error .longId
  else if Text.byteLength b.method = 0 then .error .emptyMethod
  else if Body.methodWidth < Text.byteLength b.method then .error .longMethod
  else if Body.donIdWidth < Text.byteLength b.donId then .error .longDonId
  else if Text.byteLength b.sender = 0 then .error .emptySender
  else .ok ()

def declaredSender (m : Message) : Except Objection Address :=
  match Address.parse m.body.sender with
  | .ok a => .ok a
  | .error fault => .error (.badSender m.body.sender fault)

/-- the digits of a signature, without one `0x` in front -/
def signatureDigits (s : String) : String :=
  match s.toList with
  | '0' :: 'x' :: rest => String.ofList rest
  | _ => s

/-- the hint that the last byte of a signature spells, with or without 27 added to it -/
def hintOf? (byte : Nat) : Option (Fin 4) :=
  let n := if 27 ≤ byte then byte - 27 else byte
  if h : n < 4 then some ⟨n, h⟩ else none

def readSignature (m : Message) : Except Objection (Signature × Fin 4) :=
  match Text.Hex.decode (signatureDigits m.signature) with
  | .error fault => .error (.notHex fault)
  | .ok raw =>
    if raw.length ≠ 65 then .error (.signatureLength raw.length)
    else
      match Signature.ofBytes? (raw.take 64) with
      | none => .error .malformedSignature
      | some σ =>
        let byte := (raw.getD 64 0).toNat
        match hintOf? byte with
        | none => .error (.badHint byte)
        | some hint => .ok (σ, hint)

def recoverSigner (S : Scheme) (m : Message) : Except Objection Address :=
  match m.readSignature with
  | .error o => .error o
  | .ok (σ, hint) =>
    match S.recover m.body.digest σ hint with
    | none => .error .notRecovered
    | some a => .ok a

/-- the check that the declared sender signed the message -/
def checkSignature (S : Scheme) (m : Message) : Except Objection Unit := do
  let declared ← m.declaredSender
  let signer ← m.recoverSigner S
  if signer ≠ declared then .error (.foreignSigner signer declared) else .ok ()

def check (S : Scheme) (m : Message) : Except Objection Unit := do
  m.checkFields
  m.checkSignature S

end Message

end QuorumGateway
