import QuorumGateway.Crypto.Secp256k1
import QuorumGateway.Text.Pieces
/-!
What a run takes from random bytes where the command line leaves it open: the id of the message, and the key to sign
with.
-/

namespace QuorumGateway.Harness

/-- what stands in for what the command line leaves open; random bytes may be no key -/
structure Chance where
  messageId : String
  key : Option Crypto.Secp256k1.Key

namespace Chance

/-- the bytes of a random id: two of them are marked with the kind of id and its layout -/
def mark (bytes : List UInt8) : List UInt8 :=
  bytes.mapIdx fun i b =>
    if i = 6 then b % 16 + 64 else if i = 8 then b % 64 + 128 else b

/-- an id in hexadecimal digits, in groups of four, two, two, two and six bytes -/
def idText (bytes : List UInt8) : String :=
  Text.join "-" <| [(0, 4), (4, 2), (6, 2), (8, 2), (10, 6)].map fun (start, count) =>
    Text.Hex.encode ((bytes.drop start).take count)

def size : Nat := 48

/-- an id of sixteen bytes and a key of thirty-two -/
def ofBytes (bytes : List UInt8) : Chance :=
  ⟨idText (mark (bytes.take 16)), Crypto.Secp256k1.Key.ofBytes? ((bytes.drop 16).take 32)⟩

end Chance

end QuorumGateway.Harness
