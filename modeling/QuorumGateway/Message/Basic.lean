import QuorumGateway.Json.Decode
/-!
Messages between users, the gateway and the nodes of a network: a body that is signed and a signature that can be taken
off. The written form has the fields in their order here; when it is read, the don id, the sender, the payload and the
signature may be left out.
-/

namespace QuorumGateway

/-- the signed part of a message -/
structure Body where
  messageId : String
  method : String
  donId : String
  sender : String
  payload : Json
deriving Repr, Inhabited

/-- a message with its signature, which is empty while there is none -/
structure Message where
  body : Body
  signature : String
deriving Repr, Inhabited

namespace Body

def blank : Body := ⟨"", "", "", "", .null⟩

def record : Decode.Record Body where
  title := "MessageBody"
  blank := blank
  fields :=
    [.of "message_id" .refused Decode.string fun b v => { b with messageId := v },
     .of "method" .refused Decode.string fun b v => { b with method := v },
     .of "don_id" .accepted Decode.string fun b v => { b with donId := v },
     .of "sender" .accepted Decode.string fun b v => { b with sender := v },
     .of "payload" .accepted Decode.json fun b v => { b with payload := v }]

def read : Decode.Reader Body := record.read

def toJson (b : Body) : Json :=
  .object
    [("message_id", .string b.messageId), ("method", .string b.method), ("don_id", .string b.donId),
     ("sender", .string b.sender), ("payload", b.payload)]

end Body

namespace Message

/-- a message without sender and signature -/
def unsigned (messageId method donId : String) (payload : Json) : Message :=
  ⟨⟨messageId, method, donId, "", payload⟩, ""⟩

def record : Decode.Record Message where
  title := "Message"
  blank := ⟨Body.blank, ""⟩
  fields :=
    [.of "body" .refused Body.read fun m v => { m with body := v },
     .of "signature" .accepted Decode.string fun m v => { m with signature := v }]

def read : Decode.Reader Message := record.read

def toJson (m : Message) : Json := .object [("body", m.body.toJson), ("signature", .string m.signature)]

def ofText (s : String) : Except DecodeError Message := Decode.ofText read s

def text (m : Message) : String := m.toJson.compact

end Message

end QuorumGateway
