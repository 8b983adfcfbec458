import QuorumGateway.ErrorCode
import QuorumGateway.Message.Basic
/-!
The one value that a waiting caller receives: the response the nodes agreed on, or a code and a text that say why there
is none.
-/

namespace QuorumGateway

/-- what a waiting caller receives -/
structure Reply where
  message : Option Message
  code : ErrorCode
  reason : String
deriving Repr

namespace Reply

/-- the nodes agreed on a response -/
def success (m : Message) : Reply := ⟨some m, .noError, ""⟩

def failure (code : ErrorCode) (reason : String) : Reply := ⟨none, code, reason⟩

def isSuccess (r : Reply) : Bool := r.code == .noError

/-- whether a reply is what `success` or `failure` makes of its parts -/
def isCanonical (r : Reply) : Bool := r.message.isNone || (r.isSuccess && r.reason == "")

def record : Decode.Record Reply where
  title := "UserCallbackPayload"
  blank := ⟨none, .noError, ""⟩
  fields :=
    [.of "msg" .fromObject (Decode.optional Message.read) fun r v => { r with message := v },
     .of "err_code" .refused ErrorCode.read fun r v => { r with code := v },
     .of "err_msg" .refused Decode.string fun r v => { r with reason := v }]

def read : Decode.Reader Reply := record.read

def toJson (r : Reply) : Json :=
  .object
    [("msg", match r.message with | none => .null | some m => m.toJson), ("err_code", .string r.code.text),
     ("err_msg", .string r.reason)]

def text (r : Reply) : String := r.toJson.compact

def ofText (s : String) : Except DecodeError Reply := Decode.ofText read s

end Reply

end QuorumGateway
