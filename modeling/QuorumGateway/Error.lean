import QuorumGateway.ErrorCode
import QuorumGateway.Config.Problem
import QuorumGateway.Message.Signed
/-!
Errors that a call on the gateway answers at once: the wording, the outcome code a caller is shown, whether trying again
later can help, and the label under which rejections are counted.
-/

namespace QuorumGateway

/-- which limit on open requests is reached -/
inductive Scope where
  | global
  | perSender
deriving DecidableEq, Repr

def Scope.text : Scope → String
  | .global => "global"
  | .perSender => "per-user"

inductive GatewayError where
  | invalidMessage (reason : String)
  | unsupportedMethod (method : String)
  | unsupportedDonId (expected got : String)
  | notAllowlisted (sender : String)
  | rateLimited (sender : String)
  | duplicateRequest (sender messageId : String)
  | tooManyPending (scope : Scope) (limit : Nat)
  | insufficientNodes (failed total : Nat)
  | signing (reason : String)
  | lifecycle (reason : String)
  | config (problem : Problem)
deriving Repr, Inhabited

namespace GatewayError

def ofObjection (o : Message.Objection) : GatewayError := .invalidMessage o.text

def kind : GatewayError → String
  | .invalidMessage _ => "InvalidMessage"
  | .unsupportedMethod _ => "UnsupportedMethod"
  | .unsupportedDonId _ _ => "UnsupportedDonId"
  | .notAllowlisted _ => "NotAllowlisted"
  | .rateLimited _ => "RateLimited"
  | .duplicateRequest _ _ => "DuplicateRequest"
  | .tooManyPending _ _ => "TooManyPendingRequests"
  | .insufficientNodes _ _ => "InsufficientNodes"
  | .signing _ => "Signing"
  | .lifecycle _ => "Lifecycle"
  | .config _ => "Config"

def text : GatewayError → String
  | .invalidMessage reason => "invalid message: " ++ reason
  | .unsupportedMethod method => "unsupported method: " ++ method
  | .unsupportedDonId expected got => "unsupported DON id '" ++ got ++ "', this handler serves '" ++ expected ++ "'"
  | .notAllowlisted sender => "sender not allowlisted: " ++ sender
  | .rateLimited sender => "rate-limited: " ++ sender
  | .duplicateRequest sender messageId => "duplicate request '" ++ messageId ++ "' from " ++ sender
  | .tooManyPending scope limit =>
    "too many pending requests (" ++ scope.text ++ " limit of " ++ Text.ofNat limit ++ " reached)"
  | .insufficientNodes failed total =>
    "failed to send to enough nodes (" ++ Text.ofNat failed ++ " of " ++ Text.ofNat total
      ++ " sends failed), please retry"
  | .signing reason => "signing failed: " ++ reason
  | .lifecycle reason => "handler lifecycle error: " ++ reason
  | .config problem => problem.text

/-- whether the same request may be accepted later -/
def isRetryable : GatewayError → Bool
  | .rateLimited _ | .tooManyPending _ _ | .insufficientNodes _ _ => true
  | _ => false

/-- the outcome code that a caller is shown -/
def code : GatewayError → ErrorCode
  | .invalidMessage _ => .userMessageParseError
  | .unsupportedDonId _ _ => .unsupportedDonIdError
  | .signing _ | .lifecycle _ | .config _ => .fatalError
  | _ => .handlerError

/-- the label under which the error is counted -/
def label : GatewayError → String
  | .invalidMessage _ => "invalid"
  | .unsupportedMethod _ => "unsupported_method"
  | .unsupportedDonId _ _ => "unsupported_don_id"
  | .notAllowlisted _ => "not_allowlisted"
  | .rateLimited _ => "rate_limited"
  | .duplicateRequest _ _ => "duplicate"
  | .tooManyPending _ _ => "backpressure"
  | .insufficientNodes _ _ => "insufficient_nodes"
  | .signing _ => "signing"
  | .lifecycle _ => "lifecycle"
  | .config _ => "config"

end GatewayError

end QuorumGateway
