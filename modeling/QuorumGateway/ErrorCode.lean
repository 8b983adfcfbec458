import QuorumGateway.Json.Decode
/-!
The outcome codes that a waiting caller is answered with.
-/

namespace QuorumGateway

inductive ErrorCode where
  | noError
  | userMessageParseError
  | unsupportedDonIdError
  | handlerError
  | requestTimeoutError
  | nodeResponseEncodingError
  | fatalError
deriving DecidableEq, Repr

namespace ErrorCode

def all : List ErrorCode :=
  [.noError, .userMessageParseError, .unsupportedDonIdError, .handlerError, .requestTimeoutError,
   .nodeResponseEncodingError, .fatalError]

def text : ErrorCode → String
  | .noError => "no_error"
  | .userMessageParseError => "user_message_parse_error"
  | .unsupportedDonIdError => "unsupported_don_id_error"
  | .handlerError => "handler_error"
  | .requestTimeoutError => "request_timeout_error"
  | .nodeResponseEncodingError => "node_response_encoding_error"
  | .fatalError => "fatal_error"

/-- the name of a code, for an operator -/
def debugText : ErrorCode → String
  | .noError => "NoError"
  | .userMessageParseError => "UserMessageParseError"
  | .unsupportedDonIdError => "UnsupportedDonIdError"
  | .handlerError => "HandlerError"
  | .requestTimeoutError => "RequestTimeoutError"
  | .nodeResponseEncodingError => "NodeResponseEncodingError"
  | .fatalError => "FatalError"

def read : Decode.Reader ErrorCode := Decode.variant (all.map fun c => (c.text, c))

theorem mem_all (c : ErrorCode) : c ∈ all := by cases c <;> decide

end ErrorCode

end QuorumGateway
