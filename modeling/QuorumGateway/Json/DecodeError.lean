import QuorumGateway.Text.Quoted
import QuorumGateway.Json.Draft
import QuorumGateway.Json.Printer
/-!
Why a document is not of the expected form, and the wording of it.
-/

namespace QuorumGateway

/-- what was found where something else was expected -/
inductive Found where
  | null
  | bool (b : Bool)
  | number (n : Number)
  | string (s : String)
  | sequence
  | map
deriving DecidableEq, Repr

def Found.text : Found → String
  | .null => "null"
  | .bool b => "boolean `" ++ (if b then "true" else "false") ++ "`"
  | .number (.int n) => "integer `" ++ Text.ofInt n ++ "`"
  | .number (.float x) => "floating point `" ++ Decimal.Layout.payload.text x ++ "`"
  | .string s => "string " ++ Text.Quoted.text s
  | .sequence => "sequence"
  | .map => "map"

inductive DecodeError where
  /-- the text is no document -/
  | broken (fault : Fault)
  | wrongType (found : Found) (expected : String)
  | wrongValue (found : Found) (expected : String)
  | wrongLength (length : Nat) (expected : String)
  | missing (field : String)
  | duplicate (field : String)
  | unknownVariant (name : String) (known : List String)
  /-- the document has the right form, but its content is refused -/
  | refused (reason : String)
deriving DecidableEq, Repr

namespace DecodeError

/-- the known variants of an enumeration: two are joined by "or", more are listed -/
def variants (known : List String) : String :=
  let quoted := known.map fun s => "`" ++ s ++ "`"
  match quoted with
  | [a, b] => a ++ " or " ++ b
  | all => "one of " ++ Text.join ", " all

def message : DecodeError → String
  | .broken .malformed => "malformed document"
  | .broken .ended => "unexpected end of document"
  | .wrongType found expected => "invalid type: " ++ found.text ++ ", expected " ++ expected
  | .wrongValue found expected => "invalid value: " ++ found.text ++ ", expected " ++ expected
  | .wrongLength length expected => "invalid length " ++ Text.ofNat length ++ ", expected " ++ expected
  | .missing field => "missing field `" ++ field ++ "`"
  | .duplicate field => "duplicate field `" ++ field ++ "`"
  | .unknownVariant name known => "unknown variant `" ++ name ++ "`, expected " ++ variants known
  | .refused reason => reason

end DecodeError

end QuorumGateway
