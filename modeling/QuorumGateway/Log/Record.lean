import QuorumGateway.Json.Printer
/-!
Log records: a level, the part of the program that a record comes from, a message, and further fields.
-/

namespace QuorumGateway.Log

/-- how grave a record is -/
inductive Level where
  | error
  | warn
  | info
  | debug
  | trace
deriving DecidableEq, Repr

namespace Level

def text : Level → String
  | .error => "ERROR"
  | .warn => "WARN"
  | .info => "INFO"
  | .debug => "DEBUG"
  | .trace => "TRACE"

/-- how verbose a level is; a filter that lets a number pass lets all smaller ones pass -/
def verbosity : Level → Nat
  | .error => 1
  | .warn => 2
  | .info => 3
  | .debug => 4
  | .trace => 5

end Level

structure Record where
  level : Level
  origin : String
  message : String
  fields : List (String × Json)
deriving Repr

namespace Record

def toJson (r : Record) : Json :=
  .object [("level", .string r.level.text), ("fields", .object (("message", .string r.message) :: r.fields))]

/-- a record as a line for a reader -/
def line (r : Record) : String :=
  r.level.text ++ " " ++ r.origin ++ ": " ++ r.message
    ++ String.join (r.fields.map fun (name, v) => " " ++ name ++ "=" ++ v.compact)

end Record

end QuorumGateway.Log
