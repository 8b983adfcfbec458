import QuorumGateway.SortedMap
import QuorumGateway.Decimal.Binary64
/-!
Values of the data format in which messages and settings travel. A number is either a whole number, which stays exact
between `-2 ^ 63` and `2 ^ 64 - 1`, or a number of the 64-bit binary format: `1` and `1.0` are different values. The
members of an object that has been read stand in ascending order of their names; in a document that the library writes
they stand in the order in which their structure declares them.
-/

namespace QuorumGateway

open Decimal

inductive Number where
  | int (n : Int)
  | float (x : Binary64)
deriving DecidableEq, Repr

inductive Json where
  | null
  | bool (b : Bool)
  | number (n : Number)
  | string (s : String)
  | array (items : List Json)
  | object (members : List (String × Json))
deriving Repr, Inhabited

namespace Json

def int (n : Int) : Json := .number (.int n)

def nat (n : Nat) : Json := .number (.int n)

def float (x : Binary64) : Json := .number (.float x)

def isNull : Json → Bool
  | .null => true
  | _ => false

def get? (name : String) : Json → Option Json
  | .object members => SortedMap.get? name members
  | _ => none

/-- an object of the given members; of two members with one name the later counts -/
def ofMembers (members : List (String × Json)) : Json := .object (SortedMap.ofPairs members)

end Json

end QuorumGateway
