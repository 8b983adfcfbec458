import QuorumGateway.Proofs.Json.Canonical
import QuorumGateway.Proofs.Outcome
/-!
Writing that may fail. Data of any kind can be written as compact text, but for a map with a key that has none: a key is
a text, or a truth value or number that is put between quotes. Payloads are written as the data they are (`Json.datum`).
The names of their members are texts, so it always goes well, and what is written is the compact text
(`Json.written_eq`).
-/

namespace QuorumGateway

/-- data of any kind, with keys of any kind -/
inductive Datum where
  | unit
  | bool (b : Bool)
  | number (n : Number)
  | string (s : String)
  | sequence (items : List Datum)
  | map (entries : List (Datum × Datum))

namespace Datum

/-- why data cannot be written -/
inductive Fault where
  | keyWithoutText
  /-- a key that is a number without a place in a document -/
  | keyNotFinite
deriving DecidableEq

def Fault.text : Fault → String
  | .keyWithoutText => "key must be a string"
  | .keyNotFinite => "float key must be finite (got NaN or +/-inf)"

/-- a number as a value; one without a place in a document is written as nothing -/
def numberText : Number → String
  | .int n => Text.ofInt n
  | .float x => if x.isFinite then Decimal.Layout.payload.text x else "null"

/-- a key between its quotes -/
def keyText : Datum → Except Fault String
  | .string s => .ok (Json.quote s)
  | .bool b => .ok (Json.quote (if b then "true" else "false"))
  | .number (.int n) => .ok (Json.quote (Text.ofInt n))
  | .number (.float x) =>
    if x.isFinite then .ok (Json.quote (Decimal.Layout.payload.text x)) else .error .keyNotFinite
  | .unit | .sequence _ | .map _ => .error .keyWithoutText

mutual

/-- data as compact text; the first key that cannot be written ends it -/
def write : Datum → Except Fault String
  | .unit => .ok "null"
  | .bool b => .ok (if b then "true" else "false")
  | .number n => .ok (numberText n)
  | .string s => .ok (Json.quote s)
  | .sequence items => do
    let parts ← writeItems items
    return "[" ++ Text.join "," parts ++ "]"
  | .map entries => do
    let parts ← writeEntries entries
    return "\x7b" ++ Text.join "," parts ++ "\x7d"

def writeItems : List Datum → Except Fault (List String)
  | [] => .ok []
  | d :: rest => do
    let value ← write d
    let parts ← writeItems rest
    return value :: parts

def writeEntries : List (Datum × Datum) → Except Fault (List String)
  | [] => .ok []
  | (k, d) :: rest => do
    let key ← keyText k
    let value ← write d
    let parts ← writeEntries rest
    return (key ++ ":" ++ value) :: parts

end

/-- a list has no text that could be a key -/
example : write (.map [(.string "a", .unit), (.sequence [], .unit)]) = .error .keyWithoutText := rfl

theorem numberText_eq {n : Number} (hn : n.Proper) : numberText n = n.text := by
  cases n with
  | int i => rfl
  | float x => exact if_pos hn

end Datum

namespace Json

open Datum (write writeItems writeEntries)

mutual

/-- a payload as the data it is -/
def datum : Json → Datum
  | .null => .unit
  | .bool b => .bool b
  | .number n => .number n
  | .string s => .string s
  | .array items => .sequence (dataOfItems items)
  | .object members => .map (dataOfMembers members)

def dataOfItems : List Json → List Datum
  | [] => []
  | v :: rest => datum v :: dataOfItems rest

def dataOfMembers : List (String × Json) → List (Datum × Datum)
  | [] => []
  | (name, v) :: rest => (.string name, datum v) :: dataOfMembers rest

end

mutual

theorem write_datum : ∀ v : Json, v.Proper → write v.datum = .ok v.compact
  | .null => fun _ => rfl
  | .bool _ => fun _ => rfl
  | .string _ => fun _ => rfl
  | .number n => by
    intro hv
    rw [Proper] at hv
    rw [datum, write, Datum.numberText_eq hv, compact]
  | .array items => by
    intro hv
    rw [Proper] at hv
    rw [datum, write, writeItems_dataOfItems items hv, ok_bind, compact]
    rfl
  | .object members => by
    intro hv
    rw [Proper] at hv
    rw [datum, write, writeEntries_dataOfMembers members hv, ok_bind, compact]
    rfl

theorem writeItems_dataOfItems : ∀ vs : List Json, ProperItems vs → writeItems (dataOfItems vs) = .ok (compactItems vs)
  | [] => fun _ => rfl
  | v :: vs => by
    intro hvs
    rw [ProperItems] at hvs
    rw [dataOfItems, writeItems, write_datum v hvs.1, writeItems_dataOfItems vs hvs.2, compactItems]
    rfl

theorem writeEntries_dataOfMembers : ∀ ms : List (String × Json), ProperMembers ms →
    writeEntries (dataOfMembers ms) = .ok (compactMembers ms)
  | [] => fun _ => rfl
  | (name, v) :: ms => by
    intro hms
    rw [ProperMembers] at hms
    rw [dataOfMembers, writeEntries, write_datum v hms.1, writeEntries_dataOfMembers ms hms.2, compactMembers]
    rfl

end

/-- the bytes of a payload, if it can be written -/
def written (v : Json) : Except Datum.Fault (List UInt8) := (write v.datum).map Text.bytes

/-- **A payload can always be written**, and what is written are the bytes of its compact text -/
theorem written_eq {v : Json} (hv : v.Proper) : v.written = .ok v.encoding := by
  rw [written, write_datum v hv]
  rfl

end Json

end QuorumGateway
