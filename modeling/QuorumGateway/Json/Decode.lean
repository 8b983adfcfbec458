import QuorumGateway.Json.DecodeError
/-!
Reading drafts as values of the domain. Faults are reported in the order of the document: a part of the wrong kind
before its contents, a repeated field as soon as its name is read, a missing field only after the whole object. A
structure may also stand as an array of its fields in their order.

A document that is read from a text may nest at most 127 containers; one that is already in memory has no such limit.
-/

namespace QuorumGateway

open Decimal

/-- where a draft comes from -/
inductive Origin where
  /-- a text, in which containers may nest less deeply than `room` from here on -/
  | text (room : Nat)
  /-- a document in memory -/
  | memory
deriving DecidableEq, Repr

namespace Origin

/-- the start of a text -/
def document : Origin := .text 128

def enter : Origin → Except DecodeError Origin
  | .text room => if room ≤ 1 then .error (.broken .malformed) else .ok (.text (room - 1))
  | .memory => .ok .memory

/-- the objection to an array with more items than there are fields -/
def surplus (length : Nat) : Origin → DecodeError
  | .text _ => .broken .malformed
  | .memory => .wrongLength length "fewer elements in array"

end Origin

namespace Decode

abbrev Reader (α : Type) := Origin → Draft → Except DecodeError α

def mismatch (expected : String) : Draft → DecodeError
  | .null => .wrongType .null expected
  | .bool b => .wrongType (.bool b) expected
  | .number (some n) => .wrongType (.number n) expected
  | .string (some s) => .wrongType (.string s) expected
  | .number none | .string none => .broken .malformed
  | .array _ _ => .wrongType .sequence expected
  | .object _ _ => .wrongType .map expected
  | .cut place => .broken place.whenRead

/-- the end of a container that is read -/
def close : Option Cut → Except DecodeError Unit
  | none => .ok ()
  | some place => .error (.broken place.whenRead)

/-- a part that is passed over -/
def skip (d : Draft) : Except DecodeError Unit :=
  match d.pass with
  | none => .ok ()
  | some fault => .error (.broken fault)

/-! ## Scalars -/

def string : Reader String
  | _, .string (some s) => .ok s
  | _, d => .error (mismatch "a string" d)

/-- a whole number from zero up to a bound, which it may not reach -/
def natBelow (bound : Nat) (expected : String) : Reader Nat
  | _, .number (some (.int (.ofNat n))) =>
    if n < bound then .ok n else .error (.wrongValue (.number (.int n)) expected)
  | _, .number (some (.int n)) => .error (.wrongValue (.number (.int n)) expected)
  | _, d => .error (mismatch expected d)

def u64 : Reader Nat := natBelow (2 ^ 64) "u64"

def size : Reader Nat := natBelow (2 ^ 64) "usize"

def u32 : Reader Nat := natBelow (2 ^ 32) "u32"

/-- a number of the binary format; whole numbers are rounded to it -/
def float : Reader Binary64
  | _, .number (some (.float x)) => .ok x
  | _, .number (some (.int n)) => .ok (Binary64.ofInt n)
  | _, d => .error (mismatch "f64" d)

def optional {α : Type} (read : Reader α) : Reader (Option α)
  | _, .null => .ok none
  | o, d => (read o d).map some

/-! ## Any document -/

mutual

def json (o : Origin) : Draft → Except DecodeError Json
  | .null => .ok .null
  | .bool b => .ok (.bool b)
  | .number (some n) => .ok (.number n)
  | .string (some s) => .ok (.string s)
  | .number none | .string none => .error (.broken .malformed)
  | .cut place => .error (.broken place.whenRead)
  | .array items stop => do
    let inside ← o.enter
    let vs ← jsonItems inside items
    close stop
    return .array vs
  | .object members stop => do
    let inside ← o.enter
    let ps ← jsonMembers inside members
    close stop
    return .ofMembers ps

def jsonItems (o : Origin) : List Draft → Except DecodeError (List Json)
  | [] => .ok []
  | d :: rest => do
    let v ← json o d
    let vs ← jsonItems o rest
    return v :: vs

def jsonMembers (o : Origin) : List (Option String × Draft) → Except DecodeError (List (String × Json))
  | [] => .ok []
  | (none, _) :: _ => .error (.broken .malformed)
  | (some name, d) :: rest => do
    let v ← json o d
    let ps ← jsonMembers o rest
    return (name, v) :: ps

end

/-! ## Sequences and variants -/

def items {α : Type} (read : Reader α) (o : Origin) : List Draft → Except DecodeError (List α)
  | [] => .ok []
  | d :: rest => do
    let v ← read o d
    let vs ← items read o rest
    return v :: vs

def sequence {α : Type} (read : Reader α) : Reader (List α)
  | o, .array ds stop => do
    let inside ← o.enter
    let vs ← items read inside ds
    close stop
    return vs
  | _, d => .error (mismatch "a sequence" d)

def named {α : Type} (known : List (String × α)) (name : String) : Except DecodeError α :=
  match known.find? (·.1 == name) with
  | some (_, v) => .ok v
  | none => .error (.unknownVariant name (known.map Prod.fst))

/-- the null value that stands for the contents of a variant without any -/
def nothing : Draft → Except DecodeError Unit
  | .null => .ok ()
  | d => .error (mismatch "unit" d)

/-- a variant without contents: its name, or an object with that name as the only one -/
def variant {α : Type} (known : List (String × α)) : Reader α
  | _, .string (some s) => named known s
  | _, .object [(some name, d)] stop => do
    let v ← named known name
    nothing d
    close stop
    return v
  | .memory, .object _ _ => .error (.wrongValue .map "map with a single key")
  | .text _, .object _ _ => .error (.broken .malformed)
  | _, d => .error (mismatch "string or map" d)

/-! ## Structures -/

/-- whether a field may be left out: nowhere, of an object only, or anywhere -/
inductive Absence where
  | refused
  | fromObject
  | accepted
deriving DecidableEq, Repr

/-- a field of a structure: its name, other names for it, and how it is read into the structure -/
structure Field (σ : Type) where
  name : String
  aliases : List String
  absence : Absence
  read : Origin → Draft → σ → Except DecodeError σ

def Field.of {σ α : Type} (name : String) (absence : Absence) (read : Reader α) (put : σ → α → σ) : Field σ :=
  { name, aliases := [], absence, read := fun o d s => (read o d).map (put s) }

def Field.answersTo {σ : Type} (f : Field σ) (name : String) : Bool := f.name == name || f.aliases.contains name

/-- a structure: what it is called, its value before any field is read, and its fields -/
structure Record (σ : Type) where
  title : String
  blank : σ
  fields : List (Field σ)

namespace Record

variable {σ : Type}

def expected (r : Record σ) : String := "struct " ++ r.title

/-- what is expected of an array with the fields of the structure -/
def expectedItems (r : Record σ) : String :=
  r.expected ++ " with " ++ Text.ofNat r.fields.length ++ " element" ++ (if r.fields.length = 1 then "" else "s")

/-- the members of an object read into the structure one after the other; `seen` holds the fields already read -/
def readMembers (r : Record σ) (o : Origin) (seen : List String) (s : σ) :
    List (Option String × Draft) → Except DecodeError (List String × σ)
  | [] => .ok (seen, s)
  | (none, _) :: _ => .error (.broken .malformed)
  | (some name, d) :: rest =>
    match r.fields.find? (·.answersTo name) with
    | none => do
      skip d
      readMembers r o seen s rest
    | some f =>
      if seen.contains f.name then .error (.duplicate f.name)
      else do
        let s ← f.read o d s
        readMembers r o (f.name :: seen) s rest

def lacking? (r : Record σ) (seen : List String) : Option (Field σ) :=
  r.fields.find? fun f => f.absence == .refused && !seen.contains f.name

/-- the items of an array read into the fields from the one at `index` on -/
def readItems (r : Record σ) (o : Origin) (stop : Option Cut) (total index : Nat) (s : σ) :
    List (Field σ) → List Draft → Except DecodeError σ
  | [], [] => (close stop).map fun _ => s
  | [], _ :: _ => .error (o.surplus total)
  | f :: fs, d :: ds => do
    let s ← f.read o d s
    readItems r o stop total (index + 1) s fs ds
  | f :: fs, [] => do
    close stop
    if f.absence = .accepted then readItems r o stop total (index + 1) s fs []
    else .error (.wrongLength index r.expectedItems)

def read (r : Record σ) : Reader σ
  | o, .object members stop => do
    let inside ← o.enter
    let (seen, s) ← r.readMembers inside [] r.blank members
    close stop
    match r.lacking? seen with
    | some f => .error (.missing f.name)
    | none => return s
  | o, .array ds stop => do
    let inside ← o.enter
    r.readItems inside stop ds.length 0 r.blank r.fields ds
  | _, d => .error (mismatch r.expected d)

end Record

/-! ## Whole documents -/

def ofJson {α : Type} (read : Reader α) (v : Json) : Except DecodeError α := read .memory (Draft.ofJson v)

/-- a value from the characters of a text, which holds nothing else but blanks -/
def ofChars {α : Type} (read : Reader α) (cs : List Char) : Except DecodeError α := do
  let (d, after) := Draft.ofChars cs
  let v ← read .document d
  match after with
  | some rest => if (Draft.skipGaps rest).isEmpty then return v else .error (.broken .malformed)
  | none => .error (.broken .malformed)

def ofText {α : Type} (read : Reader α) (s : String) : Except DecodeError α := ofChars read s.toList

end Decode

def Json.ofText (s : String) : Except DecodeError Json := Decode.ofText Decode.json s

end QuorumGateway
