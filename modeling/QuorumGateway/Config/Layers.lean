import QuorumGateway.Config.Settings
import QuorumGateway.Decimal.Layout
import QuorumGateway.Decimal.Reader
/-!
Settings from several sources laid over one another. A source is a list of values for paths such as
`don.members[0].name`; a key that is no path stands for itself. Laying a value over another merges objects member by
member and replaces everything else. The result is read leniently: texts are taken for numbers and numbers for texts
where that makes sense.
-/

namespace QuorumGateway.Layers

/-! ## Paths -/

inductive Step where
  | name (s : String)
  | index (i : Int)
deriving DecidableEq, Repr

def isNameChar (c : Char) : Bool := c.isAlphanum || c = '_' || c = '-'

def takeName (cs : List Char) : Option (String × List Char) :=
  let name := cs.takeWhile isNameChar
  if name = [] then none else some (String.ofList name, cs.drop name.length)

/-- whether a character may stand around an index -/
def isSpace (c : Char) : Bool := c = ' ' || c = '\t'

/-- an index in brackets of which the opening one is taken, and what follows it -/
def takeIndex (cs : List Char) : Option (Int × List Char) :=
  let cs := cs.dropWhile isSpace
  let (negative, cs) := match cs with
    | '-' :: rest => (true, rest)
    | cs => (false, cs)
  let (n, count, rest) := Decimal.takeDigits 0 cs
  match rest.dropWhile isSpace with
  | ']' :: rest => if 0 < count ∧ n < 2 ^ 63 then some (if negative then -n else n, rest) else none
  | _ => none

/-- the steps after the first name of a path; each takes a character at least -/
def steps? : Nat → List Char → Option (List Step)
  | 0, _ => none
  | _ + 1, [] => some []
  | fuel + 1, '.' :: rest => do
    let (name, rest) ← takeName rest
    return .name name :: (← steps? fuel rest)
  | fuel + 1, '[' :: rest => do
    let (i, rest) ← takeIndex rest
    return .index i :: (← steps? fuel rest)
  | _, _ => none

/-- the path that a key spells; a key that spells none is a name by itself -/
def path (key : String) : List Step :=
  let spelled := do
    let (name, rest) ← takeName key.toList
    return Step.name name :: (← steps? (rest.length + 1) rest)
  spelled.getD [.name key]

/-! ## Laying over -/

/-- the members of an object; anything else gives way to an empty one -/
def membersOf : Json → List (String × Json)
  | .object members => members
  | _ => []

/-- the items of an array; anything else gives way to an empty one -/
def itemsOf : Json → List Json
  | .array items => items
  | _ => []

mutual

/-- a value laid over the member `name` of `base` -/
def overlay (base : Json) (name : String) : Json → Json
  | .object members =>
    let target := (SortedMap.get? name (membersOf base)).getD (.object [])
    .object (SortedMap.put name (overlayMembers target members) (membersOf base))
  | .null => .object (SortedMap.put name .null (membersOf base))
  | .bool b => .object (SortedMap.put name (.bool b) (membersOf base))
  | .number n => .object (SortedMap.put name (.number n) (membersOf base))
  | .string s => .object (SortedMap.put name (.string s) (membersOf base))
  | .array items => .object (SortedMap.put name (.array items) (membersOf base))

def overlayMembers (base : Json) : List (String × Json) → Json
  | [] => base
  | (name, v) :: rest => overlayMembers (overlay base name v) rest

end

/-- the position of an index in an array, counted from the end where it is negative -/
def position (i : Int) (length : Nat) : Nat := if 0 ≤ i then i.toNat else length - i.natAbs

/-- an array with an item replaced; null fills up what is missing before it -/
def setItem (items : List Json) (i : Nat) (v : Json) : List Json :=
  (items ++ List.replicate (i + 1 - items.length) Json.null).set i v

/-- a value assigned to a path of `base`; whatever stands in the way gives way -/
def assign (base : Json) (v : Json) : List Step → Json
  | [] => v
  | [.name s] => overlay base s v
  | .name s :: rest =>
    .object (SortedMap.put s (assign ((SortedMap.get? s (membersOf base)).getD .null) v rest) (membersOf base))
  | .index i :: rest =>
    let items := itemsOf base
    let n := position i items.length
    .array (setItem items n (assign (items.getD n .null) v rest))

def lay (base : Json) (source : List (String × Json)) : Json :=
  source.foldl (fun base (key, v) => assign base v (path key)) base

/-! ## Sources -/

/-- a number as it stands in a file: a whole number beyond the signed 64-bit range is one of the binary format -/
def fileNumber : Number → Number
  | .int n => if n < 2 ^ 63 then .int n else .float (Decimal.Binary64.ofInt n)
  | .float x => .float x

mutual

def fileValue : Json → Json
  | .number n => .number (fileNumber n)
  | .array items => .array (fileItems items)
  | .object members => .object (fileMembers members)
  | .null => .null
  | .bool b => .bool b
  | .string s => .string s

def fileItems : List Json → List Json
  | [] => []
  | v :: rest => fileValue v :: fileItems rest

def fileMembers : List (String × Json) → List (String × Json)
  | [] => []
  | (name, v) :: rest => (name, fileValue v) :: fileMembers rest

end

/-- the source that the text of a file spells: an object; a byte order mark is let pass -/
def ofFile (text : String) : Option (List (String × Json)) :=
  let cs := match text.toList with
    | '\uFEFF' :: rest => rest
    | cs => cs
  match Decode.ofChars Decode.json cs with
  | .ok (.object members) => some (fileMembers members)
  | _ => none

/-- the start of the names of environment variables that are settings -/
def mark : List Char := "don_gateway__".toList

/-- the key in the name of a variable: two underscores separate the levels -/
def dotted : List Char → List Char
  | '_' :: '_' :: rest => '.' :: dotted rest
  | c :: rest => c :: dotted rest
  | [] => []

def variableKey (name : String) : Option String :=
  let cs := (Text.lower name).toList
  if mark.isPrefixOf cs then some (String.ofList (dotted (cs.drop mark.length))) else none

/-- the value of a variable: a truth value, a number, or a text -/
def variableValue (s : String) : Json :=
  if Text.lower s = "true" then .bool true
  else if Text.lower s = "false" then .bool false
  else
    match Decimal.int? s with
    | some n => .int n
    | none =>
      match Decimal.float? s with
      | some x => .float x
      | none => .string s

/-- the source that environment variables are, in the order of their keys -/
def ofVariables (environment : List (String × String)) : List (String × Json) :=
  SortedMap.ofPairs (environment.filterMap fun (name, s) => (variableKey name).map fun key => (key, variableValue s))

/-- the source of the values that hold if nothing else is said -/
def standard : List (String × Json) := [("logging.level", .string "info"), ("logging.format", .string "pretty")]

/-! ## Lenient reading -/

def text? : Json → Option String
  | .string s => some s
  | .bool b => some (if b then "true" else "false")
  | .number (.int n) => some (Text.ofInt n)
  | .number (.float x) => some (Decimal.Layout.message.text x)
  | _ => none

/-- a text as a size: a word for yes or no, or a number -/
def wordSize? (s : String) : Option Nat :=
  let word := Text.lower s
  if word = "true" ∨ word = "on" ∨ word = "yes" then some 1
  else if word = "false" ∨ word = "off" ∨ word = "no" then some 0
  else Decimal.word? s

/-- a value as a size; other numbers are rounded -/
def size? : Json → Option Nat
  | .string s => wordSize? s
  | .bool b => some (if b then 1 else 0)
  | .number (.int n) => if 0 ≤ n then some n.toNat else none
  | .number (.float x) => some x.toWord
  | _ => none

mutual

/-- a value as any document: a number that is not finite becomes null -/
def document : Json → Json
  | .number (.float x) => if x.isFinite then .float x else .null
  | .number (.int n) => .int n
  | .array items => .array (documentItems items)
  | .object members => .object (documentMembers members)
  | .null => .null
  | .bool b => .bool b
  | .string s => .string s

def documentItems : List Json → List Json
  | [] => []
  | v :: rest => document v :: documentItems rest

def documentMembers : List (String × Json) → List (String × Json)
  | [] => []
  | (name, v) :: rest => (name, document v) :: documentMembers rest

end

/-- the values of the fields of a structure, given as an object or as an array in the order of the fields -/
def fields (names : List String) : Json → Option (List (Option Json))
  | .object members => some (names.map fun n => SortedMap.get? n members)
  | .array items => some (names.zipIdx.map fun (_, i) => items[i]?)
  | _ => none

/-- a field that may be left out -/
def orElse {α : Type} (standard : α) (read : Json → Option α) : Option Json → Option α
  | none => some standard
  | some v => read v

/-- a log format: its name, or an object with that name as the only one -/
def format? : Json → Option LogFormat
  | .string s => (LogFormat.known.find? (·.1 == s)).map Prod.snd
  | .object [(name, _)] => (LogFormat.known.find? (·.1 == name)).map Prod.snd
  | _ => none

def logging? (v : Json) : Option Logging := do
  match ← fields ["level", "format"] v with
  | [level, format] =>
    return ⟨← orElse Logging.standard.level text? level, ← orElse Logging.standard.format format? format⟩
  | _ => none

def member? (v : Json) : Option Member := do
  match ← fields ["name", "address"] v with
  | [some name, some address] => return ⟨← text? name, ← text? address⟩
  | _ => none

def members? : Json → Option (List Member)
  | .array items => items.mapM member?
  | _ => none

/-- the number of faulty nodes, which goes by two names that may not both be used -/
def faulty? (v : Json) (f : Option Json) : Option Nat :=
  match f, v.get? "F" with
  | some _, some _ => none
  | some f, none => size? f
  | none, some f => size? f
  | none, none => some 0

def network? (v : Json) : Option Network := do
  match ← fields ["don_id", "handler_name", "handler_config", "members", "f"] v with
  | [donId, handlerName, handler, members, f] =>
    return {
      donId := ← orElse "" text? donId
      handlerName := ← orElse Network.standardHandlerName text? handlerName
      handler := ← orElse .null (some ∘ document) handler
      members := ← orElse [] members? members
      f := ← faulty? v f }
  | _ => none

def settings? (v : Json) : Option Settings := do
  match ← fields ["logging", "don"] v with
  | [logging, network] =>
    return ⟨← orElse Logging.standard logging? logging, ← orElse Network.local4 network? network⟩
  | _ => none

end QuorumGateway.Layers
