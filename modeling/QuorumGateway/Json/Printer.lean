import QuorumGateway.Text.Pieces
import QuorumGateway.Json.Value
import QuorumGateway.Decimal.Layout
/-!
Documents as text. The compact text has no blanks; the indented one gives every item and member a line of its own, two
spaces further in than its container, and leaves empty containers in one piece. Only the quote, the backslash and the
characters below U+0020 are escaped in a string. The compact text of a payload is also what is signed and what decides
whether two responses agree.
-/

namespace QuorumGateway

/-- a number as text: a whole number in plain digits, any other always with a point or an exponent -/
def Number.text : Number → String
  | .int n => Text.ofInt n
  | .float x => Decimal.Layout.payload.text x

namespace Json

/-! ## Strings -/

/-- two hexadecimal digits of a character below U+0020, after the mark of a code point -/
def codeEscape (c : Char) : List Char :=
  ['\\', 'u', '0', '0'] ++ [Nat.digitChar (c.toNat / 16), Nat.digitChar (c.toNat % 16)]

def escape (c : Char) : List Char :=
  if c = '"' then ['\\', '"']
  else if c = '\\' then ['\\', '\\']
  else if c = '\n' then ['\\', 'n']
  else if c = '\r' then ['\\', 'r']
  else if c = '\t' then ['\\', 't']
  else if c = '\x08' then ['\\', 'b']
  else if c = '\x0c' then ['\\', 'f']
  else if c < ' ' then codeEscape c
  else [c]

def quote (s : String) : String := String.ofList ('"' :: s.toList.flatMap escape ++ ['"'])

/-! ## Compact text -/

mutual

def compact : Json → String
  | .null => "null"
  | .bool b => if b then "true" else "false"
  | .number n => n.text
  | .string s => quote s
  | .array items => "[" ++ Text.join "," (compactItems items) ++ "]"
  | .object members => "\x7b" ++ Text.join "," (compactMembers members) ++ "\x7d"

def compactItems : List Json → List String
  | [] => []
  | v :: rest => compact v :: compactItems rest

def compactMembers : List (String × Json) → List String
  | [] => []
  | (name, v) :: rest => (quote name ++ ":" ++ compact v) :: compactMembers rest

end

/-- the bytes of the compact text -/
def encoding (v : Json) : List UInt8 := Text.bytes v.compact

/-! ## Indented text -/

/-- a line break and the indentation of a level -/
def newline (level : Nat) : String := String.ofList ('\n' :: List.replicate (2 * level) ' ')

/-- the parts of a container, each on a line of its own -/
def block (opening closing : String) (level : Nat) : List String → String
  | [] => opening ++ closing
  | parts =>
    opening ++ newline (level + 1) ++ Text.join ("," ++ newline (level + 1)) parts ++ newline level ++ closing

mutual

/-- the text of a document with a line for every item and member -/
def indented (level : Nat) : Json → String
  | .array items => block "[" "]" level (indentedItems (level + 1) items)
  | .object members => block "\x7b" "\x7d" level (indentedMembers (level + 1) members)
  | .null => "null"
  | .bool b => if b then "true" else "false"
  | .number n => n.text
  | .string s => quote s

def indentedItems (level : Nat) : List Json → List String
  | [] => []
  | v :: rest => indented level v :: indentedItems level rest

def indentedMembers (level : Nat) : List (String × Json) → List String
  | [] => []
  | (name, v) :: rest => (quote name ++ ": " ++ indented level v) :: indentedMembers level rest

end

end Json

end QuorumGateway
