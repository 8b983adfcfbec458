import QuorumGateway.Json.Lexeme
/-!
A text split into the parts of a document, before anything is known about what the parts mean. Reading goes from left
to right and stops at the first place that does not fit; a draft keeps all parts up to there, so that whoever reads it
comes upon faults in the order of the text. A part that nobody asks for is only passed over, and passing over is more
tolerant than reading: it accepts numbers out of range, strings with half a surrogate pair, and any depth of nesting.
-/

namespace QuorumGateway

inductive Fault where
  | malformed
  | ended
deriving DecidableEq, Repr

/-- a place where a text stops being a document: the fault for one who reads it, and for one who passes over it -/
structure Cut where
  whenRead : Fault
  whenPassed : Fault
deriving DecidableEq, Repr

/-- a cut that is the same fault for everyone -/
def Cut.plain (fault : Fault) : Cut := ⟨fault, fault⟩

/-- the parts of a document; a number out of range and a string with half a surrogate pair have no value, and a
container that is not closed says why -/
inductive Draft where
  | null
  | bool (b : Bool)
  | number (n : Option Number)
  | string (s : Option String)
  | array (items : List Draft) (stop : Option Cut)
  | object (members : List (Option String × Draft)) (stop : Option Cut)
  | cut (place : Cut)
deriving Repr, Inhabited

namespace Draft

/-! ## A document in memory as a draft -/

mutual

/-- a document that is already there, as its parts -/
def ofJson : Json → Draft
  | .null => .null
  | .bool b => .bool b
  | .number n => .number (some n)
  | .string s => .string (some s)
  | .array items => .array (ofItems items) none
  | .object members => .object (ofMembers members) none

def ofItems : List Json → List Draft
  | [] => []
  | v :: rest => ofJson v :: ofItems rest

def ofMembers : List (String × Json) → List (Option String × Draft)
  | [] => []
  | (name, v) :: rest => (some name, ofJson v) :: ofMembers rest

end

/-! ## Passing over -/

def passStop : Option Cut → Option Fault
  | none => none
  | some place => some place.whenPassed

mutual

/-- the first fault in a part that is passed over -/
def pass : Draft → Option Fault
  | .array items stop => passItems stop items
  | .object members stop => passMembers stop members
  | .cut place => some place.whenPassed
  | .null | .bool _ | .number _ | .string _ => none

def passItems (stop : Option Cut) : List Draft → Option Fault
  | [] => passStop stop
  | d :: rest =>
    match pass d with
    | some fault => some fault
    | none => passItems stop rest

def passMembers (stop : Option Cut) : List (Option String × Draft) → Option Fault
  | [] => passStop stop
  | (_, d) :: rest =>
    match pass d with
    | some fault => some fault
    | none => passMembers stop rest

end

/-! ## Scanning

Every scanner takes the characters left and gives what it found, with the characters after it or the cut it ran into.
-/

/-- what a scanner found before the characters after it -/
abbrev Scan (α : Type) := Except Cut (α × List Char)

/-- the blanks between the parts of a document -/
def isGap (c : Char) : Bool := c = ' ' || c = '\n' || c = '\t' || c = '\r'

def skipGaps (cs : List Char) : List Char := cs.dropWhile isGap

/-- the rest of a fixed word, and what it stands for -/
def word (found : Draft) : List Char → List Char → Scan Draft
  | [], cs => .ok (found, cs)
  | _ :: _, [] => .error (.plain .ended)
  | w :: ws, c :: cs => if w = c then word found ws cs else .error (.plain .malformed)

def digits : List Char → List Nat × List Char
  | [] => ([], [])
  | c :: rest =>
    match Text.digit? c with
    | some d => (d :: (digits rest).1, (digits rest).2)
    | none => ([], c :: rest)

/-- a cut where digits are needed: at the end of the text one who passes over the number calls it malformed -/
def needDigits : List Char → Cut
  | [] => ⟨.ended, .malformed⟩
  | _ => .plain .malformed

/-- the digits before the point: one zero, or digits that start with no zero -/
def wholePart (cs : List Char) : Scan (List Nat) :=
  match digits cs with
  | ([], rest) => .error (needDigits rest)
  | ([0], rest) => .ok ([0], rest)
  | (0 :: _, _) => .error (.plain .malformed)
  | (ds, rest) => .ok (ds, rest)

/-- the point and the digits after it, if there is a point -/
def fractionPart : List Char → Scan (Option (List Nat))
  | '.' :: cs =>
    match digits cs with
    | ([], rest) => .error (needDigits rest)
    | (ds, rest) => .ok (some ds, rest)
  | cs => .ok (none, cs)

def exponentSign : List Char → Bool × List Char
  | '-' :: cs => (true, cs)
  | '+' :: cs => (false, cs)
  | cs => (false, cs)

def exponentPart : List Char → Scan (Option (Bool × List Nat))
  | [] => .ok (none, [])
  | c :: cs =>
    if c = 'e' ∨ c = 'E' then
      match digits (exponentSign cs).2 with
      | ([], rest) => .error (needDigits rest)
      | (ds, rest) => .ok (some ((exponentSign cs).1, ds), rest)
    else .ok (none, c :: cs)

def lexeme (cs : List Char) : Scan Lexeme :=
  let (negative, cs) := match cs with
    | '-' :: rest => (true, rest)
    | cs => (false, cs)
  match wholePart cs with
  | .error place => .error place
  | .ok (whole, cs) =>
    match fractionPart cs with
    | .error place => .error place
    | .ok (fraction, cs) =>
      match exponentPart cs with
      | .error place => .error place
      | .ok (exponent, cs) => .ok (⟨negative, whole, fraction, exponent⟩, cs)

/-! ## Strings -/

/-- whether at least `n` bytes of text are left -/
def holdsBytes : Nat → List Char → Bool
  | 0, _ => true
  | _ + 1, [] => false
  | n + 1, c :: rest => holdsBytes (n + 1 - c.utf8Size) rest

def hexValue? (c : Char) : Option Nat :=
  if '0' ≤ c ∧ c ≤ '9' then some (c.toNat - 48)
  else if 'a' ≤ c ∧ c ≤ 'f' then some (c.toNat - 87)
  else if 'A' ≤ c ∧ c ≤ 'F' then some (c.toNat - 55)
  else none

/-- four hexadecimal digits; a text with fewer than four bytes left has ended -/
def codeUnit (cs : List Char) : Except Fault (Nat × List Char) :=
  if !holdsBytes 4 cs then .error .ended
  else
    match cs with
    | a :: b :: c :: d :: rest =>
      match hexValue? a, hexValue? b, hexValue? c, hexValue? d with
      | some a, some b, some c, some d => .ok (((a * 16 + b) * 16 + c) * 16 + d, rest)
      | _, _, _, _ => .error .malformed
    | _ => .error .malformed

/-- the character that a one-letter escape stands for -/
def escaped? (c : Char) : Option Char :=
  if c = '"' ∨ c = '\\' ∨ c = '/' then some c
  else if c = 'b' then some '\x08'
  else if c = 'f' then some '\x0c'
  else if c = 'n' then some '\n'
  else if c = 'r' then some '\r'
  else if c = 't' then some '\t'
  else none

/-- one unit of a string: a character, a code unit of an escape, or the closing quote -/
inductive Piece where
  | char (c : Char)
  | unit (n : Nat)
  | close
deriving DecidableEq, Repr

def piece : List Char → Except Fault (Piece × List Char)
  | [] => .error .ended
  | '"' :: rest => .ok (.close, rest)
  | ['\\'] => .error .ended
  | '\\' :: 'u' :: rest =>
    match codeUnit rest with
    | .ok (n, rest) => .ok (.unit n, rest)
    | .error fault => .error fault
  | '\\' :: c :: rest =>
    match escaped? c with
    | some x => .ok (.char x, rest)
    | none => .error .malformed
  | c :: rest => if c < ' ' then .error .malformed else .ok (.char c, rest)

/-- the units of a string up to its closing quote, or up to a fault -/
def pieces : Nat → List Char → List Piece × Except Fault (List Char)
  | 0, _ => ([], .error .ended)
  | fuel + 1, cs =>
    match piece cs with
    | .error fault => ([], .error fault)
    | .ok (.close, rest) => ([], .ok rest)
    | .ok (p, rest) => let (ps, stop) := pieces fuel rest; (p :: ps, stop)

/-- the first half of a surrogate pair -/
def isHigh (n : Nat) : Bool := 0xD800 ≤ n && n ≤ 0xDBFF

/-- the second half of a surrogate pair -/
def isLow (n : Nat) : Bool := 0xDC00 ≤ n && n ≤ 0xDFFF

/-- what the units of a string spell -/
inductive Spelling where
  /-- all of them pair up -/
  | whole (cs : List Char)
  /-- some half of a surrogate pair stands alone -/
  | unpaired
  /-- the units end with the first half of a pair -/
  | dangling
deriving DecidableEq, Repr

def Spelling.cons (c : Char) : Spelling → Spelling
  | .whole cs => .whole (c :: cs)
  | s => s

def spell : List Piece → Spelling
  | [] => .whole []
  | .close :: rest => spell rest
  | .char c :: rest => (spell rest).cons c
  | .unit n :: rest =>
    if isLow n then .unpaired
    else if isHigh n then
      match rest with
      | [] => .dangling
      | .unit m :: rest =>
        if isLow m then (spell rest).cons (Char.ofNat (0x10000 + (n - 0xD800) * 0x400 + (m - 0xDC00))) else .unpaired
      | _ :: _ => .unpaired
    else (spell rest).cons (Char.ofNat n)

/-- a string after its opening quote. Where it is cut after half a pair went wrong, one who reads it never gets to the
cut; a first half right before the cut is still waiting for its other half. -/
def stringBody (cs : List Char) : Scan (Option String) :=
  match pieces (cs.length + 1) cs with
  | (ps, .ok rest) =>
    match spell ps with
    | .whole found => .ok (some (String.ofList found), rest)
    | .unpaired | .dangling => .ok (none, rest)
  | (ps, .error fault) =>
    match spell ps with
    | .whole _ | .dangling => .error (.plain fault)
    | .unpaired => .error ⟨.malformed, fault⟩

/-! ## Documents -/

/-- a scalar that starts with `c`, of which `rest` is what follows -/
def scalar (c : Char) (rest : List Char) : Scan Draft :=
  if c = 'n' then word .null ['u', 'l', 'l'] rest
  else if c = 't' then word (.bool true) ['r', 'u', 'e'] rest
  else if c = 'f' then word (.bool false) ['a', 'l', 's', 'e'] rest
  else if c = '"' then
    match stringBody rest with
    | .ok (s, rest) => .ok (.string s, rest)
    | .error place => .error place
  else if c = '-' ∨ (Text.digit? c).isSome then
    match lexeme (c :: rest) with
    | .ok (l, rest) => .ok (.number l.number?, rest)
    | .error place => .error place
  else .error (.plain .malformed)

mutual

/-- the document at the front, with the characters after it unless it is cut -/
def scan : Nat → List Char → Draft × Option (List Char)
  | 0, _ => (.cut (.plain .ended), none)
  | fuel + 1, cs =>
    match skipGaps cs with
    | [] => (.cut (.plain .ended), none)
    | '[' :: rest =>
      match skipGaps rest with
      | ']' :: rest => (.array [] none, some rest)
      | [] => (.array [] (some (.plain .ended)), none)
      | rest => let (items, stop, after) := scanItems fuel rest; (.array items stop, after)
    | '\x7b' :: rest =>
      match skipGaps rest with
      | '\x7d' :: rest => (.object [] none, some rest)
      | rest => let (members, stop, after) := scanMembers fuel rest; (.object members stop, after)
    | c :: rest =>
      match scalar c rest with
      | .ok (d, rest) => (d, some rest)
      | .error place => (.cut place, none)

/-- the items of an array from the next one on, where the array is cut if not inside an item, and what follows it -/
def scanItems : Nat → List Char → List Draft × Option Cut × Option (List Char)
  | 0, _ => ([], some (.plain .ended), none)
  | fuel + 1, cs =>
    match scan fuel cs with
    | (d, none) => ([d], none, none)
    | (d, some rest) =>
      match skipGaps rest with
      | ']' :: rest => ([d], none, some rest)
      | ',' :: rest => let (items, stop, after) := scanItems fuel rest; (d :: items, stop, after)
      | [] => ([d], some (.plain .ended), none)
      | _ => ([d], some (.plain .malformed), none)

/-- the members of an object from the next one on, where the object is cut if not inside a member, and what follows -/
def scanMembers : Nat → List Char → List (Option String × Draft) × Option Cut × Option (List Char)
  | 0, _ => ([], some (.plain .ended), none)
  | fuel + 1, cs =>
    match skipGaps cs with
    | [] => ([], some (.plain .ended), none)
    | '"' :: rest =>
      match stringBody rest with
      | .error place => ([], some place, none)
      | .ok (name, rest) =>
        match skipGaps rest with
        | ':' :: rest =>
          match scan fuel rest with
          | (d, none) => ([(name, d)], none, none)
          | (d, some rest) =>
            match skipGaps rest with
            | '\x7d' :: rest => ([(name, d)], none, some rest)
            | ',' :: rest =>
              let (members, stop, after) := scanMembers fuel rest
              ((name, d) :: members, stop, after)
            | [] => ([(name, d)], some (.plain .ended), none)
            | _ => ([(name, d)], some (.plain .malformed), none)
        | [] => ([(name, .cut (.plain .ended))], none, none)
        | _ => ([(name, .cut (.plain .malformed))], none, none)
    | _ => ([], some (.plain .malformed), none)

end

/-- the document at the front of a text; each level of nesting and each item takes a character at least, so the length
of the text bounds the work -/
def ofChars (cs : List Char) : Draft × Option (List Char) := scan (2 * cs.length + 2) cs

end Draft

end QuorumGateway
