import QuorumGateway.Text.Blank
/-!
Files of environment entries, one `NAME=value` to a line, with an optional `export` in front. A value may be quoted:
between single quotes every character stands for itself, between double quotes and outside of quotes a backslash takes
the special meaning away and `$NAME` or `$\x7bNAME\x7d` stands for the value of a variable. A quoted value may go over
several lines. A `#` at the start of a line or after a blank starts a comment. Entries only fill in variables that are
not set yet, and reading stops for good at the first line that is no entry.
-/

namespace QuorumGateway.EnvFile

abbrev Variables := List (String × String)

def lookup (name : String) : Variables → Option String
  | [] => none
  | (n, v) :: rest => if n = name then some v else lookup name rest

/-! ## Lines -/

/-- where in a line a character stands: outside of quotes, after a blank, between quotes, or after a backslash -/
inductive Place where
  | plain
  | blank
  | escaped
  | strong
  | strongEscaped
  | weak
  | weakEscaped
deriving DecidableEq, Repr

def Place.afterPlain (c : Char) : Place :=
  if c = '\\' then .escaped else if c = '"' then .weak else if c = '\'' then .strong else .plain

def Place.next (c : Char) : Place → Place
  | .plain => if Text.isBlank c ∧ c ≠ '\n' ∧ c ≠ '\r' then .blank else Place.afterPlain c
  | .blank => Place.afterPlain c
  | .escaped => .plain
  | .strong => if c = '\\' then .strongEscaped else if c = '\'' then .plain else .strong
  | .strongEscaped => .strong
  | .weak => if c = '\\' then .weakEscaped else if c = '"' then .plain else .weak
  | .weakEscaped => .weak

def nextLine (cs : List Char) : List Char := (cs.dropWhile (· ≠ '\n')).drop 1

/-- whether the first line holds a comment only -/
def isComment (cs : List Char) : Bool :=
  match (cs.takeWhile (· ≠ '\n')).dropWhile Text.isBlank with
  | '#' :: _ => true
  | _ => false

/-- a line that may go on over line breaks inside quotes, in reverse before `done`, and the characters after it; nothing
when the text ends inside of it -/
def takeLine (place : Place) (done : List Char) : List Char → Option (List Char × List Char)
  | [] => if place = .plain then some (done.reverse, []) else none
  | c :: rest =>
    if place = .blank ∧ c = '#' then some (done.reverse, nextLine rest)
    else
      let place := place.next c
      if c = '\n' ∧ place = .plain then some (done.reverse, rest) else takeLine place (c :: done) rest

/-! ## Values -/

/-- whether a character may stand in the name of a variable that a value refers to -/
def isNameChar (c : Char) : Bool := c.isAlphanum

/-- a value as far as it has been read: what it comes to, in reverse, the quotes it stands in, whether a backslash came
last or only a comment may follow, and the name of a variable that is being read, with whether it stands in braces -/
structure Reading where
  output : List Char
  strong : Bool
  weak : Bool
  escaped : Bool
  ended : Bool
  name : Option (Bool × List Char)

def Reading.insert (r : Reading) (find : String → String) (name : List Char) : Reading :=
  { r with output := (find (String.ofList name.reverse)).toList.reverse ++ r.output, name := none }

def Reading.push (r : Reading) (c : Char) : Reading := { r with output := c :: r.output }

/-- a character after a backslash -/
def Reading.unescape (r : Reading) (c : Char) : Option Reading :=
  if c = '\\' ∨ c = '\'' ∨ c = '"' ∨ c = '$' ∨ c = ' ' then some { r.push c with escaped := false }
  else if c = 'n' then some { r.push '\n' with escaped := false }
  else none

/-- a character while the name of a variable is being read -/
def Reading.nameChar (r : Reading) (find : String → String) (c : Char) (braced : Bool) (name : List Char) : Reading :=
  if isNameChar c then { r with name := some (braced, c :: name) }
  else if braced then if c = '\x7d' then r.insert find name else { r with name := some (true, c :: name) }
  else if c = '\x7b' ∧ name = [] then { r with name := some (true, []) }
  else if c = '$' then { r.insert find name with name := some (false, []) }
  else (r.insert find name).push c

def Reading.plainChar (r : Reading) (c : Char) : Reading :=
  if c = '\'' then { r with strong := true }
  else if c = '"' then { r with weak := true }
  else if c = '\\' then { r with escaped := true }
  else if c = ' ' ∨ c = '\t' then { r with ended := true }
  else r.push c

/-- a character between double quotes -/
def Reading.weakChar (r : Reading) (c : Char) : Reading :=
  if c = '"' then { r with weak := false } else if c = '\\' then { r with escaped := true } else r.push c

def Reading.step (r : Reading) (find : String → String) (c : Char) : Option Reading :=
  if r.escaped then r.unescape c
  else if r.strong then some (if c = '\'' then { r with strong := false } else r.push c)
  else
    match r.name with
    | some (braced, name) => some (r.nameChar find c braced name)
    | none =>
      if c = '$' then some { r with name := some (false, []) }
      else some (if r.weak then r.weakChar c else r.plainChar c)

/-- the end of a value; quotes and braces have to be closed -/
def Reading.finish (r : Reading) (find : String → String) : Option String :=
  if r.strong || r.weak then none
  else
    match r.name with
    | some (true, _) => none
    | some (false, name) => some (String.ofList (r.insert find name).output.reverse)
    | none => some (String.ofList r.output.reverse)

def readValue (find : String → String) (r : Reading) : List Char → Option String
  | [] => r.finish find
  | c :: rest =>
    if r.ended then
      if c = ' ' ∨ c = '\t' then readValue find r rest else if c = '#' then r.finish find else none
    else
      match r.step find c with
      | some r => readValue find r rest
      | none => none

/-! ## Entries -/

def startsName (c : Char) : Bool := c.isAlpha || c = '_'

/-- the name at the front of a line, and what follows it and blanks -/
def takeName : List Char → Option (String × List Char)
  | [] => none
  | c :: rest =>
    if startsName c then
      let name := (c :: rest).takeWhile fun c => c.isAlphanum || c = '_' || c = '.'
      some (String.ofList name, ((c :: rest).drop name.length).dropWhile Text.isBlank)
    else none

def splitEntry (line : List Char) : Option (String × List Char) := do
  match ← takeName line with
  | (name, '=' :: value) => return (name, value.dropWhile Text.isBlank)
  | ("export", rest) =>
    match ← takeName rest with
    | (name, '=' :: value) => return (name, value.dropWhile Text.isBlank)
    | _ => none
  | _ => none

/-- the entry of a line: nothing on a blank line or a comment; no result for a line that is no entry -/
def readLine (find : String → String) (line : List Char) : Option (Option (String × String)) :=
  match Text.trimChars line with
  | [] => some none
  | '#' :: _ => some none
  | line => do
    let (name, value) ← splitEntry line
    match value with
    | [] => return some (name, "")
    | '#' :: _ => return some (name, "")
    | value => return some (name, ← readValue find ⟨[], false, false, false, false, none⟩ value)

/-- a name refers to a variable that is set, or else to an earlier entry -/
def resolve (set entries : Variables) (name : String) : String :=
  ((lookup name set).orElse fun _ => lookup name entries).getD ""

/-- the variables after the entries of a text have filled in what is not set; each line takes a character at least,
which bounds their number -/
def fill (fuel : Nat) (set entries : Variables) (cs : List Char) : Variables :=
  match fuel with
  | 0 => set
  | fuel + 1 =>
    if cs.isEmpty then set
    else
      match if isComment cs then some ([], nextLine cs) else takeLine .plain [] cs with
      | none => set
      | some (line, rest) =>
        match readLine (resolve set entries) line with
        | none => set
        | some none => fill fuel set entries rest
        | some (some (name, value)) =>
          let set := if (lookup name set).isSome then set else (name, value) :: set
          fill fuel set ((name, value) :: entries) rest

/-- the variables after the entries of a text have filled in what is not set; a byte order mark is let pass -/
def load (set : Variables) (text : String) : Variables :=
  let cs := match text.toList with
    | '\uFEFF' :: rest => rest
    | cs => cs
  fill (cs.length + 1) set [] cs

end QuorumGateway.EnvFile
