import QuorumGateway.Decimal.Reader
import QuorumGateway.Log.Record
import QuorumGateway.Text.Blank
import QuorumGateway.Text.Pieces
/-!
Which log records are written. A filter is a list of directives with commas between them: a level for everything, an
origin for all of its records, or an origin with a level. An origin stands for all origins that start with it, and of
several directives that apply the one with the longest origin decides. A directive for a span, in brackets, applies to
no record, because the program opens none. A filter without directives lets errors pass.
-/

namespace QuorumGateway.Log

/-- a directive: the origin it is for, if any, the verbosity it lets pass, and whether it is for a span -/
structure Directive where
  origin : Option String
  verbosity : Nat
  spanned : Bool
deriving DecidableEq, Repr

inductive FilterFault where
  | directive
  | level
deriving DecidableEq, Repr

def levelNames : List (String × Nat) :=
  [("off", 0), ("error", 1), ("warn", 2), ("info", 3), ("debug", 4), ("trace", 5)]

def FilterFault.text : FilterFault → String
  | .directive => "invalid filter directive"
  | .level =>
    "error parsing level filter: expected one of "
      ++ Text.join ", " (levelNames.map fun (name, _) => "\"" ++ name ++ "\"") ++ ", or a number 0-5"

/-- the verbosity that a text names, in any letter case, or counts -/
def verbosity? (s : String) : Option Nat :=
  match Decimal.word? s with
  | some n => if n ≤ 5 then some n else none
  | none => (levelNames.find? fun (name, _) => name == Text.lower s).map Prod.snd

def everything : Nat := 5

namespace Directive

/-- where in a directive a character stands -/
inductive Stage where
  | start
  | word
  | span
  | field (isEmpty : Bool)
  | fields
  | spanEnd
  | level (start : Nat)
deriving DecidableEq, Repr

structure Reading where
  stage : Stage
  origin : Option String
  spanned : Bool

def mayStart (c : Char) : Bool := c.isAlphanum || c = '-' || c = ':' || c = '_' || 128 ≤ c.toNat

/-- the next character, at position `i`; `upTo` gives the text before a position -/
def Reading.step (r : Reading) (upTo : Nat → String) (i : Nat) (c : Char) : Option Reading :=
  match r.stage with
  | .start =>
    if c = '[' then some { r with stage := .span, spanned := true }
    else if mayStart c then some { r with stage := .word }
    else none
  | .word =>
    if c = '=' then some { r with stage := .level (i + 1), origin := some (upTo i) }
    else if c = '[' then some { r with stage := .span, origin := some (upTo i), spanned := true }
    else some r
  | .span =>
    if c = ']' then some { r with stage := .spanEnd }
    else if c = '\x7b' then some { r with stage := .field true }
    else some r
  | .field isEmpty =>
    if c = '\x7d' then if isEmpty then none else some { r with stage := .fields }
    else some { r with stage := .field false }
  | .fields => if c = ']' then some { r with stage := .spanEnd } else none
  | .spanEnd => if c = '=' then some { r with stage := .level (i + 1) } else none
  | .level _ => some r

/-- the characters of a directive from position `i` on -/
def scan (upTo : Nat → String) (r : Reading) (i : Nat) : List Char → Option Reading
  | [] => some r
  | c :: rest =>
    match r.step upTo i c with
    | some r => scan upTo r (i + 1) rest
    | none => none

/-- the directive that a text spells; positions are those of the text without blanks around it, but the parts are cut
out of the whole text, so that a level with a blank beside it is taken for an origin -/
def parse (s : String) : Except FilterFault Directive :=
  let whole := s.toList
  match scan (fun i => String.ofList (whole.take i)) ⟨.start, none, false⟩ 0 (Text.trimChars whole) with
  | none => .error .directive
  | some r =>
    match r.stage with
    | .word =>
      match verbosity? s with
      | some v => .ok ⟨none, v, r.spanned⟩
      | none => .ok ⟨some s, everything, r.spanned⟩
    | .level start =>
      let level := String.ofList (whole.drop start)
      if level = "" then .ok ⟨r.origin, everything, r.spanned⟩
      else
        match verbosity? level with
        | some v => .ok ⟨r.origin, v, r.spanned⟩
        | none => .error .level
    | .spanEnd => .ok ⟨r.origin, everything, r.spanned⟩
    | _ => .error .directive

/-- how specific a directive is -/
def weight (d : Directive) : Nat :=
  match d.origin with
  | none => 0
  | some s => s.length + 1

def applies (d : Directive) (r : Record) : Bool :=
  !d.spanned && match d.origin with
    | none => true
    | some s => s.toList.isPrefixOf r.origin.toList

end Directive

abbrev Filter := List Directive

namespace Filter

/-- the filter that lets errors pass -/
def standard : Filter := [⟨none, 1, false⟩]

def parse (s : String) : Except FilterFault Filter := do
  let ds ← ((Text.pieces ',' s).filter (· ≠ "")).mapM Directive.parse
  return if ds.isEmpty then standard else ds

/-- the directive that decides about a record: the most specific one that applies, of equal ones the last -/
def deciding (f : Filter) (r : Record) : Option Directive :=
  List.foldl (fun best d =>
    if d.applies r then
      match best with
      | some b => if b.weight ≤ d.weight then some d else best
      | none => some d
    else best) none f

def passes (f : Filter) (r : Record) : Bool :=
  match f.deciding r with
  | some d => r.level.verbosity ≤ d.verbosity
  | none => false

/-- the filter of an environment variable, unless it is not set or spells none, and else that of the settings -/
def choose (fromVariable : Option String) (level : String) : Except FilterFault Filter :=
  match fromVariable.map parse with
  | some (.ok f) => .ok f
  | _ => parse level

end Filter

end QuorumGateway.Log
