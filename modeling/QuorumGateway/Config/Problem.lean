import QuorumGateway.Text.Ascii
/-!
Problems with the settings, worded for an operator: each says what is wrong and what to change. Checks report all
problems they find at once.
-/

namespace QuorumGateway

inductive Problem where
  /-- a setting has an unusable value -/
  | invalid (message hint : String)
  /-- a setting that is needed is absent -/
  | missing (setting context source : String)
  | several (problems : List Problem)
deriving Repr, Inhabited

namespace Problem

/-! ## Wording -/

/-- a numbered entry of a list of problems, after an empty line -/
def entry (number : Nat) (text : String) : String := "\n" ++ Text.ofNat number ++ ". " ++ text ++ "\n"

mutual

def text : Problem → String
  | .invalid message hint => "Invalid configuration: " ++ message ++ "\n\nHow to fix: " ++ hint
  | .missing setting context source =>
    "Missing required configuration: " ++ setting ++ "\n\nRequired for: " ++ context ++ "\nSet via: " ++ source
  | .several problems => "Multiple configuration errors:\n" ++ entries 1 problems

/-- the entries of a list of problems, counted from `number` -/
def entries (number : Nat) : List Problem → String
  | [] => ""
  | p :: rest => entry number (text p) ++ entries (number + 1) rest

end

def kind : Problem → String
  | .invalid _ _ => "Invalid"
  | .missing _ _ _ => "MissingRequired"
  | .several _ => "Multiple"

def count : Problem → Nat
  | .several problems => problems.length
  | _ => 1

/-! ## Reports -/

/-- a problem as a list: several problems as they are, any other alone -/
def parts : Problem → List Problem
  | .several problems => problems
  | p => [p]

/-- a list of problems as one report: nothing is wrong, a problem alone, or several -/
def report : List Problem → Except Problem Unit
  | [] => .ok ()
  | [p] => .error p
  | problems => .error (.several problems)

/-- the report of problems some of which are lists themselves; lists inside those lists stay as they are -/
def collect (problems : List Problem) : Except Problem Unit := report (problems.flatMap parts)

/-- what a check found, for the report of a larger one -/
def found {α : Type} : Except Problem α → List Problem
  | .ok _ => []
  | .error p => [p]

end Problem

end QuorumGateway
