import QuorumGateway.Config.Check
import QuorumGateway.Config.EnvFile
import QuorumGateway.Config.Layers
/-!
Loading the settings. The sources, each laid over the ones before it: what holds if nothing is said, the file
`config/don-gateway`, the file that was asked for, and the environment. A file may be named without its extension. The
first two need not be there; a file that was asked for has to be.
-/

namespace QuorumGateway

/-- what the settings are loaded from: files by their names, and variables with their values -/
structure Surroundings where
  files : List (String × String)
  environment : EnvFile.Variables
deriving Repr

inductive LoadFailure where
  /-- a file is missing or not readable, or a value is of the wrong kind -/
  | unreadable
  /-- the settings were read, but fail the checks -/
  | invalid (problem : Problem)
deriving Repr

def LoadFailure.checkText (p : Problem) : String := "Configuration validation failed:\n\n" ++ p.text

namespace Surroundings

def file? (s : Surroundings) (name : String) : Option String := EnvFile.lookup name s.files

/-- the surroundings with the variables of the file `.env` filled in -/
def withEnvFile (s : Surroundings) : Surroundings :=
  match s.file? ".env" with
  | some text => { s with environment := EnvFile.load s.environment text }
  | none => s

end Surroundings

namespace Settings

/-- a path without leading references to the current directory -/
def relative : List Char → List Char
  | '.' :: '/' :: rest => relative rest
  | cs => cs

/-- the extension of a file name: what follows the last point of its last part, unless the point comes first -/
def hasExtension (extension name : String) : Bool :=
  let part := (name.toList.reverse.takeWhile (· ≠ '/')).reverse
  let ending := part.reverse.takeWhile (· ≠ '.')
  ending.length + 1 < part.length && String.ofList ending.reverse == extension

/-- what is found under a name: nothing, a file of an unknown kind, or a text -/
inductive Found where
  | absent
  | unknownKind
  | text (s : String)

/-- the file with a name, or with that name and the extension added -/
def find (s : Surroundings) (name : String) : Found :=
  let name := String.ofList (relative name.toList)
  match s.file? name with
  | some text => if hasExtension "json" name then .text text else .unknownKind
  | none =>
    match s.file? (name ++ ".json") with
    | some text => .text text
    | none => .absent

/-- the source of a file that need not be there -/
def optionalSource (s : Surroundings) (name : String) : Option (List (String × Json)) :=
  match find s name with
  | .text text => Layers.ofFile text
  | _ => some []

/-- the source of a file that has to be there -/
def requiredSource (s : Surroundings) (name : String) : Option (List (String × Json)) :=
  match find s name with
  | .text text => Layers.ofFile text
  | _ => none

def merged (s : Surroundings) (path : Option String) : Option Json := do
  let shared ← optionalSource s "config/don-gateway"
  let asked ← match path with
    | some name => requiredSource s name
    | none => some []
  return [Layers.standard, shared, asked, Layers.ofVariables s.environment].foldl Layers.lay (.object [])

def loadUnchecked (s : Surroundings) (path : Option String) : Except LoadFailure Settings :=
  match (merged s.withEnvFile path).bind Layers.settings? with
  | some settings => .ok settings
  | none => .error .unreadable

def load (s : Surroundings) (path : Option String) : Except LoadFailure Settings := do
  let settings ← loadUnchecked s path
  match settings.check with
  | .ok () => return settings
  | .error p => .error (.invalid p)

end Settings

end QuorumGateway
