import QuorumGateway.Config.EnvFile
import QuorumGateway.Decimal.Reader
/-!
The command line. Options are read from left to right, and the first one that is wrong, or that asks for the version or
for help, decides. An option may be given once; its value follows it, or is attached with an equals sign. A value that
follows may not start with a minus sign.
-/

namespace QuorumGateway.Harness

/-- what the command line asks for -/
structure Arguments where
  config : Option String
  logLevel : Option String
  method : Option String
  messageId : Option String
  payload : Option String
  privateKey : Option String
  faultyNodes : Option Nat
  printMetrics : Bool
deriving DecidableEq, Repr

namespace Arguments

def none : Arguments := ⟨.none, .none, .none, .none, .none, .none, .none, false⟩

inductive Outcome where
  | run (a : Arguments)
  | version
  | help
  | misuse
deriving DecidableEq, Repr

/-- the options that take a value -/
inductive Setting where
  | config
  | logLevel
  | method
  | messageId
  | payload
  | privateKey
  | faultyNodes
deriving DecidableEq, Repr

def settings : List (String × Setting) :=
  [("--config", .config), ("--log-level", .logLevel), ("--method", .method), ("--message-id", .messageId),
   ("--payload-json", .payload), ("--private-key", .privateKey), ("--faulty-nodes", .faultyNodes)]

/-- a value put where there is none yet -/
def once {α : Type} (old : Option α) (new : α) : Option (Option α) :=
  match old with
  | some _ => .none
  | .none => some (some new)

/-- an option with its value; not twice, and a count has to be one -/
def put (a : Arguments) (o : Setting) (v : String) : Option Arguments :=
  match o with
  | .config => (once a.config v).map fun x => { a with config := x }
  | .logLevel => (once a.logLevel v).map fun x => { a with logLevel := x }
  | .method => (once a.method v).map fun x => { a with method := x }
  | .messageId => (once a.messageId v).map fun x => { a with messageId := x }
  | .payload => (once a.payload v).map fun x => { a with payload := x }
  | .privateKey => (once a.privateKey v).map fun x => { a with privateKey := x }
  | .faultyNodes => do
    let n ← Decimal.word? v
    (once a.faultyNodes n).map fun x => { a with faultyNodes := x }

/-- an option with a value attached, if an argument is one -/
def attached (arg : String) : Option (Setting × String) :=
  match arg.toList with
  | '-' :: 'c' :: '=' :: rest => some (.config, String.ofList rest)
  | '-' :: 'c' :: c :: rest => some (.config, String.ofList (c :: rest))
  | '-' :: '-' :: rest =>
    let name := rest.takeWhile (· ≠ '=')
    match rest.drop name.length with
    | '=' :: value => (settings.find? (·.1 == "--" ++ String.ofList name)).map fun o => (o.2, String.ofList value)
    | _ => .none
  | _ => .none

/-- an option whose value follows, if an argument is one -/
def awaiting (arg : String) : Option Setting :=
  if arg = "-c" then some .config else (settings.find? (·.1 == arg)).map Prod.snd

/-- whether an argument may be the value of the option before it -/
def isValue (arg : String) : Bool :=
  match arg.toList with
  | ['-'] => true
  | '-' :: _ => false
  | _ => true

def readAll (a : Arguments) : List String → Outcome
  | [] => .run a
  | ["--"] => .run a
  | arg :: rest =>
    if arg = "--version" ∨ arg.toList.take 2 = ['-', 'V'] then .version
    else if arg = "--help" ∨ arg.toList.take 2 = ['-', 'h'] then .help
    else if arg = "--print-metrics" then
      if a.printMetrics then .misuse else readAll { a with printMetrics := true } rest
    else
      match awaiting arg, rest with
      | some o, v :: rest =>
        if isValue v then
          match a.put o v with
          | some a => readAll a rest
          | .none => .misuse
        else .misuse
      | some _, [] => .misuse
      | .none, rest =>
        match attached arg with
        | some (o, v) =>
          match a.put o v with
          | some a => readAll a rest
          | .none => .misuse
        | .none => .misuse

/-- the arguments, with environment variables in place of two of the options that are not given -/
def read (args : List String) (environment : EnvFile.Variables) : Outcome :=
  match readAll .none args with
  | .run a =>
    .run
      { a with
        config := a.config.orElse fun _ => EnvFile.lookup "DON_GATEWAY_CONFIG" environment
        privateKey := a.privateKey.orElse fun _ => EnvFile.lookup "DON_GATEWAY_PRIVATE_KEY" environment }
  | outcome => outcome

end Arguments

end QuorumGateway.Harness
