import QuorumGateway.Config.Load
import QuorumGateway.Harness.Arguments
import QuorumGateway.Harness.Chance
import QuorumGateway.Harness.Notes
import QuorumGateway.Log.Filter
/-!
The program: it loads the settings, builds a gateway over a local network, serves one request, and prints the reply and,
if asked to, the metrics. What it does is logged step by step. The first thing that goes wrong ends it.
-/

namespace QuorumGateway.Harness

/-- a piece of output: a line, or a log record -/
inductive Output where
  | line (s : String)
  | record (r : Log.Record)
deriving Repr

/-- a run of the program: its exit code, what it put out in order, the form of its log records, and the error it ended
with, if any -/
structure Run where
  exit : Nat
  output : List Output
  format : LogFormat
  error : Option String
deriving Repr

def versionLine : String := "don-gateway " ++ version

def usage : List String :=
  ["Route one signed request through a simulated DON", "", "Usage: don-gateway [OPTIONS]", "", "Options:",
   "  -c, --config <CONFIG>              Config file path [env: DON_GATEWAY_CONFIG]",
   "      --log-level <LOG_LEVEL>        Log filter; overrides logging.level from the config",
   "      --method <METHOD>              Request method [default: secrets_list]",
   "      --message-id <MESSAGE_ID>      Message id; random when omitted",
   "      --payload-json <PAYLOAD_JSON>  JSON payload [default: an empty object]",
   "      --private-key <PRIVATE_KEY>    Hex secp256k1 private key of the sender; random when omitted",
   "      --faulty-nodes <FAULTY_NODES>  Number of DON members left unreachable [default: 0]",
   "      --print-metrics                Print Prometheus metrics after the request completes",
   "  -h, --help                         Print help",
   "  -V, --version                      Print version"]

def misuse : String := "the command line is not understood"

/-! ## The parts of the request -/

/-- the digits of a key, of which any number of `0x` in front is let pass -/
def keyDigits : List Char → List Char
  | '0' :: 'x' :: rest => keyDigits rest
  | cs => cs

def signingKey (given : Option String) (chance : Chance) : Except String Crypto.Secp256k1.Key :=
  match given with
  | none =>
    match chance.key with
    | some key => .ok key
    | none => .error "generated an invalid key"
  | some s =>
    match Crypto.Secp256k1.Key.parse (String.ofList (keyDigits s.toList)) with
    | .ok key => .ok key
    | .error (.hex _) => .error "private key is not hex"
    | .error .unusable => .error "invalid secp256k1 private key"

def request (a : Arguments) (chance : Chance) (payload : Json) : Request :=
  ⟨a.method.getD "secrets_list", a.messageId.getD chance.messageId, payload⟩

/-! ## The program -/

def failed (format : LogFormat) (output : List Output) (error : String) : Run := ⟨1, output, format, some error⟩

def replyLines (r : Reply) : List Output := (Text.pieces '\n' (r.toJson.indented 0)).map Output.line

def metricLines (m : Metrics) : List Output := (m.lines ++ [""]).map Output.line

/-- the part of a run after the gateway has been built; `logged` keeps the records that pass the filter -/
def serveRequest (a : Arguments) (chance : Chance) (b : Gateway.Built) (key : Crypto.Secp256k1.Key)
    (format : LogFormat) (logged : List Log.Record → List Output) : Run :=
  let network := b.setup.network
  let faulty := a.faultyNodes.getD 0
  let output := logged (Notes.started b)
  match Json.ofText (a.payload.getD "\x7b\x7d") with
  | .error _ => failed format output "--payload-json is not valid JSON"
  | .ok payload =>
    match (request a chance payload).message Crypto.Secp256k1.scheme key network with
    | none => failed format output (GatewayError.signing "signature error").text
    | some m =>
      let sender := Crypto.Secp256k1.address key
      let served := serve Crypto.Secp256k1.scheme b faulty sender m
      let output := output ++ logged (Notes.requested m sender :: Notes.served b faulty m served)
      match served.reply with
      | none => failed format output "handler dropped the request without a result"
      | some reply =>
        let metrics := if a.printMetrics then metricLines served.gateway.metrics else []
        ⟨if reply.isSuccess then 0 else 1,
          output ++ replyLines reply ++ logged (Notes.closed b) ++ metrics ++ logged [Notes.finished reply.isSuccess],
          format, none⟩

def runWith (a : Arguments) (chance : Chance) (environment : EnvFile.Variables) (s : Settings) : Run :=
  let format := s.logging.format
  match Log.Filter.choose (EnvFile.lookup "RUST_LOG" environment) (a.logLevel.getD s.logging.level) with
  | .error fault => failed format [] fault.text
  | .ok filter =>
    let logged (rs : List Log.Record) : List Output := (rs.filter filter.passes).map Output.record
    let output := logged [Notes.banner, Notes.configured s.network]
    match signingKey a.privateKey chance with
    | .error e => failed format output e
    | .ok key =>
      let output := output ++ logged [Notes.connected s.network (a.faultyNodes.getD 0)]
      match Gateway.build s.network.handler s.network true with
      | .error p => failed format output p.text
      | .ok b =>
        let r := serveRequest a chance b key format logged
        { r with output := output ++ r.output }

def run (args : List String) (chance : Chance) (surroundings : Surroundings) : Run :=
  match Arguments.read args surroundings.environment with
  | .version => ⟨0, [.line versionLine], .pretty, none⟩
  | .help => ⟨0, usage.map Output.line, .pretty, none⟩
  | .misuse => ⟨2, [], .pretty, some misuse⟩
  | .run a =>
    match Settings.load surroundings a.config with
    | .error .unreadable => failed .pretty [] "configuration could not be loaded"
    | .error (.invalid p) => failed .pretty [] (LoadFailure.checkText p)
    | .ok s => runWith a chance surroundings.withEnvFile.environment s

/-! ## Surroundings -/

/-- the variables in a list of entries, each `NAME=value` and a null character behind it -/
def variablesOf (entries : String) : EnvFile.Variables :=
  (Text.pieces '\x00' entries).filterMap fun entry =>
    let name := entry.toList.takeWhile (· ≠ '=')
    match entry.toList.drop name.length with
    | _ :: value => some (String.ofList name, String.ofList value)
    | [] => none

/-- the names of the files that a run may read -/
def fileNames (args : List String) (environment : EnvFile.Variables) : List String :=
  let asked := match Arguments.read args environment with
    | .run a => a.config.toList.map fun path => String.ofList (Settings.relative path.toList)
    | _ => []
  ".env" :: ("config/don-gateway" :: asked).flatMap fun name => [name, name ++ ".json"]

/-! ## What is printed -/

def Output.text (format : LogFormat) : Output → String
  | .line s => s
  | .record r =>
    match format with
    | .pretty => r.line
    | .json => r.toJson.compact

def errorLine (error : String) : String := "Error: " ++ error

end QuorumGateway.Harness
