import QuorumGateway.Address
import QuorumGateway.Config.Problem
import QuorumGateway.Config.Settings
import QuorumGateway.Decimal.Layout
/-!
What the settings have to satisfy. Every check reports all problems it finds, in a fixed order: the network, the
handler, the log level. The check of a part is made on its own, and what it reports becomes part of the report of the
whole.
-/

namespace QuorumGateway

namespace AllowlistSettings

def problems (s : AllowlistSettings) : List Problem :=
  (match Address.parse s.contractAddress with
    | .ok _ => []
    | .error fault =>
      [.invalid ("allowlistConfig.contractAddress: " ++ fault.message s.contractAddress)
        "Use the 0x-prefixed 20-byte address of the allow-list contract"])
  ++ (if s.updateFrequencySec = 0 then
      [.invalid "allowlistConfig.updateFrequencySec must be positive"
        "Set how many seconds to wait between allow-list refreshes"]
    else [])
  ++ (if s.updateTimeoutSec = 0 then
      [.invalid "allowlistConfig.updateTimeoutSec must be positive"
        "Set how many seconds a single allow-list fetch may take"]
    else [])

def check (s : AllowlistSettings) : Except Problem Unit := Problem.collect s.problems

end AllowlistSettings

namespace RateSettings

def isRate (x : Decimal.Binary64) : Bool := x.isFinite && x.isPositive

def rateProblems (name : String) (rps : Decimal.Binary64) : List Problem :=
  if isRate rps then []
  else
    [.invalid ("rateLimiterConfig." ++ name ++ " must be positive, got " ++ Decimal.Layout.message.text rps)
      ("Set rateLimiterConfig." ++ name ++ " to a value greater than zero")]

def burstProblems (name : String) (burst : Nat) : List Problem :=
  if burst = 0 then
    [.invalid ("rateLimiterConfig." ++ name ++ " must be positive")
      ("Set rateLimiterConfig." ++ name ++ " to at least 1")]
  else []

def problems (s : RateSettings) : List Problem :=
  rateProblems "globalRPS" s.globalRps ++ rateProblems "perUserRPS" s.perUserRps
    ++ burstProblems "globalBurst" s.globalBurst ++ burstProblems "perUserBurst" s.perUserBurst

def check (s : RateSettings) : Except Problem Unit := Problem.collect s.problems

end RateSettings

namespace HandlerSettings

def timeoutProblems (s : HandlerSettings) : List Problem :=
  if s.requestTimeoutMillis = 0 then
    [.invalid "requestTimeoutMillis must be positive"
      "Set requestTimeoutMillis to how long a caller may wait for quorum"]
  else []

/-- the problems of the sections and of the settings outside of them, one after the other -/
def problems (s : HandlerSettings) : List Problem :=
  (match s.allowlist with
    | none => []
    | some a => a.problems)
  ++ (match s.rateLimiter with
    | none => []
    | some r => r.problems)
  ++ s.timeoutProblems

def check (s : HandlerSettings) : Except Problem Unit :=
  Problem.collect
    ((match s.allowlist with
        | none => []
        | some a => Problem.found a.check)
      ++ (match s.rateLimiter with
        | none => []
        | some r => Problem.found r.check)
      ++ s.timeoutProblems)

def malformed (e : DecodeError) : Problem :=
  .invalid ("handler config is malformed: " ++ e.message)
    "Check field names and types against the handler config reference"

/-- the handler settings of a document, before they are checked; null stands for the standard settings -/
def decode (raw : Json) : Except DecodeError HandlerSettings :=
  if raw.isNull then .ok standard else Decode.ofJson record.read raw

/-- the problems of a document that should hold handler settings -/
def problemsOf (raw : Json) : List Problem :=
  match decode raw with
  | .error e => [malformed e]
  | .ok s => s.problems

def parse (raw : Json) : Except Problem HandlerSettings :=
  match decode raw with
  | .error e => .error (malformed e)
  | .ok s =>
    match s.check with
    | .error p => .error p
    | .ok () => .ok s

end HandlerSettings

namespace Network

/-- an address as it is compared: without blanks around it and in small letters -/
def normalAddress (address : String) : String := Text.lower (Text.trim address)

/-- the problems of the members in turn; `seen` holds the addresses of those before -/
def memberProblems (seen : List String) : List Member → List Problem
  | [] => []
  | m :: rest =>
    let address := normalAddress m.address
    if address = "" then
      .invalid ("DON member '" ++ m.name ++ "' has an empty address")
        "Give every member the address its connection is registered under" :: memberProblems seen rest
    else if seen.contains address then
      .invalid ("DON member address '" ++ m.address ++ "' is listed twice")
        "Each node may appear once; duplicates would count twice toward quorum" :: memberProblems seen rest
    else memberProblems (address :: seen) rest

def sizeProblems (d : Network) : List Problem :=
  if d.members.isEmpty then
    [.missing "don.members" "routing requests to a DON" "don.members in the config file or DON_GATEWAY__DON__MEMBERS"]
  else if d.members.length ≤ d.f then
    [.invalid
      ("don.f is " ++ Text.ofNat d.f ++ " but the DON has only " ++ Text.ofNat d.members.length ++ " members")
      "F counts tolerated faulty nodes and must be smaller than the member count"]
  else []

def problems (d : Network) : List Problem := d.sizeProblems ++ memberProblems [] d.members

def check (d : Network) : Except Problem Unit := Problem.collect d.problems

end Network

namespace Settings

def loggingProblems (l : Logging) : List Problem :=
  if Text.allBlank l.level then
    [.invalid "logging.level is empty" "Set logging.level to a tracing filter such as 'info' or 'don_gateway=debug'"]
  else []

/-- the problems of all parts, one after the other -/
def problems (s : Settings) : List Problem :=
  s.network.problems ++ HandlerSettings.problemsOf s.network.handler ++ loggingProblems s.logging

def check (s : Settings) : Except Problem Unit :=
  Problem.collect
    (Problem.found s.network.check ++ Problem.found (HandlerSettings.parse s.network.handler)
      ++ loggingProblems s.logging)

end Settings

end QuorumGateway
