import QuorumGateway.Json.Decode
/-!
The settings of a gateway: logging, the network it serves, and inside the network the settings of its request handler.
The handler's settings are kept as a document until the handler is built, so that they can be checked on their own. A
field of theirs goes by its name or by that name in small letters.
-/

namespace QuorumGateway

open Decimal Decode

/-! ## The request handler -/

/-- where the list of allowed senders is fetched from, and how often -/
structure AllowlistSettings where
  chainId : Nat
  contractAddress : String
  blockConfirmations : Nat
  updateFrequencySec : Nat
  updateTimeoutSec : Nat
deriving DecidableEq, Repr

/-- how many requests per second are admitted, and how many at once -/
structure RateSettings where
  globalRps : Binary64
  globalBurst : Nat
  perUserRps : Binary64
  perUserBurst : Nat
deriving DecidableEq, Repr

/-- the settings of the request handler; a cap of zero is no cap -/
structure HandlerSettings where
  allowlist : Option AllowlistSettings
  rateLimiter : Option RateSettings
  maxPendingPerUser : Nat
  maxPendingGlobal : Nat
  requestTimeoutMillis : Nat
deriving DecidableEq, Repr

/-- a field that also goes by its name in small letters -/
def settingField {σ α : Type} (name : String) (absence : Absence) (read : Reader α) (put : σ → α → σ) :
    Decode.Field σ :=
  { Decode.Field.of name absence read put with aliases := [Text.lower name] }

namespace AllowlistSettings

def record : Record AllowlistSettings where
  title := "AllowlistConfig"
  blank := ⟨0, "", 0, 0, 0⟩
  fields :=
    [settingField "chainID" .refused u64 fun s v => { s with chainId := v },
     settingField "contractAddress" .refused string fun s v => { s with contractAddress := v },
     settingField "blockConfirmations" .accepted u64 fun s v => { s with blockConfirmations := v },
     settingField "updateFrequencySec" .refused u64 fun s v => { s with updateFrequencySec := v },
     settingField "updateTimeoutSec" .refused u64 fun s v => { s with updateTimeoutSec := v }]

def toJson (s : AllowlistSettings) : Json :=
  .object
    [("chainID", .nat s.chainId), ("contractAddress", .string s.contractAddress),
     ("blockConfirmations", .nat s.blockConfirmations), ("updateFrequencySec", .nat s.updateFrequencySec),
     ("updateTimeoutSec", .nat s.updateTimeoutSec)]

end AllowlistSettings

namespace RateSettings

def record : Record RateSettings where
  title := "RateLimiterConfig"
  blank := ⟨Binary64.ofNat 0, 0, Binary64.ofNat 0, 0⟩
  fields :=
    [settingField "globalRPS" .refused float fun s v => { s with globalRps := v },
     settingField "globalBurst" .refused u32 fun s v => { s with globalBurst := v },
     settingField "perUserRPS" .refused float fun s v => { s with perUserRps := v },
     settingField "perUserBurst" .refused u32 fun s v => { s with perUserBurst := v }]

def toJson (s : RateSettings) : Json :=
  .object
    [("globalRPS", .float s.globalRps), ("globalBurst", .nat s.globalBurst), ("perUserRPS", .float s.perUserRps),
     ("perUserBurst", .nat s.perUserBurst)]

end RateSettings

namespace HandlerSettings

/-- how long a request waits if nothing else is said -/
def standardTimeoutMillis : Nat := 30000

def standard : HandlerSettings := ⟨none, none, 0, 0, standardTimeoutMillis⟩

def record : Record HandlerSettings where
  title := "HandlerConfig"
  blank := standard
  fields :=
    [settingField "allowlistConfig" .accepted (optional AllowlistSettings.record.read)
       fun s v => { s with allowlist := v },
     settingField "rateLimiterConfig" .accepted (optional RateSettings.record.read)
       fun s v => { s with rateLimiter := v },
     settingField "maxPendingRequestPerUser" .accepted size fun s v => { s with maxPendingPerUser := v },
     settingField "maxPendingRequestsGlobal" .accepted size fun s v => { s with maxPendingGlobal := v },
     settingField "requestTimeoutMillis" .accepted u64 fun s v => { s with requestTimeoutMillis := v }]

def toJson (s : HandlerSettings) : Json :=
  .object
    [("allowlistConfig", match s.allowlist with | none => .null | some a => a.toJson),
     ("rateLimiterConfig", match s.rateLimiter with | none => .null | some r => r.toJson),
     ("maxPendingRequestPerUser", .nat s.maxPendingPerUser), ("maxPendingRequestsGlobal", .nat s.maxPendingGlobal),
     ("requestTimeoutMillis", .nat s.requestTimeoutMillis)]

end HandlerSettings

/-! ## The network -/

/-- a node of the network, under the address its connection is known by -/
structure Member where
  name : String
  address : String
deriving DecidableEq, Repr

/-- the network that is served: its nodes, the number of faulty ones it tolerates, and its handler's settings -/
structure Network where
  donId : String
  handlerName : String
  handler : Json
  members : List Member
  f : Nat
deriving Repr

namespace Member

def record : Record Member where
  title := "NodeConfig"
  blank := ⟨"", ""⟩
  fields :=
    [.of "name" .refused string fun m v => { m with name := v },
     .of "address" .refused string fun m v => { m with address := v }]

def toJson (m : Member) : Json := .object [("name", .string m.name), ("address", .string m.address)]

end Member

namespace Network

def standardHandlerName : String := "functions"

def blank : Network := ⟨"", standardHandlerName, .null, [], 0⟩

/-- an address that is a small number in hexadecimal digits -/
def smallAddress (n : Nat) : String :=
  let digits := Nat.toDigits 16 n
  "0x" ++ String.ofList (List.replicate (40 - digits.length) '0' ++ digits)

/-- a local network of four nodes, one of which may be faulty -/
def local4 : Network :=
  { donId := "local_don"
    handlerName := standardHandlerName
    handler := .null
    members := [1, 2, 3, 4].map fun n => ⟨"node" ++ Text.ofNat n, smallAddress n⟩
    f := 1 }

def record : Record Network where
  title := "DonConfig"
  blank := blank
  fields :=
    [.of "don_id" .accepted string fun d v => { d with donId := v },
     .of "handler_name" .accepted string fun d v => { d with handlerName := v },
     .of "handler_config" .accepted json fun d v => { d with handler := v },
     .of "members" .accepted (sequence Member.record.read) fun d v => { d with members := v },
     { Decode.Field.of "f" .accepted size (fun d v => { d with f := v }) with aliases := ["F"] }]

def toJson (d : Network) : Json :=
  .object
    [("don_id", .string d.donId), ("handler_name", .string d.handlerName), ("handler_config", d.handler),
     ("members", .array (d.members.map Member.toJson)), ("f", .nat d.f)]

/-- whether a node is a member, by its address without regard to letter case -/
def isMember (d : Network) (address : String) : Bool := d.members.any fun m => Text.sameIgnoringCase m.address address

end Network

/-! ## The gateway -/

inductive LogFormat where
  | pretty
  | json
deriving DecidableEq, Repr

namespace LogFormat

def text : LogFormat → String
  | .pretty => "pretty"
  | .json => "json"

def known : List (String × LogFormat) := [("pretty", .pretty), ("json", .json)]

end LogFormat

/-- the settings of log output: which records are written, and how -/
structure Logging where
  level : String
  format : LogFormat
deriving DecidableEq, Repr

structure Settings where
  logging : Logging
  network : Network
deriving Repr

namespace Logging

def standard : Logging := ⟨"info", .pretty⟩

def record : Record Logging where
  title := "LoggingConfig"
  blank := standard
  fields :=
    [.of "level" .accepted string fun l v => { l with level := v },
     .of "format" .accepted (variant LogFormat.known) fun l v => { l with format := v }]

def toJson (l : Logging) : Json := .object [("level", .string l.level), ("format", .string l.format.text)]

end Logging

namespace Settings

def standard : Settings := ⟨Logging.standard, Network.local4⟩

def record : Record Settings where
  title := "GatewayConfig"
  blank := standard
  fields :=
    [.of "logging" .accepted Logging.record.read fun s v => { s with logging := v },
     .of "don" .accepted Network.record.read fun s v => { s with network := v }]

def toJson (s : Settings) : Json := .object [("logging", s.logging.toJson), ("don", s.network.toJson)]

end Settings

end QuorumGateway
