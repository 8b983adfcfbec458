import QuorumGateway.Error
import QuorumGateway.Pending
import QuorumGateway.RateLimit
/-!
What a gateway is built from: the settings of its handler and the network it serves, both checked. Building fails with
the first objection: to the handler's settings, to the network, to an allow-list without a source, to a rate without a
representable period.
-/

namespace QuorumGateway.Gateway

/-- the fixed part of a gateway -/
structure Setup where
  settings : HandlerSettings
  network : Network
deriving Repr

namespace Setup

def quorum (g : Setup) : Quorum := ⟨g.network.members.length, g.network.f⟩

def limits (g : Setup) : Pending.Limits := ⟨g.settings.maxPendingGlobal, g.settings.maxPendingPerUser⟩

def timeout (g : Setup) : Nat := Time.millis g.settings.requestTimeoutMillis

def sweepInterval (g : Setup) : Nat := Pending.sweepInterval g.timeout

end Setup

def noSource : Problem :=
  .missing "allow-list source" "allowlistConfig is set" "FunctionsHandler::from_config"

/-- the contract of the allow-list, if there is to be one; its source has to be there -/
def contract? (settings : HandlerSettings) (hasSource : Bool) : Except Problem (Option Address) :=
  match settings.allowlist with
  | none => .ok none
  | some a =>
    if !hasSource then .error noSource
    else
      match Address.parse a.contractAddress with
      | .ok contract => .ok (some contract)
      | .error fault =>
        .error (.invalid ("allowlistConfig.contractAddress: " ++ fault.message a.contractAddress)
          "Use the 0x-prefixed 20-byte address of the allow-list contract")

/-- the budgets of the rate limiter, if there is to be one -/
def limiter? (settings : HandlerSettings) : Except Problem (Option RateLimit.Limiter) :=
  match settings.rateLimiter with
  | none => .ok none
  | some r => (RateLimit.Limiter.ofSettings r).map some

/-- what is built: the fixed part, the contract of the allow-list, and full budgets -/
structure Built where
  setup : Setup
  contract : Option Address
  limiter : Option RateLimit.Limiter
deriving Repr

/-- a gateway built from a document with its handler's settings, a network, and possibly a source of allowed senders -/
def build (raw : Json) (network : Network) (hasSource : Bool) : Except Problem Built := do
  let settings ← HandlerSettings.parse raw
  network.check
  let contract ← contract? settings hasSource
  let limiter ← limiter? settings
  return ⟨⟨settings, network⟩, contract, limiter⟩

end QuorumGateway.Gateway
