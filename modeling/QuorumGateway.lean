import QuorumGateway.Text.Ascii
import QuorumGateway.Text.Pieces
import QuorumGateway.Text.Blank
import QuorumGateway.Text.Hex
import QuorumGateway.Text.Glyph
import QuorumGateway.Text.Quoted
import QuorumGateway.Time
import QuorumGateway.SortedMap
import QuorumGateway.Decimal.Binary64
import QuorumGateway.Decimal.Shortest
import QuorumGateway.Decimal.Layout
import QuorumGateway.Decimal.Reader
import QuorumGateway.Json.Value
import QuorumGateway.Json.Printer
import QuorumGateway.Json.Lexeme
import QuorumGateway.Json.Draft
import QuorumGateway.Json.DecodeError
import QuorumGateway.Json.Decode
import QuorumGateway.Address
import QuorumGateway.Crypto.Keccak
import QuorumGateway.Crypto.Sha256
import QuorumGateway.Crypto.Curve
import QuorumGateway.Crypto.Signature
import QuorumGateway.Crypto.Secp256k1
import QuorumGateway.ErrorCode
import QuorumGateway.Message.Basic
import QuorumGateway.Message.Signed
import QuorumGateway.Reply
import QuorumGateway.Config.Problem
import QuorumGateway.Error
import QuorumGateway.Config.Settings
import QuorumGateway.Config.Check
import QuorumGateway.Quorum
import QuorumGateway.Pending
import QuorumGateway.Proofs.Pending.Table
import QuorumGateway.RateLimit
import QuorumGateway.Metrics
import QuorumGateway.FanOut
import QuorumGateway.Allowlist.Snapshot
import QuorumGateway.Allowlist.Refresh
import QuorumGateway.Simulation.Pending
import QuorumGateway.Simulation.Allowlist
import QuorumGateway.Config.EnvFile
import QuorumGateway.Config.Layers
import QuorumGateway.Config.Load
import QuorumGateway.Gateway.Setup
import QuorumGateway.Gateway.State
import QuorumGateway.Simulation.Gateway
import QuorumGateway.Log.Record
import QuorumGateway.Log.Filter
import QuorumGateway.Harness.Arguments
import QuorumGateway.Harness.Chance
import QuorumGateway.Harness.Serve
import QuorumGateway.Harness.Notes
import QuorumGateway.Harness.Run
import QuorumGateway.Main
import QuorumGateway.Proofs.Pending.Fates
import QuorumGateway.Proofs.Gateway.Step
import QuorumGateway.Proofs.Gateway.Contract
import QuorumGateway.Proofs.Quorum
import QuorumGateway.Proofs.Config.Network
import QuorumGateway.Proofs.Gateway.History
import QuorumGateway.Proofs.Gateway.Agreement
import QuorumGateway.Proofs.Decimal.Neighbours
import QuorumGateway.Proofs.Decimal.Shortest
import QuorumGateway.Proofs.Decimal.Layout
import QuorumGateway.Proofs.Json.Canonical
import QuorumGateway.Proofs.Gateway.Tolerance
import QuorumGateway.Proofs.Text.Bytes
import QuorumGateway.Proofs.Message.Layout
import QuorumGateway.Proofs.Address
import QuorumGateway.Proofs.Pending.Counts
import QuorumGateway.Proofs.Gateway.Conditions
import QuorumGateway.Proofs.Gateway.Admission
import QuorumGateway.Proofs.Gateway.Interference
import QuorumGateway.Proofs.Gateway.Identity
import QuorumGateway.Proofs.Pending.Accounts
import QuorumGateway.Proofs.Pending.Senders
import QuorumGateway.Proofs.Pending.Turns
import QuorumGateway.Proofs.Pending.Shadow
import QuorumGateway.Proofs.Pending.Isolation
import QuorumGateway.Proofs.RateLimit.Buckets
import QuorumGateway.Proofs.Gateway.Arrival
import QuorumGateway.Proofs.Gateway.Deadlines
import QuorumGateway.Proofs.Gateway.Shutdown
import QuorumGateway.Proofs.Json.Scanning
import QuorumGateway.Proofs.Message.Signing
import QuorumGateway.Proofs.Json.Reading
import QuorumGateway.Proofs.Message.Codec
import QuorumGateway.Proofs.Gateway.Building
import QuorumGateway.Proofs.Gateway.Clock
import QuorumGateway.Proofs.Allowlist.Fetching
import QuorumGateway.Proofs.Metrics
import QuorumGateway.Proofs.Gateway.Conservation
import QuorumGateway.Proofs.Gateway.Forwarding
import QuorumGateway.Proofs.Harness.Serving
import QuorumGateway.Proofs.Harness.Threshold
import QuorumGateway.Proofs.Config.Fields
import QuorumGateway.Proofs.Config.Layering
import QuorumGateway.Proofs.Decimal.Reader
import QuorumGateway.Proofs.Config.Handler
import QuorumGateway.Proofs.Config.Setting
import QuorumGateway.Proofs.Config.Sources
import QuorumGateway.Proofs.Config.Rules
import QuorumGateway.Proofs.Config.Sections
import QuorumGateway.Proofs.Config.Choice
import QuorumGateway.Proofs.Config.Collecting
import QuorumGateway.Proofs.Config.Override
import QuorumGateway.Proofs.Quorum.Completion
import QuorumGateway.Proofs.Pending.Hearing
import QuorumGateway.Proofs.Pending.Expiry
import QuorumGateway.Proofs.FanOut.Race
import QuorumGateway.Proofs.FanOut.Report
import QuorumGateway.Proofs.Gateway.Sends
import QuorumGateway.Proofs.RateLimit.Window
import QuorumGateway.Proofs.Config.Membership
import QuorumGateway.Proofs.Allowlist.Loop
import QuorumGateway.Proofs.Allowlist.Timing
import QuorumGateway.Proofs.Allowlist.Cadence
import QuorumGateway.Proofs.Address.Grammar
import QuorumGateway.Proofs.Config.Spellings
import QuorumGateway.Proofs.Config.Flattening
import QuorumGateway.Proofs.Json.Writing
import QuorumGateway.Proofs.Message.Preimage
