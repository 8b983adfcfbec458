import QuorumGateway.Harness.Serve
import QuorumGateway.Log.Record
import QuorumGateway.Text.Quoted
/-!
The log records of a run: what the program says of its own steps, and what the parts of the gateway say of theirs. What
the local network does at one instant is told in a fixed order: first the sends, then the responses.
-/

namespace QuorumGateway.Harness

def version : String := "0.1.0"

namespace Notes

/-! ## Origins -/

/-- the origin of the records of the program itself -/
def program : String := "don_gateway"

def part (name : String) : String := program ++ "::" ++ name

def handler (level : Log.Level) (message : String) (fields : List (String × Json)) : Log.Record :=
  ⟨level, part "handler", message, fields⟩

/-- the record of an operation that took time, by what it came to -/
def operation (component name : String) : Except String String → Log.Record
  | .ok result =>
    ⟨.debug, part "logging", "Operation completed",
      [("component", .string component), ("operation", .string name), ("result", .string result)]⟩
  | .error e =>
    ⟨.warn, part "logging", "Operation failed",
      [("component", .string component), ("operation", .string name), ("error", .string e)]⟩

/-! ## The steps of the program -/

def banner : Log.Record := ⟨.info, program, "Starting DON gateway harness v" ++ version, []⟩

def step (number : Nat) (name detail : String) : Log.Record :=
  ⟨.info, program, "[" ++ Text.ofNat number ++ "/4] " ++ name ++ " - " ++ detail,
    [("step", .nat number), ("total", .nat 4)]⟩

def configured (n : Network) : Log.Record :=
  step 1 "Configuration"
    ("DON '" ++ n.donId ++ "', " ++ Text.ofNat n.members.length ++ " members, F=" ++ Text.ofNat n.f)

def connected (n : Network) (faulty : Nat) : Log.Record :=
  step 2 "Simulated DON"
    (Text.ofNat (n.members.length - faulty) ++ " reachable, " ++ Text.ofNat (min faulty n.members.length)
      ++ " unreachable")

def requested (m : Message) (sender : Address) : Log.Record :=
  step 4 "Request" (m.body.messageId ++ " from " ++ sender.text)

def finished (success : Bool) : Log.Record := ⟨.info, program, "Harness finished", [("success", .bool success)]⟩

/-! ## The work in the background -/

/-- the record that the refreshing of the allow-list starts, and that of its first turn -/
def refreshStarted (a : AllowlistSettings) (contract : Address) (senders : Nat) : List Log.Record :=
  [⟨.info, part "allowlist", "Allow-list refresh loop started",
      [("contract", .string contract.text),
       ("frequency_secs", .float (Decimal.Binary64.ofNat a.updateFrequencySec))]⟩,
   operation "allowlist" "refresh" (.ok (Text.ofNat senders))]

def started (b : Gateway.Built) : List Log.Record :=
  let n := b.setup.network
  [handler .info "Starting FunctionsHandler"
      [("don_id", .string n.donId), ("members", .nat n.members.length), ("f", .nat n.f)],
   step 3 "Handler" "started"]
  ++ match b.setup.settings.allowlist, b.contract with
    | some a, some contract => refreshStarted a contract 1
    | _, _ => []

def closed (b : Gateway.Built) : List Log.Record :=
  handler .info "Closing FunctionsHandler" [("don_id", .string b.setup.network.donId)]
  :: (match b.contract with
    | some contract =>
      [⟨.info, part "allowlist", "Allow-list refresh loop stopped", [("contract", .string contract.text)]⟩]
    | none => [])
  ++ [⟨.debug, part "pending", "Pending request sweeper stopped", []⟩]

/-! ## The request -/

def admitted (m : Message) : Log.Record :=
  handler .debug "Accepted user message"
    [("sender", .string m.body.sender), ("id", .string m.body.messageId),
     ("method", .string (Gateway.methodLabel m.body.method))]

def refused (m : Message) (e : GatewayError) : Log.Record :=
  handler .debug "Rejected user message"
    [("sender", .string m.body.sender), ("id", .string m.body.messageId), ("reason", .string e.label),
     ("error", .string e.text)]

def sent? (p : Member × FanOut.Leg) : Option Log.Record :=
  p.2.error.map fun e =>
    ⟨.debug, part "don", "Send to node failed",
      [("node", .string p.1.name), ("address", .string p.1.address), ("error", .string e)]⟩

def failures (failed : List (String × String)) : String :=
  "[" ++ Text.join ", " (failed.map fun (a, e) =>
    "(" ++ Text.Quoted.text a ++ ", " ++ Text.Quoted.text e ++ ")") ++ "]"

/-- the records of the responses up to the one that settles the request -/
def responses (q : Quorum) (key : RequestKey) (nodes : List Member) : List Log.Record :=
  (nodes.take q.threshold).zipIdx.map fun (node, i) =>
    let about := [("request", Json.string key.text), ("node", .string node.address)]
    if i + 1 < q.threshold then handler .debug "Recorded node response" (about ++ [("count", .nat (i + 1))])
    else handler .debug "Request resolved" (about ++ [("code", .string ErrorCode.noError.text)])

def served (b : Gateway.Built) (faulty : Nat) (m : Message) (s : Served) : List Log.Record :=
  let members := b.setup.network.members
  let key := RequestKey.ofMessage m
  let sends := admitted m :: (members.zip s.legs).filterMap sent?
  match s.result with
  | .ok () =>
    sends ++ [operation "don" "fan_out" (.ok (Text.ofNat (FanOut.report s.legs).succeeded))]
      ++ responses b.setup.quorum key (members.drop faulty)
  | .error e =>
    if s.sent then
      sends ++
        [operation "don" "fan_out" (.error e.text),
         handler .warn "Fan-out could not reach enough nodes"
           [("request", .string key.text), ("failures", .string (failures (FanOut.failures s.legs)))]]
    else [refused m e]

end Notes

end QuorumGateway.Harness
