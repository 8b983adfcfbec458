import QuorumGateway.Simulation.Gateway
/-!
One signed request served by a gateway with a local network whose nodes acknowledge every request at once, apart from
some that cannot be reached. The gateway is started, takes the request, and is closed.
-/

namespace QuorumGateway.Harness

open Simulation

structure Request where
  method : String
  messageId : String
  payload : Json
deriving Repr

def acknowledgement (method : String) : Json := .object [("method", .string method), ("success", .bool true)]

/-- the connections of a local network: the first `faulty` members cannot be reached, the others acknowledge -/
def connections (members : List Member) (faulty : Nat) (method : String) : FanOut.Connections :=
  (members.drop faulty).foldl
    (fun cs m => FanOut.Connections.register cs ⟨m.address, .accept, some (acknowledgement method), none⟩) []

def Request.message (r : Request) (S : Crypto.Scheme) (key : S.Key) (network : Network) : Option Message :=
  (Message.unsigned r.messageId r.method network.donId r.payload).sign S key

def delivered? (s : Gateway.State) (callback : Nat) : Option Reply :=
  s.trace.findSome? fun
    | .delivered c reply => if c = callback then some reply else none
    | _ => none

def wasSent (s : Gateway.State) (call : Nat) : Bool :=
  s.trace.any fun
    | .sent c _ => c = call
    | _ => false

/-- what became of a request: what its call returned, whether it was sent and how the sends went, the reply its caller
has, unless the callback was dropped, and the gateway when it is closed -/
structure Served where
  result : Except GatewayError Unit
  sent : Bool
  legs : List FanOut.Leg
  reply : Option Reply
  gateway : Gateway.State

def serve (S : Crypto.Scheme) (b : Gateway.Built) (faulty : Nat) (sender : Address) (m : Message) : Served :=
  let members := b.setup.network.members
  let nodes := connections members faulty m.body.method
  let w := GatewayClock.start S b nodes (some ⟨[sender], .answer⟩)
  let (w, _) := w.startWork
  let (w, result) := w.user m .never
  let reply := match result with
    | .ok () => delivered? w.gateway 0
    | .error e => some (.failure e.code e.text)
  let (w, _) := w.close
  ⟨result, wasSent w.gateway 0, FanOut.legs nodes .never b.setup.timeout members, reply, w.gateway⟩

end QuorumGateway.Harness
