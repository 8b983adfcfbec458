import QuorumGateway.Gateway.State
import QuorumGateway.Simulation.Pending
/-!
A gateway with a local network on a virtual clock. Sends take the time their nodes take for them, the allow-list and the
sweeper take their turns, and time passes only while somebody waits. What falls due at one instant happens in a fixed
order: first the call that is waited for, then calls in the background in the order in which they were made, then the
allow-list, then the sweeper.
-/

namespace QuorumGateway.Simulation

open Gateway (Setup)

/-- the end of a send: its instant, and the answer of the node with the address it comes from, if there is one -/
structure Landing where
  ends : Nat
  answer : Option (String × Message)
deriving Repr

/-- the sends of a call: how each will have gone, and the ends still to come, in the order of the members -/
structure Flight where
  call : Nat
  legs : List FanOut.Leg
  landings : List Landing
deriving Repr

namespace Flight

def answer (c : FanOut.Connection) (m : Message) : Option (String × Message) :=
  c.answer.map fun payload => (c.answerFrom.getD c.address, ⟨{ m.body with payload }, ""⟩)

/-- the end of a send that starts at an instant; only a node that has accepted a message answers it -/
def landing (cs : FanOut.Connections) (cancel : FanOut.Cancel) (now : Nat) (m : Message) (l : FanOut.Leg) : Landing :=
  ⟨now + l.span, if l.error.isNone then (FanOut.route cs cancel l.address).bind (answer · m) else none⟩

def launch (cs : FanOut.Connections) (cancel : FanOut.Cancel) (limit now call : Nat) (members : List Member)
    (m : Message) : Flight :=
  let legs := FanOut.legs cs cancel limit members
  ⟨call, legs, legs.map (landing cs cancel now m)⟩

/-- the instant of the next end of a send; a flight without any is over -/
def due (f : Flight) : Nat :=
  match f.landings with
  | [] => 0
  | l :: rest => rest.foldl (fun t l => min t l.ends) l.ends

def ends (f : Flight) : Nat := f.landings.foldl (fun t l => max t l.ends) 0

end Flight

/-- a gateway with its surroundings: the clock, the local network, the source of allowed senders and its contract, the
work in the background, the receivers of callbacks, the calls made in the background with their numbers, the addresses
called since the last report, and how much of the trace has been reported -/
structure GatewayClock where
  scheme : Crypto.Scheme
  setup : Setup
  contract : Option Address
  gateway : Gateway.State
  now : Nat
  connections : FanOut.Connections
  source : Option Allowlist.Source
  flights : List Flight
  refresh : Option Allowlist.Refresh
  sweeper : Option Time.Ticker
  receivers : Receivers
  background : List (Nat × Nat)
  called : List String
  reported : Nat

namespace GatewayClock

def start (scheme : Crypto.Scheme) (b : Gateway.Built) (connections : FanOut.Connections)
    (source : Option Allowlist.Source) : GatewayClock :=
  { scheme
    setup := b.setup
    contract := b.contract
    gateway := .ofBuilt b
    now := 0
    connections
    source
    flights := []
    refresh := none
    sweeper := none
    receivers := .none
    background := []
    called := []
    reported := 0 }

/-! ## What falls due -/

/-- a part of the surroundings that waits for an instant -/
inductive Part where
  | flight (f : Flight)
  | refresh (r : Allowlist.Refresh)
  | sweeper (t : Time.Ticker)

/-- the parts that wait, with their instants, in the order in which they go at one instant -/
def waiting (w : GatewayClock) : List (Nat × Part) :=
  (w.flights.map fun f => (f.due, .flight f))
    ++ (w.refresh.map fun r => (r.due, Part.refresh r)).toList
    ++ (w.sweeper.map fun t => (t.wake, Part.sweeper t)).toList

def earliest : List (Nat × Part) → Option (Nat × Part)
  | [] => none
  | p :: rest =>
    match earliest rest with
    | some q => if q.1 < p.1 then some q else some p
    | none => some p

/-- the ends of sends due now: the nodes' answers come in, and after the last end the call is over -/
def land (w : GatewayClock) (f : Flight) : GatewayClock :=
  let (ended, landings) := f.landings.partition fun l => l.ends ≤ w.now
  let gateway := (ended.filterMap Landing.answer).foldl (fun s (node, m) => Gateway.respond w.setup s node m) w.gateway
  if landings.isEmpty then
    { w with
      gateway := Gateway.finish w.setup gateway f.call f.legs
      flights := w.flights.filter fun x => x.call ≠ f.call }
  else
    { w with
      gateway
      flights := w.flights.map fun x => if x.call = f.call then { f with landings } else x }

/-- the next step of the allow-list: its fetch ends, or it starts one -/
def stepRefresh (w : GatewayClock) (r : Allowlist.Refresh) : GatewayClock :=
  match w.source, w.contract, r.fetch with
  | some source, some contract, some f =>
    { w with gateway := Gateway.refresh w.gateway (f.result contract r.limit source), refresh := some r.finish }
  | some source, _, none => { w with refresh := some (r.begin w.now source.manner) }
  | _, _, _ => { w with refresh := none }

def go (w : GatewayClock) (instant : Nat) (p : Part) : GatewayClock :=
  let w := { w with now := max w.now instant }
  match p with
  | .flight f => w.land f
  | .refresh r => w.stepRefresh r
  | .sweeper t => { w with gateway := Gateway.sweep w.setup w.gateway w.now, sweeper := some (t.advance w.now) }

/-- everything that falls due up to an instant, in at most `fuel` steps -/
def settle : Nat → Nat → GatewayClock → GatewayClock
  | 0, _, w => w
  | fuel + 1, target, w =>
    match earliest w.waiting with
    | none => w
    | some (instant, p) => if instant ≤ target then settle fuel target (w.go instant p) else w

/-- a bound on the steps up to an instant: every step of a flight ends a send or the flight, and every turn of a timer
moves it on and starts at most one fetch -/
def stepBound (w : GatewayClock) (target : Nat) : Nat :=
  (w.flights.map fun f => f.landings.length + 1).sum
    + w.refresh.elim 0 (fun r => 2 * (target + 1 - r.ticker.due) + 1)
    + w.sweeper.elim 0 (fun t => target + 1 - t.due)

def advanceTo (w : GatewayClock) (target : Nat) : GatewayClock :=
  let w := settle (w.stepBound target) target w
  { w with now := max w.now target }

/-! ## Operations -/

/-- a user's message submitted, and its sends started if it was accepted; `front` tells a call that is waited for -/
def submit (w : GatewayClock) (m : Message) (cancel : FanOut.Cancel) (front : Bool) : GatewayClock × Nat :=
  let call := w.receivers.opened
  let gateway := Gateway.submit w.scheme w.setup w.gateway w.now call m
  let w := { w with gateway, receivers := w.receivers.add }
  if gateway.calls.any fun c => c.id = call then
    let members := w.setup.network.members
    let f := Flight.launch w.connections cancel w.setup.timeout w.now call members m
    ({ w with
        flights := if front then f :: w.flights else w.flights ++ [f]
        called := w.called ++ FanOut.called w.connections cancel members },
      max w.now f.ends)
  else (w, w.now)

def returned? (w : GatewayClock) (call : Nat) : Option (Except GatewayError Unit) :=
  w.gateway.trace.findSome? fun
    | .returned c result => if c = call then some result else none
    | _ => none

/-- a user's message; time passes until its call returns -/
def user (w : GatewayClock) (m : Message) (cancel : FanOut.Cancel) : GatewayClock × Except GatewayError Unit :=
  let call := w.receivers.opened
  let (w, ends) := w.submit m cancel true
  let w := w.advanceTo ends
  (w, (w.returned? call).getD (.ok ()))

/-- a user's message in the background, and the number of its call -/
def userInBackground (w : GatewayClock) (m : Message) (cancel : FanOut.Cancel) : GatewayClock × Nat :=
  let call := w.receivers.opened
  let number := w.background.length
  let (w, _) := { w with background := w.background ++ [(call, number)] }.submit m cancel false
  (w.advanceTo w.now, number)

def respond (w : GatewayClock) (node : String) (m : Message) : GatewayClock :=
  { w with gateway := Gateway.respond w.setup w.gateway node m }

def startWork (w : GatewayClock) : GatewayClock × Except GatewayError Unit :=
  match Gateway.start w.gateway with
  | (gateway, .error e) => ({ w with gateway }, .error e)
  | (gateway, .ok ()) =>
    let refresh := w.setup.settings.allowlist.map fun a =>
      Allowlist.Refresh.start w.now (Time.seconds a.updateFrequencySec) (Time.seconds a.updateTimeoutSec)
    let w := { w with gateway, refresh, sweeper := some (.start w.now w.setup.sweepInterval) }
    (w.advanceTo w.now, .ok ())

/-- the gateway closed: its background work ends, and then its open requests are settled -/
def close (w : GatewayClock) : GatewayClock × Except GatewayError Unit :=
  match Gateway.beginClose w.gateway with
  | (gateway, .error e) => ({ w with gateway }, .error e)
  | (gateway, .ok ()) =>
    ({ w with gateway := Gateway.drain gateway, refresh := none, sweeper := none }, .ok ())

/-! ## Reports -/

structure Report where
  fates : List (Nat × Fate)
  returned : List (Nat × Except GatewayError Unit)
  called : List String

def fate? : Gateway.Event → Option (Nat × Fate)
  | .delivered callback reply => some (callback, .delivered reply)
  | .dropped callback => some (callback, .closed)
  | _ => none

def result? : Gateway.Event → Option (Nat × Except GatewayError Unit)
  | .returned call result => some (call, result)
  | _ => none

/-- the report of what has happened since the last one: to callbacks whose receivers still wait, and to calls in the
background, each in the order of their numbers -/
def report (w : GatewayClock) : GatewayClock × Report :=
  let events := w.gateway.trace.drop w.reported
  let (receivers, fates) := w.receivers.report (events.filterMap fate?)
  let results := events.filterMap result?
  let returned := w.background.filterMap fun (call, number) =>
    (results.find? (·.1 == call)).map fun r => (number, r.2)
  ({ w with receivers, called := [], reported := w.gateway.trace.length }, ⟨fates, returned, w.called⟩)

end GatewayClock

end QuorumGateway.Simulation
