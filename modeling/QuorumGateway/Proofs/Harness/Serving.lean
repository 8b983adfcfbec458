import QuorumGateway.Harness.Serve
import QuorumGateway.Proofs.Gateway.Clock
import QuorumGateway.Proofs.Gateway.Forwarding
/-!
One request served on the virtual clock, as a run of the gateway. All that happens does so at the first instant: the
sweeper takes its first turn, the request is submitted, the nodes that can be reached answer in the order of the
configuration, and then its sends end (`gateway_served`). The others fail their send (`legs_connections`).
-/

namespace QuorumGateway

open Simulation (Flight GatewayClock Landing)
open Gateway (Built Op State reached)

/-! ## The local network -/

namespace Harness

/-- what a node that can be reached sends back -/
def acknowledged (m : Message) : Message := ⟨{ m.body with payload := acknowledgement m.body.method }, ""⟩

/-- the responses of the nodes that can be reached, in the order of the configuration -/
def acknowledgements (members : List Member) (faulty : Nat) (m : Message) : List (String × Message) :=
  (members.drop faulty).map fun n => (n.address, acknowledged m)

/-- the connection of a node that can be reached -/
def connection (method : String) (n : Member) : FanOut.Connection :=
  ⟨n.address, .accept, some (acknowledgement method), none⟩

variable {members : List Member} {faulty : Nat} {method : String} {n : Member}

theorem connections_eq (members : List Member) (faulty : Nat) (method : String) :
    connections members faulty method =
      SortedMap.ofPairs ((members.drop faulty).map fun n => (Text.lower n.address, connection method n)) := by
  rw [SortedMap.ofPairs, List.foldl_map]
  rfl

theorem find?_connections (hnodup : (Network.addresses members).Nodup) {c : FanOut.Connection} :
    (connections members faulty method).find? n.address = some c ↔
      ∃ n' ∈ members.drop faulty, Text.lower n'.address = Text.lower n.address ∧ connection method n' = c := by
  have hkeys :
      (((members.drop faulty).map fun n => (Text.lower n.address, connection method n)).map Prod.fst).Nodup := by
    rw [List.map_map]
    exact hnodup.sublist ((List.drop_sublist faulty members).map _)
  rw [FanOut.Connections.find?, connections_eq, SortedMap.get?_eq_some_iff (SortedMap.ascending_ofPairs _),
    (SortedMap.ofPairs_perm hkeys).mem_iff, List.mem_map]
  simp only [Prod.mk.injEq]

/-- a node that can be reached is found under its address -/
theorem find?_reachable (hnodup : (Network.addresses members).Nodup) (hn : n ∈ members.drop faulty) :
    (connections members faulty method).find? n.address = some (connection method n) :=
  (find?_connections hnodup).2 ⟨n, hn, rfl, rfl⟩

/-- and no other one is -/
theorem find?_unreachable (hnodup : (Network.addresses members).Nodup) (hn : n ∈ members.take faulty) :
    (connections members faulty method).find? n.address = none := by
  refine Option.eq_none_iff_forall_not_mem.2 fun c hc => ?_
  obtain ⟨n', hn', hsame, -⟩ := (find?_connections hnodup).1 hc
  rw [Network.addresses, ← List.take_append_drop faulty members, List.map_append, List.nodup_append] at hnodup
  exact hnodup.2.2 _ (List.mem_map_of_mem hn) _ (List.mem_map_of_mem hn') hsame.symm

/-- the send to a node that can be reached, and to one that cannot -/
def sendTo (reachable : Bool) (n : Member) : FanOut.Leg :=
  ⟨n.address, 0, if reachable then none else some ("node " ++ n.address ++ " is not connected")⟩

/-- **How the sends go**: those to the first members fail, all at once -/
theorem legs_connections (hnodup : (Network.addresses members).Nodup) (limit : Nat) :
    FanOut.legs (connections members faulty method) .never limit members =
      (members.take faulty).map (sendTo false) ++ (members.drop faulty).map (sendTo true) := by
  conv_lhs => rw [FanOut.legs]; rhs; rw [← List.take_append_drop faulty members]
  rw [List.map_append]
  congr 1
  · refine List.map_congr_left fun n hn => ?_
    rw [find?_unreachable hnodup hn]
    rfl
  · refine List.map_congr_left fun n hn => ?_
    rw [find?_reachable hnodup hn]
    rfl

theorem report_connections (hnodup : (Network.addresses members).Nodup) (faulty : Nat) (method : String) (limit : Nat) :
    (FanOut.report (FanOut.legs (connections members faulty method) .never limit members)).failed.length =
        min faulty members.length ∧
      (FanOut.report (FanOut.legs (connections members faulty method) .never limit members)).total =
        members.length := by
  have hfailed : ∀ ns : List Member, (ns.map (sendTo false)).filterMap
      (fun l : FanOut.Leg => l.error.map fun e => (l.address, e)) =
        ns.map fun n => (n.address, "node " ++ n.address ++ " is not connected") := by
    intro ns
    simp [List.filterMap_map, sendTo, List.filterMap_eq_map']
  have hsent : ∀ ns : List Member, (ns.map (sendTo true)).filterMap
      (fun l : FanOut.Leg => l.error.map fun e => (l.address, e)) = [] := by
    intro ns
    simp [List.filterMap_map, sendTo]
  have hnone : (members.take faulty).countP (fun _ => false) = 0 := List.countP_eq_zero.2 (by simp)
  rw [legs_connections hnodup]
  simp only [FanOut.report, FanOut.failures, FanOut.Report.total, List.filterMap_append, hfailed, hsent,
    List.append_nil, List.length_map, List.length_take, List.countP_append, List.countP_map, Function.comp_def,
    sendTo]
  simp
  omega

/-! ## The flight -/

/-- the end of the send to a node: one that can be reached answers -/
def landing (m : Message) (reachable : Bool) (n : Member) : Landing :=
  ⟨0, if reachable then some (n.address, acknowledged m) else none⟩

theorem landings_launch (hnodup : (Network.addresses members).Nodup) (limit call : Nat) (m : Message) :
    (Flight.launch (connections members faulty m.body.method) .never limit 0 call members m).landings =
      (members.take faulty).map (landing m false) ++ (members.drop faulty).map (landing m true) := by
  simp only [Flight.launch, legs_connections hnodup, List.map_append, List.map_map]
  congr 1
  refine List.map_congr_left fun n hn => ?_
  simp only [Function.comp, Flight.landing, sendTo, FanOut.route, reduceCtorEq, if_false, if_true, Option.isNone_none,
    find?_reachable hnodup hn]
  rfl

theorem ends_of_mem_landings (hnodup : (Network.addresses members).Nodup) {limit call : Nat} {m : Message} {l : Landing}
    (hl : l ∈ (Flight.launch (connections members faulty m.body.method) .never limit 0 call members m).landings) :
    l.ends = 0 := by
  rw [landings_launch hnodup, List.mem_append, List.mem_map, List.mem_map] at hl
  rcases hl with ⟨n, -, rfl⟩ | ⟨n, -, rfl⟩ <;> rfl

theorem answers_launch (hnodup : (Network.addresses members).Nodup) (limit call : Nat) (m : Message) :
    (Flight.launch (connections members faulty m.body.method) .never limit 0 call members m).landings.filterMap
      Landing.answer = acknowledgements members faulty m := by
  have hsilent : ((members.take faulty).map (landing m false)).filterMap Landing.answer = [] := by
    rw [List.filterMap_map]
    exact List.filterMap_eq_nil_iff.2 fun _ _ => rfl
  have hanswers : ((members.drop faulty).map (landing m true)).filterMap Landing.answer =
      acknowledgements members faulty m := by
    rw [List.filterMap_map, acknowledgements, ← List.filterMap_eq_map]
    rfl
  rw [landings_launch hnodup, List.filterMap_append, hsilent, hanswers, List.nil_append]

end Harness

/-! ## The virtual clock -/

namespace Simulation

namespace Flight

variable {f : Flight}

/-- sends that all end at the first instant -/
theorem due_of_ends (h : ∀ l ∈ f.landings, l.ends = 0) : f.due = 0 := by
  by_cases hnone : f.landings = []
  · rw [due, hnone]
  · obtain ⟨l, hl, hdue⟩ := exists_due hnone
    rw [← hdue, h l hl]

theorem ends_of_ends (h : ∀ l ∈ f.landings, l.ends = 0) : f.ends = 0 := by
  unfold ends
  generalize f.landings = ls at h
  induction ls with
  | nil => rfl
  | cons l ls ih =>
    rw [List.foldl_cons, h l List.mem_cons_self, Nat.max_self]
    exact ih fun l' hl' => h l' (List.mem_cons_of_mem _ hl')

end Flight

namespace GatewayClock

variable {w : GatewayClock}

variable {instant target : Nat} {p : Part}

/-- nothing happens when nothing is due -/
theorem settle_of_idle (h : ∀ q ∈ w.waiting, target < q.1) (fuel : Nat) : settle fuel target w = w := by
  cases fuel with
  | zero => rfl
  | succ fuel =>
    rw [settle]
    cases hfirst : earliest w.waiting with
    | none => rfl
    | some q => exact if_neg (Nat.not_le.2 (h q (earliest_eq_some hfirst).1))

/-- time passes up to the instant of a step after which nothing is due -/
theorem advanceTo_of_go (hfirst : earliest w.waiting = some (instant, p)) (hdue : instant ≤ target)
    (hbound : 0 < w.stepBound target) (hidle : ∀ q ∈ (w.go instant p).waiting, target < q.1)
    (hnow : (w.go instant p).now = target) : w.advanceTo target = w.go instant p := by
  have hsettled : settle (w.stepBound target) target w = w.go instant p := by
    obtain ⟨fuel, hfuel⟩ := Nat.exists_eq_succ_of_ne_zero hbound.ne'
    rw [hfuel, settle, hfirst]
    exact (if_pos hdue).trans (settle_of_idle hidle fuel)
  rw [advanceTo, hsettled]
  simp only [hnow, Nat.max_self]
  rw [← hnow]

/-! ### The start -/

/-- the sweeper after its first turn -/
def sweeperAfterFirst (b : Built) : Time.Ticker := (Time.Ticker.start 0 b.setup.sweepInterval).advance 0

theorem wake_sweeperAfterFirst (b : Built) : 0 < (sweeperAfterFirst b).wake :=
  (Time.Ticker.due_lt_due_advance (Time.Ticker.start 0 b.setup.sweepInterval) 0).trans_le (Time.le_wake _)

/-- the clock after the start of the background work, which without an allow-list is the sweeper -/
def working (S : Crypto.Scheme) (b : Built) (connections : FanOut.Connections) (source : Option Allowlist.Source) :
    GatewayClock :=
  { GatewayClock.start S b connections source with
    gateway := reached S b [.start, .sweep 0]
    sweeper := some (sweeperAfterFirst b) }

theorem startWork_start {S : Crypto.Scheme} {b : Built} (hlist : b.setup.settings.allowlist = none)
    (connections : FanOut.Connections) (source : Option Allowlist.Source) :
    (GatewayClock.start S b connections source).startWork.1 = working S b connections source := by
  let begun : GatewayClock :=
    { GatewayClock.start S b connections source with
      gateway := reached S b [.start]
      sweeper := some (.start 0 b.setup.sweepInterval) }
  have hbegun : (GatewayClock.start S b connections source).startWork.1 = begun.advanceTo 0 := by
    have hstarted : Gateway.start (State.ofBuilt b) = (reached S b [.start], .ok ()) := rfl
    simp only [startWork, GatewayClock.start, hstarted, hlist, Option.map_none]
    rfl
  have hwake : (Time.Ticker.start 0 b.setup.sweepInterval).wake = 0 := show Time.wake 0 = 0 by decide
  have hturn : begun.go 0 (.sweeper (.start 0 b.setup.sweepInterval)) = working S b connections source := rfl
  rw [hbegun, ← hturn]
  apply advanceTo_of_go
  · simp [begun, waiting, GatewayClock.start, earliest, hwake]
  · exact Nat.le_refl 0
  · exact Nat.succ_pos _
  · simp [hturn, waiting, working, GatewayClock.start, wake_sweeperAfterFirst]
  · rfl

/-! ### The request -/

section Request

variable (S : Crypto.Scheme) (b : Built) (faulty : Nat) (m : Message) (source : Option Allowlist.Source)

abbrev nodesOf : FanOut.Connections := Harness.connections b.setup.network.members faulty m.body.method

/-- the sends of the request -/
def flightOf : Flight := .launch (nodesOf b faulty m) .never b.setup.timeout 0 0 b.setup.network.members m

/-- the clock while the request is being sent -/
def sending : GatewayClock :=
  { working S b (nodesOf b faulty m) source with
    gateway := reached S b [.start, .sweep 0, .submit 0 0 m]
    receivers := Receivers.none.add
    flights := [flightOf b faulty m]
    called := FanOut.called (nodesOf b faulty m) .never b.setup.network.members }

/-- the run in which the request is served, with the responses that come in before and after the end of its sends -/
def servedOps (early late : List (String × Message)) : List Op :=
  [.start, .sweep 0, .submit 0 0 m] ++ Gateway.forwarded 0 (flightOf b faulty m).legs early late

/-- the clock when the request has been served -/
def served : GatewayClock :=
  { sending S b faulty m source with
    gateway := reached S b (servedOps b faulty m (Harness.acknowledgements b.setup.network.members faulty m) [])
    flights := [] }

variable {S b faulty m} (hnodup : (Network.addresses b.setup.network.members).Nodup)
include hnodup

theorem ends_flightOf : ∀ l ∈ (flightOf b faulty m).landings, l.ends = 0 := fun _ hl =>
  Harness.ends_of_mem_landings hnodup hl

theorem submit_working (hsent : (reached S b [.start, .sweep 0, .submit 0 0 m]).calls.any (fun c => c.id = 0) = true) :
    (working S b (nodesOf b faulty m) source).submit m .never true = (sending S b faulty m source, 0) := by
  have hsubmitted : Gateway.submit S b.setup (reached S b [.start, .sweep 0]) 0 0 m =
      reached S b [.start, .sweep 0, .submit 0 0 m] := rfl
  have hlast : max 0 (flightOf b faulty m).ends = 0 := by
    rw [Flight.ends_of_ends (ends_flightOf hnodup), Nat.max_self]
  unfold submit
  simp only [working, GatewayClock.start, Receivers.none, hsubmitted, if_true]
  exact (if_pos hsent).trans (Prod.ext rfl hlast)

/-- the answers come in before all its sends have ended -/
theorem finish_sending :
    Gateway.finish b.setup
      (((flightOf b faulty m).landings.filter fun l => l.ends ≤ 0).filterMap Landing.answer |>.foldl
        (fun s a => Gateway.respond b.setup s a.1 a.2) (reached S b [.start, .sweep 0, .submit 0 0 m]))
      0 (flightOf b faulty m).legs =
        reached S b (servedOps b faulty m (Harness.acknowledgements b.setup.network.members faulty m) []) := by
  have hall : (flightOf b faulty m).landings.filter (fun l => l.ends ≤ 0) = (flightOf b faulty m).landings :=
    List.filter_eq_self.2 fun l hl => by simp [ends_flightOf hnodup l hl]
  have hanswers : (flightOf b faulty m).landings.filterMap Landing.answer =
      Harness.acknowledgements b.setup.network.members faulty m := Harness.answers_launch hnodup _ _ m
  have hresponses : ∀ (s : State) (rs : List (String × Message)),
      rs.foldl (fun s a => Gateway.respond b.setup s a.1 a.2) s = Gateway.run S b.setup s (Gateway.answers rs) := by
    intro s rs
    rw [Gateway.run, Gateway.answers, List.foldl_map]
    rfl
  rw [hall, hanswers, hresponses, servedOps, Gateway.forwarded, ← List.append_assoc]
  simp only [reached, Gateway.run_append]
  rfl

theorem go_sending :
    (sending S b faulty m source).go 0 (.flight (flightOf b faulty m)) = served S b faulty m source := by
  have hlater : (sending S b faulty m source).later (flightOf b faulty m) = [] :=
    List.filter_eq_nil_iff.2 fun l hl => by simp [ends_flightOf hnodup l hl]
  have hflights : (sending S b faulty m source).flights.filter (fun x => x.call ≠ (flightOf b faulty m).call) = [] := by
    simp [sending]
  have hgo : (sending S b faulty m source).go 0 (.flight (flightOf b faulty m)) =
      (sending S b faulty m source).land (flightOf b faulty m) := rfl
  rw [hgo, land_eq, served, ← finish_sending hnodup]
  simp only [hlater, List.isEmpty_nil, if_true, hflights]
  rfl

theorem advanceTo_sending : (sending S b faulty m source).advanceTo 0 = served S b faulty m source := by
  have hdue : (flightOf b faulty m).due = 0 := Flight.due_of_ends (ends_flightOf hnodup)
  rw [← go_sending source hnodup]
  apply advanceTo_of_go
  · -- the flight goes before the sweeper
    simp [sending, working, waiting, earliest, GatewayClock.start, hdue]
  · exact Nat.le_refl 0
  · simp [stepBound, sending]
  · rw [go_sending source hnodup]
    simp [served, sending, working, waiting, GatewayClock.start, wake_sweeperAfterFirst]
  · rw [go_sending source hnodup]
    rfl

/-- **A request is served at once**: its answers come in and its sends end at the instant at which it is submitted -/
theorem user_working (hsent : (reached S b [.start, .sweep 0, .submit 0 0 m]).calls.any (fun c => c.id = 0) = true) :
    (working S b (nodesOf b faulty m) source).user m .never =
      (served S b faulty m source, ((served S b faulty m source).returned? 0).getD (.ok ())) := by
  rw [user, submit_working source hnodup hsent]
  simp only [advanceTo_sending source hnodup]
  rfl

end Request

end GatewayClock

end Simulation

/-! ## What the sender is told -/

namespace Harness

open Simulation.GatewayClock (served)

variable {S : Crypto.Scheme} {b : Built} {m : Message}

/-- **A request that was sent is answered by the run of the gateway**: what its call returned decides whether the sender
is told the reply or an error -/
theorem serve_eq (hlist : b.setup.settings.allowlist = none)
    (hnodup : (Network.addresses b.setup.network.members).Nodup) (faulty : Nat) (sender : Address)
    (hsent : (reached S b [.start, .sweep 0, .submit 0 0 m]).calls.any (fun c => c.id = 0) = true) :
    let w := served S b faulty m (some ⟨[sender], .answer⟩)
    let result := (w.returned? 0).getD (.ok ())
    (serve S b faulty sender m).result = result ∧
      (serve S b faulty sender m).reply =
        match result with
        | .ok () => delivered? w.gateway 0
        | .error e => some (.failure e.code e.text) := by
  have hworking := GatewayClock.startWork_start (S := S) hlist
    (connections b.setup.network.members faulty m.body.method) (some ⟨[sender], .answer⟩)
  have huser := @GatewayClock.user_working S b faulty m (some ⟨[sender], .answer⟩) hnodup hsent
  simp only [serve, hworking, huser]
  trivial

end Harness

end QuorumGateway
