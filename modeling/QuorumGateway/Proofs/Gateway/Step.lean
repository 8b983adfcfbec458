import QuorumGateway.Gateway.State
import QuorumGateway.Proofs.Outcome
import QuorumGateway.Proofs.Pending.Table
/-!
What one operation on a gateway does to the table of open requests, to the calls on their way, and to the trace, said
once for all operations (`Effect`, `step_effect`). What callbacks received and what calls returned are read off the
trace.
-/

namespace QuorumGateway.Gateway

open Pending (Delivery Table Entry)

/-! ## Reading a trace -/

/-- the value that an event hands to a callback -/
def Event.delivery? : Event → Option Delivery
  | .delivered callback reply => some ⟨callback, reply⟩
  | _ => none

/-- the callback that an event drops -/
def Event.drop? : Event → Option Nat
  | .dropped callback => some callback
  | _ => none

/-- the call that an event ends -/
def Event.return? : Event → Option Nat
  | .returned call _ => some call
  | _ => none

/-- the call that an event ends with an error -/
def Event.failure? : Event → Option Nat
  | .returned call (.error _) => some call
  | _ => none

/-- an event that touches no callback and ends no call -/
def Event.isQuiet (ev : Event) : Prop := ev.delivery? = none ∧ ev.drop? = none ∧ ev.return? = none ∧ ev.failure? = none

/-- the call that an operation makes -/
def Op.submits? : Op → Option Nat
  | .submit _ call _ => some call
  | _ => none

/-- the operations that concern the background work and its start and end, and no request -/
def Op.isBackground : Op → Bool
  | .refresh _ | .start | .beginClose => true
  | _ => false

/-! ## Effects -/

/-- whether too many sends have failed for a quorum -/
def tooFew (g : Setup) (legs : List FanOut.Leg) : Prop :=
  g.quorum.maxSendFailures ≤ (FanOut.report legs).failed.length

/-- what an operation does: the table and the calls after it, and the events it adds to the trace -/
inductive Effect (S : Crypto.Scheme) (g : Setup) (s : State) : Op → Table → List Call → List Event → Prop where
  | background {o : Op} {es : List Event} (ho : o.isBackground = true) (hquiet : ∀ ev ∈ es, ev.isQuiet) :
    Effect S g s o s.table s.calls es
  /-- a call is refused -/
  | refused (now call : Nat) (m : Message) (e : GatewayError) :
    Effect S g s (.submit now call m) s.table s.calls [.dropped call, .returned call (.error e)]
  /-- a call is admitted and its request registered -/
  | admitted (now call : Nat) (m : Message) {sender : Address} {table : Table} (hscreen : screen S g s m = .ok sender)
    (hcharge : (charge s sender now).1 = true)
    (hregister : s.table.register g.limits (RequestKey.ofMessage m) call (now + g.timeout) = .ok table) :
    Effect S g s (.submit now call m) table
      (s.calls ++ [⟨call, RequestKey.ofMessage m, methodLabel m.body.method⟩]) [.sent call m]
  /-- a call that is not on its way cannot end -/
  | unknown (call : Nat) (legs : List FanOut.Leg) (hcall : s.calls.find? (fun c => c.id = call) = none) :
    Effect S g s (.finish call legs) s.table s.calls []
  /-- all sends of a call have ended, and enough reached their node or the request is not open any more -/
  | accepted (call : Nat) (legs : List FanOut.Leg) {c : Call} (hcall : s.calls.find? (fun c => c.id = call) = some c)
    (hgone : tooFew g legs → s.table.find? c.key = none) :
    Effect S g s (.finish call legs) s.table (s.calls.filter fun c => c.id ≠ call) [.returned call (.ok ())]
  /-- too few sends have reached their node, and the request that is open under the key is evicted -/
  | evicted (call : Nat) (legs : List FanOut.Leg) {c : Call} {e : Entry} (error : GatewayError)
    (hcall : s.calls.find? (fun c => c.id = call) = some c) (hfew : tooFew g legs)
    (hopen : s.table.find? c.key = some e) :
    Effect S g s (.finish call legs) (s.table.erase c.key) (s.calls.filter fun c => c.id ≠ call)
      [.dropped e.callback, .returned call (.error error)]
  /-- nobody listens to an outsider -/
  | outsider (node : String) (m : Message) (hmember : g.network.isMember node = false) :
    Effect S g s (.respond node m) s.table s.calls []
  /-- a member's response comes in -/
  | answered (node : String) (m : Message) (hmember : g.network.isMember node = true) :
    Effect S g s (.respond node m) (s.table.record g.quorum (RequestKey.ofMessage m) node m).1 s.calls
      ((s.table.record g.quorum (RequestKey.ofMessage m) node m).2.2.map fun d => .delivered d.callback d.reply)
  /-- overdue requests are settled -/
  | swept (now : Nat) :
    Effect S g s (.sweep now) (s.table.expire g.quorum now).1 s.calls
      ((s.table.expire g.quorum now).2.map fun d => .delivered d.callback d.reply)
  /-- all requests are settled -/
  | drained :
    Effect S g s .drain (s.table.failAll .fatalError shutdownReason).1 s.calls
      ((s.table.failAll .fatalError shutdownReason).2.map (fun d => .delivered d.callback d.reply) ++
        [.closed (.ok ())])

/-- an operation keeps the keys of open requests distinct -/
theorem Effect.distinct {S : Crypto.Scheme} {g : Setup} {s : State} {o : Op} {table : Table} {calls : List Call}
    {es : List Event} (heff : Effect S g s o table calls es) (hd : s.table.Distinct) : table.Distinct := by
  cases heff with
  | admitted now call m hscreen hcharge hregister => exact hd.register hregister
  | evicted => exact hd.erase _
  | answered => exact hd.record _ _ _ _
  | swept => exact hd.expire _ _
  | drained => exact List.nodup_nil
  | _ => exact hd

/-- what a token of the rate limits costs -/
theorem charge_state (s : State) (sender : Address) (now : Nat) :
    (charge s sender now).2 = { s with limiter := s.limiter.map fun l => (l.allow sender.text now).2 } := by
  unfold charge
  cases h : s.limiter with
  | none =>
    cases s
    cases h
    rfl
  | some l => rfl

theorem submit_effect (S : Crypto.Scheme) (g : Setup) (s : State) (now call : Nat) (m : Message) :
    ∃ es, (submit S g s now call m).trace = s.trace ++ es ∧
      Effect S g s (.submit now call m) (submit S g s now call m).table (submit S g s now call m).calls es := by
  unfold submit
  cases hscreen : screen S g s m with
  | error e => exact ⟨_, rfl, .refused now call m e⟩
  | ok sender =>
    simp only [charge_state]
    split
    · exact ⟨_, rfl, .refused now call m _⟩
    · rename_i hgranted
      cases hregister : s.table.register g.limits (RequestKey.ofMessage m) call (now + g.timeout) with
      | error e => exact ⟨_, rfl, .refused now call m e⟩
      | ok table => exact ⟨_, rfl, .admitted now call m hscreen (by simpa using hgranted) hregister⟩

theorem finish_effect (S : Crypto.Scheme) (g : Setup) (s : State) (call : Nat) (legs : List FanOut.Leg) :
    ∃ es, (finish g s call legs).trace = s.trace ++ es ∧
      Effect S g s (.finish call legs) (finish g s call legs).table (finish g s call legs).calls es := by
  unfold finish
  cases hcall : s.calls.find? (fun c => c.id = call) with
  | none => exact ⟨[], by simp, .unknown call legs hcall⟩
  | some c =>
    have hid : c.id = call := by simpa using List.find?_some hcall
    simp only [State.count]
    split
    · rename_i henough
      refine ⟨[.returned c.id (.ok ())], rfl, ?_⟩
      rw [hid]
      exact .accepted call legs hcall fun hfew => absurd hfew (by unfold tooFew; omega)
    · rename_i hfew
      unfold Table.evict
      cases hopen : s.table.find? c.key with
      | none =>
        refine ⟨[.returned c.id (.ok ())], rfl, ?_⟩
        simp only [accept, State.withTable, State.count, State.emit, Table.erase_of_find?_none hopen, hid]
        exact .accepted call legs hcall fun _ => hopen
      | some e =>
        refine ⟨_, rfl, ?_⟩
        simp only [hid]
        exact .evicted call legs _ hcall (by unfold tooFew; omega) hopen

/-- **What one step does**, and that it only adds to the trace -/
theorem step_effect (S : Crypto.Scheme) (g : Setup) (s : State) (o : Op) :
    ∃ es, (step S g s o).trace = s.trace ++ es ∧ Effect S g s o (step S g s o).table (step S g s o).calls es := by
  cases o with
  | submit now call m => exact submit_effect S g s now call m
  | finish call legs => exact finish_effect S g s call legs
  | respond node m =>
    simp only [step, respond]
    split
    · rename_i hmember
      exact ⟨[], by simp [State.count], .outsider node m (by simpa using hmember)⟩
    · rename_i hmember
      exact ⟨_, rfl, .answered node m (by simpa using hmember)⟩
  | sweep now => exact ⟨_, rfl, .swept now⟩
  | refresh result => exact ⟨[], by simp [step, refresh], .background rfl (by simp)⟩
  | start =>
    exact ⟨_, rfl,
      .background rfl (by simp [Event.isQuiet, Event.delivery?, Event.drop?, Event.return?, Event.failure?])⟩
  | beginClose =>
    simp only [step, beginClose]
    split
    · exact ⟨_, rfl,
        .background rfl (by simp [Event.isQuiet, Event.delivery?, Event.drop?, Event.return?, Event.failure?])⟩
    · exact ⟨[], by simp, .background rfl (by simp)⟩
  | drain => exact ⟨_, by simp [step, drain, State.emit, State.deliver, State.withTable], .drained⟩

/-! ## Runs -/

theorem run_append (S : Crypto.Scheme) (g : Setup) (s : State) (a b : List Op) :
    run S g s (a ++ b) = run S g (run S g s a) b := by
  simp [run, List.foldl_append]

/-- a trace only grows -/
theorem trace_run (S : Crypto.Scheme) (g : Setup) (s : State) (ops : List Op) :
    s.trace <+: (run S g s ops).trace := by
  induction ops generalizing s with
  | nil => exact List.prefix_refl _
  | cons o ops ih =>
    obtain ⟨es, htrace, -⟩ := step_effect S g s o
    exact (htrace ▸ List.prefix_append _ es).trans (ih (step S g s o))

/-- the state after a run from the start -/
abbrev reached (S : Crypto.Scheme) (b : Built) (ops : List Op) : State := run S b.setup (.ofBuilt b) ops

theorem reached_snoc (S : Crypto.Scheme) (b : Built) (ops : List Op) (o : Op) :
    reached S b (ops ++ [o]) = step S b.setup (reached S b ops) o := run_snoc _ _ _ _ _

/-! ## Building -/

/-- what is built serves the network it is built for, and that network has passed its check -/
theorem network_of_build {raw : Json} {network : Network} {hasSource : Bool} {b : Built}
    (h : build raw network hasSource = .ok b) : b.setup.network = network ∧ network.check = .ok () := by
  unfold build at h
  obtain ⟨settings, -, h⟩ := bind_eq_ok.1 h
  obtain ⟨⟨⟩, hcheck, h⟩ := bind_eq_ok.1 h
  obtain ⟨contract, -, h⟩ := bind_eq_ok.1 h
  obtain ⟨limiter, -, h⟩ := bind_eq_ok.1 h
  exact ⟨Except.ok.inj h ▸ rfl, hcheck⟩

/-! ## A sender -/

/-- a sender, for runs on fixed inputs -/
def alice : Address := ⟨List.replicate 20 170, rfl⟩

/-- a scheme in which every signature is one of that sender -/
def aliceScheme : Crypto.Scheme := ⟨Unit, fun _ => alice, fun _ _ => none, fun _ _ _ => some alice⟩

/-- a request of the sender to a network -/
def aliceRequest (donId : String) : Message :=
  ⟨⟨"m", "secrets_list", donId, alice.text, .null⟩, Message.signatureText ⟨1, 1, by decide, by decide⟩ (Fin.last 3)⟩

end QuorumGateway.Gateway
