import QuorumGateway.Proofs.Config.Rules
import QuorumGateway.Proofs.Gateway.Admission
import QuorumGateway.Proofs.Gateway.Building
import QuorumGateway.Proofs.Harness.Serving
import QuorumGateway.Proofs.Message.Signing
import QuorumGateway.Proofs.RateLimit.Buckets
/-!
How many unreachable nodes a run survives. Of `N` nodes the first `faulty` cannot be reached; with at most `f` faulty
nodes tolerated, too many sends have failed when `N - f` have, and a quorum needs `f + 1` responses. Both say the same:
the request is answered exactly if `f + 1` nodes are left.

- `build_valid`: settings that pass their check, without an allow-list, make a gateway.
- `submit_signed`: its first signed request is admitted.
- `fault_threshold`: the request is answered with the acknowledgement of the nodes if `f + 1` of them are left, and
  otherwise fails with the number of sends that failed; the order in which responses are forwarded makes no difference.
-/

namespace QuorumGateway

open Gateway (Built Op State reached)
open Pending (Entry Table)
open RateLimit (HasPeriod)

/-! ## Building -/

/-- a rate limiter of which nothing has been taken -/
def RateLimit.Limiter.Untouched (l : Limiter) : Prop := l.global = 0 ∧ l.users = []

theorem RateLimit.Limiter.Untouched.allows {l : RateLimit.Limiter} (h : l.Untouched) (user : String) (now : Nat) :
    (l.allow user now).1 = true := by
  obtain ⟨common, hcommon⟩ := Option.isSome_iff_exists.1 (take?_zero l.globalQuota now)
  obtain ⟨own, hown⟩ := Option.isSome_iff_exists.1 (take?_zero l.userQuota now)
  simp only [allow, h.1, h.2, hcommon, fullAt, hown]

namespace Gateway

variable {s : Settings} {h : HandlerSettings}

/-- the rate limiter of settings that pass their check, if there is to be one -/
theorem limiter_valid (hproblems : h.problems = [])
    (hrates : ∀ r ∈ h.rateLimiter, HasPeriod r.globalRps ∧ HasPeriod r.perUserRps) :
    ∃ limiter, limiter? h = .ok limiter ∧ ∀ l ∈ limiter, l.Untouched := by
  unfold limiter?
  cases hr : h.rateLimiter with
  | none => exact ⟨none, rfl, by simp⟩
  | some r =>
    obtain ⟨hcommon, hown⟩ := hrates r hr
    obtain ⟨common, hcommon, hcommonPos⟩ := RateLimit.hasPeriod_iff.1 hcommon
    obtain ⟨own, hown, hownPos⟩ := RateLimit.hasPeriod_iff.1 hown
    have hvalid : r.problems = [] := by
      rw [HandlerSettings.problems, hr, List.append_eq_nil_iff, List.append_eq_nil_iff] at hproblems
      exact hproblems.1.2
    obtain ⟨hg, hu, hbuilt⟩ := RateLimit.ofSettings_eq hvalid hcommon hown hcommonPos hownPos
    simp only [hbuilt, Except.map]
    refine ⟨_, rfl, ?_⟩
    rintro _ ⟨⟩
    exact ⟨rfl, rfl⟩

/-- **Settings that pass their check make a gateway**, if they ask for no allow-list and their rates have periods -/
theorem build_valid (hvalid : s.check = .ok ()) (hdecode : HandlerSettings.decode s.network.handler = .ok h)
    (hlist : h.allowlist = none) (hrates : ∀ r ∈ h.rateLimiter, HasPeriod r.globalRps ∧ HasPeriod r.perUserRps)
    (hasSource : Bool) :
    ∃ limiter, build s.network.handler s.network hasSource = .ok ⟨⟨h, s.network⟩, none, limiter⟩ ∧
      ∀ l ∈ limiter, l.Untouched := by
  obtain ⟨hnetwork, h', hparse⟩ := s.parts_of_check hvalid
  obtain ⟨hsame, hproblems⟩ := HandlerSettings.parse_eq_ok_iff.1 hparse
  obtain rfl : h = h' := Except.ok.inj (hdecode.symm.trans hsame)
  obtain ⟨limiter, hlimiter, huntouched⟩ := limiter_valid hproblems hrates
  have hcontract : contract? h hasSource = .ok none := by simp only [contract?, hlist]
  refine ⟨limiter, ?_, huntouched⟩
  simp only [build, hparse, hnetwork, hcontract, hlimiter, ok_bind]
  rfl

/-! ## Admission -/

variable {S : Crypto.Scheme} {key : S.Key} {b : Built} {m : Message}

/-- a request that the holder of a key has signed for a network -/
structure Signed (S : Crypto.Scheme) (key : S.Key) (network : Network) (m : Message) : Prop where
  sender : m.body.sender = (S.address key).text
  donId : m.body.donId = network.donId
  method : m.body.method ∈ methods
  bounds : m.InBounds
  recovered : m.recoverSigner S = .ok (S.address key)

/-- its sender is accepted by a gateway that is not closing and has no allow-list -/
theorem Signed.screen {s : State} (h : Signed S key b.setup.network m) (hopen : s.closing = false)
    (hlist : s.allowlist = none) : screen S b.setup s m = .ok (S.address key) := by
  have hparse : Address.parse m.body.sender = .ok (S.address key) := h.sender ▸ Address.parse_text _
  have hwritten : 0 < Text.byteLength m.body.sender := by
    rw [h.sender, Address.text, Text.byteLength, String.utf8ByteSize_append]
    exact Nat.add_pos_left (by decide) _
  have hfields : m.checkFields = .ok () :=
    Message.checkFields_eq_ok_iff.2 ⟨h.bounds.id, h.bounds.method, h.bounds.donId, hwritten⟩
  refine (screen_eq_ok_iff 0).2 ⟨hparse, ?_⟩
  simp [Check.free, objection, hopen, hfields, h.donId, h.method, hparse, listed, hlist, h.recovered]

/-- a call that passes all checks, and whose request can be registered, is on its way -/
theorem submit_admits {g : Setup} {s : State} {now call : Nat} {sender : Address} {table : Table}
    (hscreen : Gateway.screen S g s m = .ok sender) (hcharge : (charge s sender now).1 = true)
    (hregister : s.table.register g.limits (RequestKey.ofMessage m) call (now + g.timeout) = .ok table) :
    (submit S g s now call m).table = table ∧
      (submit S g s now call m).calls = s.calls ++ [⟨call, RequestKey.ofMessage m, methodLabel m.body.method⟩] ∧
      (submit S g s now call m).trace = s.trace ++ [.sent call m] := by
  simp only [submit, hscreen, charge_state, hcharge, Bool.not_true, Bool.false_eq_true, if_false, hregister]
  exact ⟨rfl, rfl, rfl⟩

/-- **The first signed request is admitted**, whatever the caps and the rates: it is registered, sent, and on its way -/
theorem submit_signed (h : Signed S key b.setup.network m) (hlist : b.contract = none)
    (hlimiter : ∀ l ∈ b.limiter, l.Untouched) :
    (reached S b [.start, .sweep 0, .submit 0 0 m]).calls =
        [⟨0, RequestKey.ofMessage m, methodLabel m.body.method⟩] ∧
      (reached S b [.start, .sweep 0, .submit 0 0 m]).table.find? (RequestKey.ofMessage m) =
        some ⟨RequestKey.ofMessage m, 0, [], 0 + b.setup.timeout⟩ ∧
      (reached S b [.start, .sweep 0, .submit 0 0 m]).trace = [.started (.ok ()), .sent 0 m] := by
  have hallowlist : (reached S b [.start, .sweep 0]).allowlist = none :=
    (allowlist_reached S b _).trans (by rw [hlist]; rfl)
  have hlimiter' : (reached S b [.start, .sweep 0]).limiter = b.limiter := rfl
  have hcharge : (charge (reached S b [.start, .sweep 0]) (S.address key) 0).1 = true :=
    (charge_granted _ _ _).2 fun l hl => (hlimiter l (hlimiter' ▸ hl)).allows _ _
  have hroom : ∀ cap, ¬ (0 < cap ∧ cap ≤ 0) := by omega
  have hregister : Table.empty.register b.setup.limits (RequestKey.ofMessage m) 0 (0 + b.setup.timeout) =
      .ok ⟨[⟨RequestKey.ofMessage m, 0, [], 0 + b.setup.timeout⟩],
        Pending.countUp (RequestKey.ofMessage m).sender [], false⟩ := by
    simp only [Table.register, Table.empty, Table.contains, Table.find?, Table.size, Pending.countOf, List.find?_nil,
      List.length_nil, Option.isSome_none, Bool.false_eq_true, if_false, if_neg (hroom _), List.nil_append]
  obtain ⟨htable, hcalls, htrace⟩ := submit_admits (s := reached S b [.start, .sweep 0])
    (h.screen rfl hallowlist) hcharge hregister
  refine ⟨hcalls, ?_, htrace⟩
  calc (reached S b [.start, .sweep 0, .submit 0 0 m]).table.find? (RequestKey.ofMessage m)
      = (submit S b.setup (reached S b [.start, .sweep 0]) 0 0 m).table.find? (RequestKey.ofMessage m) := rfl
    _ = some ⟨RequestKey.ofMessage m, 0, [], 0 + b.setup.timeout⟩ := by
      rw [htable]
      simp [Table.find?]

end Gateway

/-! ## The request -/

namespace Harness

open Gateway (Signed tooFew)
open Simulation (GatewayClock)
open Simulation.GatewayClock (flightOf served servedOps)

variable {S : Crypto.Scheme} {key : S.Key} {b : Built} {faulty : Nat} {m : Message}

/-- what signing makes of a request -/
theorem signed_message (r : Request) (network : Network) (hmethod : r.method ∈ Gateway.methods)
    (hid : 1 ≤ Text.byteLength r.messageId ∧ Text.byteLength r.messageId ≤ 128)
    (hdon : Text.byteLength network.donId ≤ 64)
    (hrecovers : S.Recovers key (Message.unsigned r.messageId r.method network.donId r.payload).body.digest) :
    ∃ m, r.message S key network = some m ∧
      m.body = ⟨r.messageId, r.method, network.donId, (S.address key).text, r.payload⟩ ∧ Signed S key network m := by
  obtain ⟨m, hsign, hsigned⟩ := Message.sign_then_check _ key hrecovers
  have hbody : m.body = ⟨r.messageId, r.method, network.donId, (S.address key).text, r.payload⟩ := by
    obtain ⟨σ, -, rfl⟩ := Option.map_eq_some_iff.1 hsign
    rfl
  have hwidth : ∀ method ∈ Gateway.methods, 0 < Text.byteLength method ∧
      Text.byteLength method ≤ Body.methodWidth := by decide
  refine ⟨m, hsign, hbody, ?_⟩
  refine { sender := ?_, donId := ?_, method := ?_, bounds := ⟨?_, ?_, ?_⟩, recovered := hsigned.recovered }
  all_goals rw [hbody]
  · exact hmethod
  · exact hid
  · exact hwidth _ hmethod
  · exact hdon

/-- a signed request, and a gateway for it that has just been built -/
structure Ready (S : Crypto.Scheme) (key : S.Key) (b : Built) (m : Message) : Prop where
  signed : Signed S key b.setup.network m
  network : b.setup.network.check = .ok ()
  unlisted : b.setup.settings.allowlist = none
  contract : b.contract = none
  untouched : ∀ l ∈ b.limiter, l.Untouched

/-! ## Enough nodes, or too few -/

/-- as many nodes are left as a quorum needs -/
def Enough (n : Network) (faulty : Nat) : Prop := n.f + 1 ≤ n.members.length - min faulty n.members.length

/-- the error of a request of which too many sends have failed -/
def tooFewError (n : Network) (faulty : Nat) : GatewayError :=
  .insufficientNodes (min faulty n.members.length) n.members.length

/-- what is to be said of responses that are forwarded: each is the acknowledgement of a member -/
theorem mem_acknowledgements {r : String × Message}
    (hr : r ∈ acknowledgements b.setup.network.members faulty m) :
    b.setup.network.isMember r.1 = true ∧ RequestKey.ofMessage r.2 = RequestKey.ofMessage m ∧
      r.2 = acknowledged m := by
  obtain ⟨n, hn, rfl⟩ := List.mem_map.1 hr
  exact ⟨Network.isMember_iff.2 (List.mem_map_of_mem (List.mem_of_mem_drop hn)), rfl, rfl⟩

section Ready

variable (h : Ready S key b m)
include h

theorem Ready.nodup : (Network.addresses b.setup.network.members).Nodup :=
  Network.nodup_addresses_of_check h.network

theorem Ready.report (faulty : Nat) :
    (FanOut.report (flightOf b faulty m).legs).failed.length = min faulty b.setup.network.members.length ∧
      (FanOut.report (flightOf b faulty m).legs).total = b.setup.network.members.length :=
  report_connections h.nodup faulty m.body.method b.setup.timeout

/-- **The two bounds agree**: too many sends have failed exactly if fewer nodes are left than a quorum needs -/
theorem Ready.tooFew_iff (faulty : Nat) :
    tooFew b.setup (flightOf b faulty m).legs ↔ ¬ Enough b.setup.network faulty := by
  have hfaulty := (Network.check_ok_iff.1 h.network).2.1
  rw [tooFew, (h.report faulty).1, Enough, Quorum.maxSendFailures]
  simp only [Gateway.Setup.quorum]
  omega

/-- the request is on its way when it has been submitted -/
theorem Ready.on_its_way :
    (reached S b [.start, .sweep 0, .submit 0 0 m]).calls.find? (fun c => c.id = 0) =
        some ⟨0, RequestKey.ofMessage m, Gateway.methodLabel m.body.method⟩ ∧
      (reached S b [.start, .sweep 0, .submit 0 0 m]).calls.any (fun c => c.id = 0) = true := by
  rw [(Gateway.submit_signed h.signed h.contract h.untouched).1]
  simp

/-- what the responses of the nodes that can be reached settle the request with, in whatever order they come in -/
theorem Ready.settled {rs : List (String × Message)}
    (hperm : rs.Perm (acknowledgements b.setup.network.members faulty m)) :
    (Enough b.setup.network faulty →
      Quorum.settled b.setup.quorum [] (rs.map Gateway.low) = some (.success (acknowledged m))) ∧
    (¬ Enough b.setup.network faulty → Quorum.settled b.setup.quorum [] (rs.map Gateway.low) = none) := by
  have hfaulty := (Network.check_ok_iff.1 h.network).2.1
  have hdistinct : ((rs.map Gateway.low).map Prod.fst).Nodup := by
    rw [((hperm.map Gateway.low).map Prod.fst).nodup_iff, acknowledgements, List.map_map, List.map_map]
    exact h.nodup.sublist ((List.drop_sublist _ _).map _)
  have hsame : ∀ r ∈ rs.map Gateway.low, r.2 = acknowledged m := by
    intro r hr
    obtain ⟨r', hr', rfl⟩ := List.mem_map.1 hr
    exact (mem_acknowledgements (hperm.subset hr')).2.2
  have hlength : (rs.map Gateway.low).length = b.setup.network.members.length - faulty := by
    rw [List.length_map, hperm.length_eq, acknowledgements, List.length_map, List.length_drop]
  have hfits : (rs.map Gateway.low).length ≤ b.setup.quorum.members := hlength.trans_le (Nat.sub_le _ _)
  constructor
  · intro henough
    apply Quorum.settled_same hdistinct hfits hsame
    rw [hlength, Quorum.threshold, Gateway.Setup.quorum]
    unfold Enough at henough
    simp only
    omega
  · intro hfew
    apply Quorum.settled_same_few hdistinct hfits hsame
    · rw [hlength, Quorum.threshold, Gateway.Setup.quorum]
      unfold Enough at hfew
      simp only
      omega
    · exact hfaulty

/-- **Enough nodes are left**: the sender receives their acknowledgement, before or after its call returns -/
theorem Ready.trace_enough (henough : Enough b.setup.network faulty) {early late : List (String × Message)}
    (hperm : (early ++ late).Perm (acknowledgements b.setup.network.members faulty m)) :
    (reached S b (servedOps b faulty m early late)).trace = [.started (.ok ()), .sent 0 m,
        .delivered 0 (.success (acknowledged m)), .returned 0 (.ok ())] ∨
      (reached S b (servedOps b faulty m early late)).trace = [.started (.ok ()), .sent 0 m, .returned 0 (.ok ()),
        .delivered 0 (.success (acknowledged m))] := by
  obtain ⟨-, hopen, htrace⟩ := Gateway.submit_signed h.signed h.contract h.untouched
  have hrun : reached S b (servedOps b faulty m early late) =
      Gateway.run S b.setup (reached S b [.start, .sweep 0, .submit 0 0 m])
        (Gateway.forwarded 0 (flightOf b faulty m).legs early late) := Gateway.run_append _ _ _ _ _
  have hforwarded := Gateway.trace_forwarded (S := S) h.on_its_way.1 hopen rfl
    (mt (h.tooFew_iff faulty).1 (not_not_intro henough))
    (fun r hr => (mem_acknowledgements (hperm.subset hr)).1)
    (fun r hr => (mem_acknowledgements (hperm.subset hr)).2.1)
    ((h.settled hperm).1 henough)
  rw [htrace] at hforwarded
  rw [hrun]
  exact hforwarded

/-- **Too few nodes are left**: the request is evicted, and its call fails -/
theorem Ready.trace_few (hfew : ¬ Enough b.setup.network faulty) {early late : List (String × Message)}
    (hperm : (early ++ late).Perm (acknowledgements b.setup.network.members faulty m)) :
    (reached S b (servedOps b faulty m early late)).trace = [.started (.ok ()), .sent 0 m, .dropped 0,
      .returned 0 (.error (tooFewError b.setup.network faulty))] := by
  obtain ⟨-, hopen, htrace⟩ := Gateway.submit_signed h.signed h.contract h.untouched
  have hrun : reached S b (servedOps b faulty m early late) =
      Gateway.run S b.setup (reached S b [.start, .sweep 0, .submit 0 0 m])
        (Gateway.forwarded 0 (flightOf b faulty m).legs early late) := Gateway.run_append _ _ _ _ _
  rw [hrun, Gateway.trace_forwarded_evicted (S := S) h.on_its_way.1 hopen rfl ((h.tooFew_iff faulty).2 hfew)
    (fun r hr => (mem_acknowledgements (hperm.subset hr)).1)
    (fun r hr => (mem_acknowledgements (hperm.subset hr)).2.1)
    ((h.settled hperm).2 hfew), htrace, (h.report faulty).1, (h.report faulty).2]
  rfl

/-- what the sender is told -/
theorem Ready.told (faulty : Nat) :
    (Enough b.setup.network faulty →
      (serve S b faulty (S.address key) m).result = .ok () ∧
        (serve S b faulty (S.address key) m).reply = some (.success (acknowledged m))) ∧
    (¬ Enough b.setup.network faulty →
      (serve S b faulty (S.address key) m).result = .error (tooFewError b.setup.network faulty) ∧
        (serve S b faulty (S.address key) m).reply =
          some (.failure .handlerError (tooFewError b.setup.network faulty).text)) := by
  obtain ⟨hresult, hreply⟩ := serve_eq h.unlisted h.nodup faulty (S.address key) h.on_its_way.2
  have hperm : (acknowledgements b.setup.network.members faulty m ++ []).Perm
      (acknowledgements b.setup.network.members faulty m) := by rw [List.append_nil]
  rw [hresult, hreply]
  constructor
  · intro henough
    rcases h.trace_enough henough hperm with htrace | htrace <;>
      simp [GatewayClock.returned?, delivered?, served, htrace]
  · intro hfew
    have hreturned : (served S b faulty m (some ⟨[S.address key], .answer⟩)).returned? 0 =
        some (.error (tooFewError b.setup.network faulty)) := by
      simp [GatewayClock.returned?, served, h.trace_few hfew hperm]
    rw [hreturned]
    exact ⟨rfl, rfl⟩

end Ready

/-! ## Main result -/

/-- the sender receives an answer, whatever the order in which responses are forwarded, and its call returns -/
structure Answered (S : Crypto.Scheme) (key : S.Key) (b : Built) (faulty : Nat) (m answer : Message) : Prop where
  result : (serve S b faulty (S.address key) m).result = .ok ()
  reply : (serve S b faulty (S.address key) m).reply = some (.success answer)
  anyOrder : ∀ early late, (early ++ late).Perm (acknowledgements b.setup.network.members faulty m) →
    (reached S b (servedOps b faulty m early late)).trace =
        [.started (.ok ()), .sent 0 m, .delivered 0 (.success answer), .returned 0 (.ok ())] ∨
      (reached S b (servedOps b faulty m early late)).trace =
        [.started (.ok ()), .sent 0 m, .returned 0 (.ok ()), .delivered 0 (.success answer)]

/-- the call of the sender fails, whatever the order in which responses are forwarded, and nothing is received -/
structure Failed (S : Crypto.Scheme) (key : S.Key) (b : Built) (faulty : Nat) (m : Message) (error : GatewayError) :
    Prop where
  result : (serve S b faulty (S.address key) m).result = .error error
  reply : (serve S b faulty (S.address key) m).reply = some (.failure .handlerError error.text)
  anyOrder : ∀ early late, (early ++ late).Perm (acknowledgements b.setup.network.members faulty m) →
    (reached S b (servedOps b faulty m early late)).trace =
      [.started (.ok ()), .sent 0 m, .dropped 0, .returned 0 (.error error)]

/-- what becomes of a request when the first `faulty` nodes cannot be reached -/
structure Outcome (S : Crypto.Scheme) (key : S.Key) (b : Built) (faulty : Nat) (m answer : Message) : Prop where
  exactly : ((serve S b faulty (S.address key) m).reply.map Reply.code = some .noError) ↔
    b.setup.network.f + 1 ≤ b.setup.network.members.length - min faulty b.setup.network.members.length
  enough : b.setup.network.f + 1 ≤ b.setup.network.members.length - min faulty b.setup.network.members.length →
    Answered S key b faulty m answer
  few : ¬ b.setup.network.f + 1 ≤ b.setup.network.members.length - min faulty b.setup.network.members.length →
    Failed S key b faulty m
      (.insufficientNodes (min faulty b.setup.network.members.length) b.setup.network.members.length)

theorem Ready.outcome (h : Ready S key b m) (faulty : Nat) : Outcome S key b faulty m (acknowledged m) := by
  obtain ⟨henough, hfew⟩ := h.told faulty
  refine ⟨?_, fun hn => ?_, fun hn => ?_⟩
  · by_cases hn : Enough b.setup.network faulty
    · exact iff_of_true (by rw [(henough hn).2]; rfl) hn
    · exact iff_of_false (by rw [(hfew hn).2]; simp [Reply.failure]) hn
  · exact ⟨(henough hn).1, (henough hn).2, fun _ _ hperm => h.trace_enough hn hperm⟩
  · exact ⟨(hfew hn).1, (hfew hn).2, fun _ _ hperm => h.trace_few hn hperm⟩

/-- **The fault threshold of a run.** Settings that pass their check, ask for no allow-list and for no rates without a
period make a gateway. A request to it with a supported method and with fields in bounds, signed with a key whose
signatures recover to it, is answered exactly if `f + 1` of the nodes can be reached: with the fields of the request, no
signature, and the acknowledgement of its method. Otherwise it fails with the number of nodes that cannot be reached. In
either case it is so in whatever order the responses are forwarded. -/
theorem fault_threshold {s : Settings} {h : HandlerSettings} (hvalid : s.check = .ok ())
    (hdecode : HandlerSettings.decode s.network.handler = .ok h) (hlist : h.allowlist = none)
    (hrates : ∀ r ∈ h.rateLimiter, HasPeriod r.globalRps ∧ HasPeriod r.perUserRps) (key : S.Key) (r : Request)
    (hmethod : r.method ∈ Gateway.methods)
    (hid : 1 ≤ Text.byteLength r.messageId ∧ Text.byteLength r.messageId ≤ 128)
    (hdon : Text.byteLength s.network.donId ≤ 64)
    (hrecovers : S.Recovers key (Message.unsigned r.messageId r.method s.network.donId r.payload).body.digest)
    (faulty : Nat) :
    ∃ b m, Gateway.build s.network.handler s.network true = .ok b ∧ b.setup.network = s.network ∧
      r.message S key s.network = some m ∧
      Outcome S key b faulty m
        ⟨⟨r.messageId, r.method, s.network.donId, (S.address key).text,
          .object [("method", .string r.method), ("success", .bool true)]⟩, ""⟩ := by
  obtain ⟨limiter, hbuild, huntouched⟩ := Gateway.build_valid hvalid hdecode hlist hrates true
  obtain ⟨m, hmessage, hbody, hsigned⟩ := signed_message r s.network hmethod hid hdon hrecovers
  have hready : Ready S key ⟨⟨h, s.network⟩, none, limiter⟩ m :=
    ⟨hsigned, (s.parts_of_check hvalid).1, hlist, rfl, huntouched⟩
  have hanswer : acknowledged m = ⟨⟨r.messageId, r.method, s.network.donId, (S.address key).text,
      .object [("method", .string r.method), ("success", .bool true)]⟩, ""⟩ := by
    rw [acknowledged, hbody]
    rfl
  exact ⟨_, m, hbuild, rfl, hmessage, hanswer ▸ hready.outcome faulty⟩

/-! ## Four nodes -/

/-- a cap for each sender and a limit on rates -/
def limitedSettings : HandlerSettings := ⟨none, some ⟨.ofNat 2, 3, .ofNat 1, 2⟩, 1, 0, 1000⟩

/-- four nodes of which one may be faulty -/
def fourNodes : Settings :=
  ⟨.standard, "don", "functions", limitedSettings.toJson, Network.local4.members, 1⟩

def listing : Request := ⟨"secrets_list", "42", .null⟩

/-- with two nodes that cannot be reached the request is answered, and with three it fails -/
theorem fault_threshold_fourNodes :
    fourNodes.check = .ok () ∧ HandlerSettings.decode fourNodes.network.handler = .ok limitedSettings ∧
      (∀ r ∈ limitedSettings.rateLimiter, HasPeriod r.globalRps ∧ HasPeriod r.perUserRps) ∧
      (∃ b m, Gateway.build fourNodes.network.handler fourNodes.network true = .ok b ∧
        listing.message Message.recordedScheme () fourNodes.network = some m ∧
        (serve Message.recordedScheme b 2 Message.recordedSigner m).reply.map Reply.code = some .noError) ∧
      ∃ b m, Gateway.build fourNodes.network.handler fourNodes.network true = .ok b ∧
        listing.message Message.recordedScheme () fourNodes.network = some m ∧
        (serve Message.recordedScheme b 3 Message.recordedSigner m).reply.map Reply.reason =
          some "failed to send to enough nodes (3 of 4 sends failed), please retry" := by
  have hvalid : fourNodes.check = .ok () := by
    rw [Settings.check_eq, Problem.report_eq_ok_iff]
    decide +kernel
  have hdecode : HandlerSettings.decode fourNodes.network.handler = .ok limitedSettings := by
    have hsome : (HandlerSettings.decode fourNodes.network.handler).toOption = some limitedSettings := by
      decide +kernel
    cases hread : HandlerSettings.decode fourNodes.network.handler with
    | error e => simp [hread, Except.toOption] at hsome
    | ok h =>
      rw [hread] at hsome
      exact congrArg _ (Option.some.inj hsome)
  have hrates : ∀ r ∈ limitedSettings.rateLimiter, HasPeriod r.globalRps ∧ HasPeriod r.perUserRps := by
    rintro r ⟨⟩
    constructor
    · exact RateLimit.hasPeriod_iff.2 ⟨500000000, by decide +kernel, by decide⟩
    · exact RateLimit.hasPeriod_iff.2 ⟨1000000000, by decide +kernel, by decide⟩
  have hrecovers : Message.recordedScheme.Recovers ()
      (Message.unsigned listing.messageId listing.method fourNodes.network.donId listing.payload).body.digest :=
    ⟨Message.recorded, 0, rfl, by simp [Message.recordedScheme]⟩
  have hthreshold := fault_threshold (S := Message.recordedScheme) hvalid hdecode rfl hrates () listing (by decide)
    (by decide) (by decide) hrecovers
  refine ⟨hvalid, hdecode, hrates, ?_, ?_⟩
  · obtain ⟨b, m, hbuild, hnetwork, hmessage, houtcome⟩ := hthreshold 2
    refine ⟨b, m, hbuild, hmessage, houtcome.exactly.2 ?_⟩
    rw [hnetwork]
    decide
  · obtain ⟨b, m, hbuild, hnetwork, hmessage, houtcome⟩ := hthreshold 3
    have hfew := houtcome.few
    rw [hnetwork] at hfew
    refine ⟨b, m, hbuild, hmessage, ?_⟩
    rw [show Message.recordedSigner = Message.recordedScheme.address () from rfl, (hfew (by decide)).reply]
    decide +kernel

end Harness

end QuorumGateway
