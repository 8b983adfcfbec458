import QuorumGateway.Proofs.FanOut.Report
import QuorumGateway.Proofs.Gateway.Agreement
import QuorumGateway.Proofs.Gateway.Forwarding
import QuorumGateway.Proofs.Quorum.Completion
/-!
The end of the sends of a call against the quorum that its request waits for. A call fails when no more than `f` members
have been reached, and these are exactly the cases in which no responses of theirs can be agreed on (`hopeless_iff`). By
then the request may have been settled all the same, or may have been overdue; then there is nothing left to give up,
and the call returns without an error.

- `sendsEnd_of_concluded`: what the end of the sends does, for whatever a fan-out has come to.
- `send_bound`: when the call fails, what it takes out of the table, and that it leaves everything as it is otherwise.
-/

namespace QuorumGateway

namespace Quorum

variable {q : Quorum} {rs : Responses} {keys : List String}

/-- what is agreed on has come from more nodes than may be faulty -/
theorem lt_length_of_agreed {m : Message} (h : q.decision rs = .agreed m) : q.f < rs.length :=
  Nat.lt_of_lt_of_le (Nat.lt_of_succ_le (enough_of_agreed h).2) List.countP_le_length

/-- enough nodes agree when all of them answer with one message -/
theorem exists_agreed (hkeys : keys.Nodup) (henough : q.f < keys.length) (a : Message) :
    ∃ m, q.decision (SortedMap.ofPairs (keys.map fun k => (k, a))) = .agreed m := by
  have hnodup : ((keys.map fun k => (k, a)).map Prod.fst).Nodup := by
    rw [List.map_map]
    simpa [Function.comp_def] using hkeys
  have hsame : ∀ r ∈ keys.map fun k => (k, a), r.2 = a := fun r hr => by
    obtain ⟨k, -, rfl⟩ := List.mem_map.1 hr
    rfl
  refine (believed_iff q _).1 ⟨ballot a, ?_⟩
  rw [votes_ofPairs hnodup, votes_same hsame, List.length_map]
  exact henough

end Quorum

/-! ## Members that were reached -/

namespace FanOut

variable {legs : List Leg} {d : QuorumGateway.Network}

/-- the keys under which responses of the members are kept to which a send has succeeded -/
def reachedKeys (legs : List Leg) : List String :=
  (legs.filter fun l => l.error.isNone).map fun l => Text.lower l.address

/-- the responses to a request that all members reached have answered -/
def allAnswered (legs : List Leg) (answer : String → Message) : Responses :=
  SortedMap.ofPairs ((reachedKeys legs).map fun key => (key, answer key))

theorem length_reachedKeys (legs : List Leg) : (reachedKeys legs).length = (report legs).succeeded := by
  rw [reachedKeys, List.length_map, report, List.countP_eq_length_filter]

theorem nodup_reachedKeys (hcheck : d.check = .ok ()) (hlegs : legs.map Leg.address = d.members.map Member.address) :
    (reachedKeys legs).Nodup := by
  have hall : legs.map (fun l => Text.lower l.address) = Network.addresses d.members := by
    rw [Network.addresses, ← Function.comp_def Text.lower Leg.address, ← List.map_map, hlegs, List.map_map]
    rfl
  exact (hall ▸ Network.nodup_addresses_of_check hcheck).sublist (List.filter_sublist.map _)

theorem length_allAnswered (hnodup : (reachedKeys legs).Nodup) (answer : String → Message) :
    (allAnswered legs answer).length = (report legs).succeeded := by
  have hkeys : (((reachedKeys legs).map fun key => (key, answer key)).map Prod.fst).Nodup := by
    rw [List.map_map]
    simpa [Function.comp_def] using hnodup
  rw [allAnswered, (SortedMap.ofPairs_perm hkeys).length_eq, List.length_map, length_reachedKeys]

/-- **When a call is hopeless**: no more members have been reached than may be faulty exactly when, whatever those that
have been reached answer, there is nothing to agree on -/
theorem hopeless_iff (q : Quorum) (hnodup : (reachedKeys legs).Nodup) :
    (report legs).succeeded ≤ q.f ↔ ∀ answer m, q.decision (allAnswered legs answer) ≠ .agreed m := by
  constructor
  · intro hfew answer m hagreed
    have hlt := Quorum.lt_length_of_agreed hagreed
    rw [length_allAnswered hnodup] at hlt
    omega
  · intro hnone
    by_contra hmany
    rw [← length_reachedKeys, Nat.not_le] at hmany
    obtain ⟨m, hm⟩ := Quorum.exists_agreed hnodup hmany (.unsigned "" "" "" .null)
    exact hnone (fun _ => .unsigned "" "" "" .null) m hm

/-- nor do the answers of some of them help -/
theorem hopeless {q : Quorum} {rs : Responses} (hfew : (report legs).succeeded ≤ q.f) (hrs : rs.Ascending)
    (hkeys : rs.keys ⊆ reachedKeys legs) (m : Message) : q.decision rs ≠ .agreed m := by
  intro hagreed
  have hlt := Quorum.lt_length_of_agreed hagreed
  have hle := (List.subperm_of_subset hrs.nodup_keys hkeys).length_le
  rw [SortedMap.keys, List.length_map, length_reachedKeys] at hle
  omega

end FanOut

/-! ## The end of the sends -/

namespace Gateway

open Pending (Entry Table)
open FanOut (Leg)

variable {S : Crypto.Scheme} {g : Setup} {b : Built} {s : State} {c : Call} {e : Entry} {call : Nat} {legs : List Leg}

theorem tooFew_iff (hcheck : g.network.check = .ok ())
    (hlegs : legs.map Leg.address = g.network.members.map Member.address) :
    tooFew g legs ↔ (FanOut.report legs).succeeded ≤ g.network.f := by
  obtain ⟨-, hfaulty, -, -⟩ := Network.check_ok_iff.1 hcheck
  have hlength := FanOut.length_of_addresses hlegs
  have htotal := FanOut.report_total legs
  simp only [tooFew, Quorum.maxSendFailures, Setup.quorum]
  omega

/-- a call whose sends end is accepted unless there is a request to give up -/
theorem finish_passes (hcall : s.calls.find? (fun c => c.id = call) = some c)
    (hgone : tooFew g legs → s.table.find? c.key = none) :
    (finish g s call legs).trace = s.trace ++ [.returned call (.ok ())] ∧ (finish g s call legs).table = s.table := by
  by_cases hfew : tooFew g legs
  · have hid : c.id = call := by simpa using List.find?_some hcall
    have hless : ¬ (FanOut.report legs).failed.length < g.quorum.maxSendFailures := Nat.not_lt.2 hfew
    simp only [finish, hcall, State.count, if_neg hless, Table.evict, hgone hfew,
      Table.erase_of_find?_none (hgone hfew), accept, State.emit, State.withTable, hid, and_self]
  · exact finish_accepts hcall hfew

/-- only the end of its sends ends a call that is on its way -/
theorem Effect.keeps_call {o : Op} {table : Table} {calls : List Call} {es : List Event}
    (heff : Effect S g s o table calls es) (hc : c ∈ s.calls) (ho : ∀ legs, o ≠ .finish c.id legs) : c ∈ calls := by
  have hother : ∀ call legs, o = .finish call legs → c ∈ s.calls.filter fun c => c.id ≠ call := by
    rintro call legs rfl
    refine List.mem_filter.2 ⟨hc, decide_eq_true fun hid => ho legs ?_⟩
    rw [hid]
  cases heff with
  | admitted => exact List.mem_append_left _ hc
  | accepted call legs => exact hother call legs rfl
  | evicted call legs => exact hother call legs rfl
  | _ => exact hc

theorem call_mem_run (ops : List Op) (hc : c ∈ s.calls) (hopen : ∀ legs, .finish c.id legs ∉ ops) :
    c ∈ (run S g s ops).calls := by
  induction ops generalizing s with
  | nil => exact hc
  | cons o ops ih =>
    obtain ⟨es, -, heff⟩ := step_effect S g s o
    have hkept := heff.keeps_call hc fun legs ho => hopen legs (ho ▸ List.mem_cons_self)
    exact ih hkept fun legs hmem => hopen legs (List.mem_cons_of_mem o hmem)

/-- a call whose message passes all checks and whose request is registered -/
structure Admits (S : Crypto.Scheme) (g : Setup) (s : State) (now call : Nat) (m : Message) : Prop where
  checked : ∃ sender, screen S g s m = .ok sender ∧ (charge s sender now).1 = true
  registered : ∃ table, s.table.register g.limits (RequestKey.ofMessage m) call (now + g.timeout) = .ok table

theorem Admits.call_mem {now : Nat} {m : Message} (h : Admits S g s now call m) :
    ⟨call, RequestKey.ofMessage m, methodLabel m.body.method⟩ ∈ (submit S g s now call m).calls := by
  obtain ⟨sender, hscreen, hcharge⟩ := h.checked
  obtain ⟨table, hregister⟩ := h.registered
  simp only [submit, hscreen, charge_state, hcharge, hregister, State.emit, State.withTable]
  exact List.mem_append_right _ List.mem_cons_self

/-! ## Callbacks that are closed -/

/-- a callback that has been dropped has received nothing, and receives nothing -/
theorem received_of_dropped {ops : List Op} (hfresh : (ops.filterMap Op.submits?).Nodup) {callback : Nat}
    (hdropped : .dropped callback ∈ (reached S b ops).trace) : received (reached S b ops).trace callback = [] := by
  have hcount := (inv_reached S b ops hfresh).once.count_eq callback
  have hle := List.nodup_iff_count_le_one.1 hfresh callback
  have hpos := List.count_pos_iff.2 (mem_drops.2 hdropped)
  rw [List.count_append, List.count_append] at hcount
  refine List.length_eq_zero_iff.1 ?_
  rw [length_received]
  omega

/-- a call on its way has not ended -/
theorem Inv.not_returned {submitted : List Nat} (h : Inv submitted s.table s.calls s.trace) (hfresh : submitted.Nodup)
    (hc : c ∈ s.calls) (result : Except GatewayError Unit) : .returned c.id result ∉ s.trace := by
  intro hmem
  have hreturned : c.id ∈ returns s.trace := List.mem_filterMap.2 ⟨_, hmem, rfl⟩
  exact (List.nodup_append.1 (h.ended.nodup_iff.2 hfresh)).2.2 _ (List.mem_map_of_mem hc) _ hreturned rfl

/-! ## Main result -/

/-- the error of a call that has reached too few of its nodes -/
def shortOf (network : Network) (legs : List Leg) : GatewayError :=
  .insufficientNodes (network.members.length - (FanOut.report legs).succeeded) network.members.length

/-- what the end of the sends of a call does after a run, when its request has the given key -/
structure SendsEnd (S : Crypto.Scheme) (b : Built) (network : Network) (ops : List Op) (call : Nat) (key : RequestKey)
    (legs : List Leg) : Prop where
  /-- the call fails exactly when no more members have been reached than may be faulty and there is a request with its
  key -/
  fails_iff : .returned call (.error (shortOf network legs)) ∈ (reached S b (ops ++ [.finish call legs])).trace ↔
    (FanOut.report legs).succeeded ≤ network.f ∧ (reached S b ops).table.contains key = true
  /-- then that request is gone, and its callback is closed: it has received nothing, and never does -/
  evicts : (FanOut.report legs).succeeded ≤ network.f → ∀ e, (reached S b ops).table.find? key = some e →
    (reached S b (ops ++ [.finish call legs])).table = (reached S b ops).table.erase key ∧
    (reached S b (ops ++ [.finish call legs])).table.contains key = false ∧
    (reached S b (ops ++ [.finish call legs])).trace =
      (reached S b ops).trace ++ [.dropped e.callback, .returned call (.error (shortOf network legs))] ∧
    ∀ more, ((ops ++ .finish call legs :: more).filterMap Op.submits?).Nodup →
      received (reached S b (ops ++ .finish call legs :: more)).trace e.callback = []
  /-- otherwise it returns without an error, and the table stays as it is -/
  passes : ¬ ((FanOut.report legs).succeeded ≤ network.f ∧ (reached S b ops).table.contains key = true) →
    (reached S b (ops ++ [.finish call legs])).table = (reached S b ops).table ∧
    (reached S b (ops ++ [.finish call legs])).trace = (reached S b ops).trace ++ [.returned call (.ok ())]

theorem sendsEnd {ops : List Op} (hcheck : b.setup.network.check = .ok ()) (hfresh : (ops.filterMap Op.submits?).Nodup)
    (hc : c ∈ (reached S b ops).calls) (hlegs : legs.map Leg.address = b.setup.network.members.map Member.address) :
    SendsEnd S b b.setup.network ops c.id c.key legs := by
  have hinv := inv_reached S b ops hfresh
  have hcall := hinv.find_call hfresh hc
  have hfew := tooFew_iff hcheck hlegs
  have herror : GatewayError.insufficientNodes (FanOut.report legs).failed.length (FanOut.report legs).total =
      shortOf b.setup.network legs := by
    have hlength := FanOut.length_of_addresses hlegs
    have htotal := FanOut.report_total legs
    rw [shortOf, FanOut.Report.total, ← hlength, ← htotal, Nat.add_sub_cancel_left]
  have hpasses : ¬ ((FanOut.report legs).succeeded ≤ b.setup.network.f ∧
      (reached S b ops).table.contains c.key = true) →
      (finish b.setup (reached S b ops) c.id legs).table = (reached S b ops).table ∧
      (finish b.setup (reached S b ops) c.id legs).trace = (reached S b ops).trace ++ [.returned c.id (.ok ())] := by
    intro hno
    have hgone : tooFew b.setup legs → (reached S b ops).table.find? c.key = none := fun htoo =>
      Option.not_isSome_iff_eq_none.1 fun hsome => hno ⟨hfew.1 htoo, hsome⟩
    exact (finish_passes hcall hgone).symm
  have hevicts : (FanOut.report legs).succeeded ≤ b.setup.network.f → ∀ e,
      (reached S b ops).table.find? c.key = some e →
      (finish b.setup (reached S b ops) c.id legs).trace =
        (reached S b ops).trace ++ [.dropped e.callback, .returned c.id (.error (shortOf b.setup.network legs))] ∧
      (finish b.setup (reached S b ops) c.id legs).table = (reached S b ops).table.erase c.key := fun hle e he =>
    herror ▸ finish_evicts hcall (hfew.2 hle) he
  refine ⟨?_, fun hle e he => ?_, ?_⟩
  all_goals rw [reached_snoc, step]
  · constructor
    · intro hmem
      by_contra hno
      rw [(hpasses hno).2] at hmem
      rcases List.mem_append.1 hmem with hmem | hmem
      · exact hinv.not_returned hfresh hc _ hmem
      · simp at hmem
    · rintro ⟨hle, hopen⟩
      obtain ⟨e, he⟩ := Option.isSome_iff_exists.1 hopen
      rw [(hevicts hle e he).1]
      simp
  · obtain ⟨htrace, htable⟩ := hevicts hle e he
    refine ⟨htable, ?_, htrace, fun more hmore => received_of_dropped hmore ?_⟩
    · rw [htable, Table.contains, Table.find?_erase_self, Option.isSome_none]
    · have hrun : reached S b (ops ++ .finish c.id legs :: more) =
          run S b.setup (finish b.setup (reached S b ops) c.id legs) more := run_append _ _ _ _ _
      rw [hrun]
      refine (trace_run S b.setup _ more).subset ?_
      rw [htrace]
      simp
  · exact hpasses

/-- a call ends so with whatever a fan-out to the members has come to -/
theorem sendsEnd_of_concluded {ops : List Op} (hcheck : b.setup.network.check = .ok ())
    (hfresh : (ops.filterMap Op.submits?).Nodup) (hc : c ∈ (reached S b ops).calls)
    (h : FanOut.Concluded b.setup.network.members legs) : SendsEnd S b b.setup.network ops c.id c.key legs :=
  sendsEnd hcheck hfresh hc h.addresses

/-- **The sends that may fail are those the quorum can do without.** A call that is admitted and registered, with
whatever happens until its sends have ended, fails exactly when no more members have been reached than may be faulty and
there still is a request with its key. It then takes that request away, and the callback of the request never receives a
value; in all other cases it returns without an error and leaves the table as it is. And no more members have been
reached than may be faulty exactly when no responses of those reached can be agreed on. -/
theorem send_bound (S : Crypto.Scheme) {raw : Json} {network : Network} {hasSource : Bool}
    (hbuild : build raw network hasSource = .ok b) {pre mid : List Op} {now : Nat} {m : Message}
    (hfresh : ((pre ++ .submit now call m :: mid).filterMap Op.submits?).Nodup)
    (hadmits : Admits S b.setup (reached S b pre) now call m) (hopen : ∀ legs, .finish call legs ∉ mid)
    (hlegs : legs.map Leg.address = network.members.map Member.address) :
    SendsEnd S b network (pre ++ .submit now call m :: mid) call (RequestKey.ofMessage m) legs ∧
    ((FanOut.report legs).succeeded ≤ network.f ↔
      ∀ answer m, b.setup.quorum.decision (FanOut.allAnswered legs answer) ≠ .agreed m) ∧
    ((FanOut.report legs).succeeded ≤ network.f → ∀ rs : Responses, rs.Ascending →
      rs.keys ⊆ FanOut.reachedKeys legs → ∀ m, b.setup.quorum.decision rs ≠ .agreed m) := by
  obtain ⟨rfl, hcheck⟩ := network_of_build hbuild
  have hrun : reached S b (pre ++ .submit now call m :: mid) =
      run S b.setup (submit S b.setup (reached S b pre) now call m) mid := run_append _ _ _ _ _
  have hc := call_mem_run (S := S) (g := b.setup) mid hadmits.call_mem hopen
  rw [← hrun] at hc
  exact ⟨sendsEnd hcheck hfresh hc hlegs, FanOut.hopeless_iff b.setup.quorum (FanOut.nodup_reachedKeys hcheck hlegs),
    fun hfew rs hrs hkeys m => FanOut.hopeless hfew hrs hkeys m⟩

/-- the sends of a call of which only the first succeeds -/
def oneReached : List Leg := [⟨"0xaa", 0, none⟩, ⟨"0xbb", 0, some "connection reset"⟩, ⟨"0xcc", 1000, some "timed out"⟩]

/-- the node that has been reached answers before the other sends have ended -/
theorem send_bound_one :
    build .null threeNodes false = .ok threeNodeGateway ∧
      Admits aliceScheme threeNodeGateway.setup (reached aliceScheme threeNodeGateway []) 0 0 (aliceRequest "don") ∧
      (FanOut.report oneReached).succeeded = 1 ∧
      (reached aliceScheme threeNodeGateway
        [.submit 0 0 (aliceRequest "don"), .respond "0xaa" (aliceRequest "don")]).table.contains
          (RequestKey.ofMessage (aliceRequest "don")) = true ∧
      SendsEnd aliceScheme threeNodeGateway threeNodes
        [.submit 0 0 (aliceRequest "don"), .respond "0xaa" (aliceRequest "don")] 0
        (RequestKey.ofMessage (aliceRequest "don")) oneReached := by
  have hbuild : build .null threeNodes false = .ok threeNodeGateway := rfl
  obtain ⟨hscreen, hstays⟩ :
      (screen aliceScheme threeNodeGateway.setup (reached aliceScheme threeNodeGateway [])
        (aliceRequest "don")).toOption = some alice ∧
      (reached aliceScheme threeNodeGateway
        [.submit 0 0 (aliceRequest "don"), .respond "0xaa" (aliceRequest "don")]).table.contains
          (RequestKey.ofMessage (aliceRequest "don")) = true := by
    decide +kernel
  have hadmits : Admits aliceScheme threeNodeGateway.setup (reached aliceScheme threeNodeGateway []) 0 0
      (aliceRequest "don") :=
    ⟨⟨alice, eq_ok_of_toOption hscreen, rfl⟩, ⟨_, rfl⟩⟩
  have hfresh : (([] ++ Op.submit 0 0 (aliceRequest "don") :: [Op.respond "0xaa" (aliceRequest "don")]).filterMap
      Op.submits?).Nodup := List.nodup_singleton 0
  have hlegs : oneReached.map Leg.address = threeNodes.members.map Member.address := rfl
  have hbound := send_bound aliceScheme hbuild hfresh hadmits (fun legs => by simp) hlegs
  exact ⟨hbuild, hadmits, rfl, hstays, hbound.1⟩

end Gateway

end QuorumGateway
