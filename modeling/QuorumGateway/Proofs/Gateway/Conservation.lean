import QuorumGateway.Proofs.FanOut.Report
import QuorumGateway.Proofs.Gateway.Contract
import QuorumGateway.Proofs.Gateway.History
import QuorumGateway.Proofs.Metrics
/-!
What the counters of a gateway add up to. Operations are made of a few parts: calls are refused or accepted, requests
are registered, evicted or settled, sends end, and responses come in. Each part counts what it does, once, and none
counts anything else (`Balanced`); so the counters of a gateway that started with none tell what has happened in all,
whichever way each operation has ended.

- `Balanced.step`: an operation keeps the books in balance.
- `isComplete_of_concluded`: one send for each member is what every fan-out comes to.
- `metrics_conserved`: the gauge is the number of open requests, every registered request is open, evicted or counted
  under the code that it was resolved with, and every call, every response and every send of an ended call is counted
  once.
-/

namespace QuorumGateway.Gateway

open Pending (Delivery Table Entry)

/-! ## What there is to count -/

/-- whether an operation registers a request -/
def registers (S : Crypto.Scheme) (g : Setup) (s : State) : Op → Bool
  | .submit now call m =>
    match screen S g s m with
    | .ok sender =>
      (charge s sender now).1 && (s.table.register g.limits (RequestKey.ofMessage m) call (now + g.timeout)).isOk
    | .error _ => false
  | _ => false

/-- whether an operation evicts a request: too few sends of a call have reached their nodes, and a request is open under
its key -/
def evicts (g : Setup) (s : State) : Op → Bool
  | .finish call legs =>
    match s.calls.find? fun c => c.id = call with
    | some c => decide (g.quorum.maxSendFailures ≤ (FanOut.report legs).failed.length) && s.table.contains c.key
    | none => false
  | _ => false

/-- whether an operation is the end of all sends of a call that is on its way -/
def endsSends (s : State) : Op → Bool
  | .finish call _ => (s.calls.find? fun c => c.id = call).isSome
  | _ => false

def Op.isRespond : Op → Bool
  | .respond _ _ => true
  | _ => false

/-- the sends that an operation ends are one for each member -/
def Op.isComplete (g : Setup) : Op → Prop
  | .finish _ legs => legs.length = g.network.members.length
  | _ => True

/-- how many operations of a run are of a kind, each judged in the state that it comes upon -/
def occurrences (S : Crypto.Scheme) (g : Setup) (kind : State → Op → Bool) (s : State) : List Op → Nat
  | [] => 0
  | o :: ops => (kind s o).toNat + occurrences S g kind (step S g s o) ops

theorem occurrences_snoc (S : Crypto.Scheme) (g : Setup) (kind : State → Op → Bool) (s : State) (ops : List Op)
    (o : Op) : occurrences S g kind s (ops ++ [o]) =
      occurrences S g kind s ops + (kind (run S g s ops) o).toNat := by
  induction ops generalizing s with
  | nil => exact (Nat.add_comm _ _).trans rfl
  | cons o' ops ih =>
    rw [List.cons_append, occurrences, occurrences, ih, Nat.add_assoc]
    rfl

/-- the number of requests that have been resolved with a code -/
def resolved (code : ErrorCode) (trace : List Event) : Nat :=
  (trace.filterMap Event.delivery?).countP fun d => d.reply.code = code

theorem resolved_append (code : ErrorCode) (a b : List Event) :
    resolved code (a ++ b) = resolved code a + resolved code b := by
  simp only [resolved, List.filterMap_append, List.countP_append]

/-- other events resolve nothing -/
theorem resolved_quiet {code : ErrorCode} {trace es : List Event} (h : ∀ ev ∈ es, ev.delivery? = none) :
    resolved code (trace ++ es) = resolved code trace := by
  rw [resolved_append, resolved, resolved, List.filterMap_eq_nil_iff.2 h, List.countP_nil, Nat.add_zero]

/-- whatever is resolved is resolved with one code -/
theorem sum_resolved (trace : List Event) :
    (ErrorCode.all.map fun code => resolved code trace).sum = (deliveries trace).length := by
  unfold resolved deliveries
  rw [List.length_map]
  induction trace.filterMap Event.delivery? with
  | nil => rfl
  | cons d ds ih =>
    simp only [ErrorCode.all, List.map_cons, List.map_nil, List.sum_cons, List.sum_nil, List.countP_cons] at ih ⊢
    cases d.reply.code <;> simp at ih ⊢ <;> omega

/-- the methods that calls are counted under -/
def countedMethods : List String := ["secrets_set", "secrets_list", "unsupported"]

theorem methodLabel_mem (method : String) : methodLabel method ∈ countedMethods := by
  unfold methodLabel
  split_ifs with hmethod
  · have hsub : methods ⊆ countedMethods := by simp [methods, countedMethods]
    exact hsub (by simpa using hmethod)
  · decide

/-- whether a series counts calls that were rejected -/
def isRejected (labels : List String) : Bool := labels[1]? == some "rejected"

/-! ## The invariant -/

/-- the books of a gateway of so many nodes, after so many registrations, evictions, ended calls and responses -/
structure Balanced (nodes registered evicted ended responses : Nat) (s : State) : Prop where
  pending : s.metrics.pending = s.table.size
  registered : registered = s.table.size + evicted + (deliveries s.trace).length
  durations : ∀ code : ErrorCode, s.metrics.durations.get [code.text] = resolved code s.trace
  ascending : s.metrics.durations.Ascending
  settled : s.metrics.durations.total = (deliveries s.trace).length
  labelled : ∀ series ∈ s.metrics.userRequests, ∃ method ∈ countedMethods, ∃ outcome ∈ ["accepted", "rejected"],
    series.1 = [method, outcome]
  calls : s.metrics.userRequests.total = (returns s.trace).length
  rejected : s.metrics.userRequests.totalOf isRejected = s.metrics.rejections.total
  responses : s.metrics.nodeResponses.total = responses
  sends : s.metrics.nodeSends.total = nodes * ended
  methods : ∀ c ∈ s.calls, c.method ∈ countedMethods

variable {S : Crypto.Scheme} {b : Built} {g : Setup} {s : State} {nodes registered evicted ended responses : Nat}

theorem balanced_ofBuilt (b : Built) (nodes : Nat) : Balanced nodes 0 0 0 0 (.ofBuilt b) where
  pending := rfl
  registered := rfl
  durations _ := rfl
  ascending := Tally.ascending_nil
  settled := rfl
  labelled := by simp [State.ofBuilt, Metrics.zero]
  calls := rfl
  rejected := rfl
  responses := rfl
  sends := rfl
  methods := by simp [State.ofBuilt]

/-! ## Parts of operations -/

theorem labelled_add {t : Tally} {method outcome : String} (hmethod : method ∈ countedMethods)
    (houtcome : outcome ∈ ["accepted", "rejected"])
    (h : ∀ series ∈ t, ∃ method ∈ countedMethods, ∃ outcome ∈ ["accepted", "rejected"], series.1 = [method, outcome]) :
    ∀ series ∈ t.add [method, outcome], ∃ method ∈ countedMethods, ∃ outcome ∈ ["accepted", "rejected"],
      series.1 = [method, outcome] := by
  intro series hseries
  rcases Tally.labels_of_mem_add hseries with hnew | hold
  · exact ⟨method, hmethod, outcome, houtcome, hnew⟩
  · obtain ⟨series', hseries', hsame⟩ := List.mem_map.1 hold
    rw [← hsame]
    exact h series' hseries'

/-- a call is refused -/
theorem Balanced.refuse (h : Balanced nodes registered evicted ended responses s) {method : String}
    (hmethod : method ∈ countedMethods) (label : String) (callback call : Nat) (e : GatewayError) :
    Balanced nodes registered evicted ended responses
      ((s.count fun x => (x.rejection label).userRequest method "rejected").emit
        [.dropped callback, .returned call (.error e)]) := by
  refine { h with registered := ?_, durations := ?_, settled := ?_, labelled := ?_, calls := ?_, rejected := ?_ }
  · simpa [State.emit, State.count, Event.delivery?] using h.registered
  · intro code
    exact (h.durations code).trans (resolved_quiet (by simp [Event.delivery?])).symm
  · simpa [State.emit, State.count, Metrics.rejection, Metrics.userRequest, Event.delivery?] using h.settled
  · exact labelled_add hmethod (by decide) h.labelled
  · simpa [State.emit, State.count, Metrics.rejection, Metrics.userRequest, Tally.total_add, Event.return?]
      using h.calls
  · simpa [State.emit, State.count, Metrics.rejection, Metrics.userRequest, Tally.total_add, Tally.totalOf_add,
      isRejected] using h.rejected

/-- a call is accepted -/
theorem Balanced.accept (h : Balanced nodes registered evicted ended responses s) {c : Call}
    (hmethod : c.method ∈ countedMethods) : Balanced nodes registered evicted ended responses (accept s c) := by
  refine { h with registered := ?_, durations := ?_, settled := ?_, labelled := ?_, calls := ?_, rejected := ?_ }
  · simpa [Gateway.accept, State.emit, State.count, Event.delivery?] using h.registered
  · intro code
    exact (h.durations code).trans (resolved_quiet (by simp [Event.delivery?])).symm
  · simpa [Gateway.accept, State.emit, State.count, Metrics.userRequest, Event.delivery?] using h.settled
  · exact labelled_add hmethod (by decide) h.labelled
  · simpa [Gateway.accept, State.emit, State.count, Metrics.userRequest, Tally.total_add, Event.return?] using h.calls
  · simpa [Gateway.accept, State.emit, State.count, Metrics.userRequest, Tally.totalOf_add, isRejected]
      using h.rejected

/-- a request is registered by a call that is then on its way -/
theorem Balanced.register (h : Balanced nodes registered evicted ended responses s) {table : Table} {c : Call}
    {m : Message} (hsize : table.size = s.table.size + 1) (hmethod : c.method ∈ countedMethods) :
    Balanced nodes (registered + 1) evicted ended responses
      (({ s.withTable table with calls := s.calls ++ [c] } : State).emit [.sent c.id m]) := by
  refine { h with pending := rfl, registered := ?_, durations := ?_, settled := ?_, calls := ?_, methods := ?_ }
  · have hregistered := h.registered
    simp [State.emit, State.withTable, Event.delivery?, hsize]
    omega
  · intro code
    exact (h.durations code).trans (resolved_quiet (by simp [Event.delivery?])).symm
  · simpa [State.emit, State.withTable, Metrics.setPending, Event.delivery?] using h.settled
  · simpa [State.emit, State.withTable, Metrics.setPending, Event.return?] using h.calls
  · intro c' hc'
    rcases List.mem_append.1 hc' with hc' | hc'
    · exact h.methods c' hc'
    · exact List.mem_singleton.1 hc' ▸ hmethod

theorem get_settled (ds : List Delivery) (m : Metrics) (hm : m.durations.Ascending) (code : ErrorCode) :
    (ds.foldl (fun m d => m.settled d.reply.code) m).durations.Ascending ∧
      (ds.foldl (fun m d => m.settled d.reply.code) m).durations.get [code.text] =
        m.durations.get [code.text] + ds.countP fun d => d.reply.code = code := by
  induction ds generalizing m with
  | nil => exact ⟨hm, rfl⟩
  | cons d ds ih =>
    have hnext : (m.settled d.reply.code).durations.Ascending := Tally.ascending_add _ hm
    obtain ⟨hascending, hget⟩ := ih _ hnext
    refine ⟨hascending, ?_⟩
    have hsame : [d.reply.code.text] = [code.text] ↔ d.reply.code = code := by
      constructor
      · intro htext
        revert htext
        cases d.reply.code <;> cases code <;> decide
      · rintro rfl
        rfl
    rw [List.foldl_cons, hget, Metrics.settled, Tally.get_add hm, List.countP_cons]
    simp only [hsame, decide_eq_true_eq]
    omega

theorem settled_frame (ds : List Delivery) (m : Metrics) :
    ∃ durations, ds.foldl (fun m d => m.settled d.reply.code) m = { m with durations } ∧
      durations.total = m.durations.total + ds.length := by
  induction ds generalizing m with
  | nil => exact ⟨m.durations, rfl, rfl⟩
  | cons d ds ih =>
    obtain ⟨durations, hframe, htotal⟩ := ih (m.settled d.reply.code)
    refine ⟨durations, hframe, ?_⟩
    rw [htotal, Metrics.settled, Tally.total_add, List.length_cons]
    omega

/-- requests are settled: they are taken out of the table and their callbacks receive values -/
theorem Balanced.settle (h : Balanced nodes registered evicted ended responses s) {table : Table}
    {ds : List Delivery} (hperm : s.table.callbacks.Perm (table.callbacks ++ ds.map Delivery.callback)) :
    Balanced nodes registered evicted ended responses ((s.withTable table).deliver ds) := by
  have hsize : s.table.size = table.size + ds.length := by
    simpa [Table.callbacks, Table.size] using hperm.length_eq
  obtain ⟨durations, hframe, htotal⟩ := settled_frame ds (s.metrics.setPending table.size)
  have hmetrics : ((s.withTable table).deliver ds).metrics =
      { s.metrics with pending := table.size, durations } := hframe
  have htrace : ((s.withTable table).deliver ds).trace =
      s.trace ++ ds.map fun d => .delivered d.callback d.reply := rfl
  obtain ⟨hdeliveries, -, hreturns, -⟩ := delivered_events ds
  have hsettled := get_settled ds (s.metrics.setPending table.size) h.ascending
  rw [hframe] at hsettled
  constructor
  · rw [hmetrics]
    rfl
  · have hregistered := h.registered
    rw [htrace, deliveries_append, List.length_append, hdeliveries, List.length_map]
    change registered = table.size + evicted + _
    omega
  · intro code
    have hresolved : resolved code (ds.map fun d => .delivered d.callback d.reply) =
        ds.countP fun d => d.reply.code = code := by
      simp [resolved, List.filterMap_map, Function.comp_def, Event.delivery?]
    rw [hmetrics, htrace, resolved_append, hresolved, ← h.durations code]
    exact (hsettled code).2
  · rw [hmetrics]
    exact (hsettled .noError).1
  · rw [hmetrics, htrace, deliveries_append, List.length_append, hdeliveries, List.length_map, ← h.settled]
    exact htotal
  · rw [hmetrics]
    exact h.labelled
  · rw [hmetrics, htrace, returns_append, hreturns, List.append_nil]
    exact h.calls
  · rw [hmetrics]
    exact h.rejected
  · rw [hmetrics]
    exact h.responses
  · rw [hmetrics]
    exact h.sends
  · exact h.methods

/-- a request is evicted -/
theorem Balanced.evict (h : Balanced nodes registered evicted ended responses s) {table : Table}
    (hsize : s.table.size = table.size + 1) :
    Balanced nodes registered (evicted + 1) ended responses (s.withTable table) := by
  have hregistered := h.registered
  refine { h with pending := rfl, registered := ?_ }
  change registered = table.size + (evicted + 1) + (deliveries s.trace).length
  omega

/-- nothing is evicted where no request is open -/
theorem Balanced.keep (h : Balanced nodes registered evicted ended responses s) :
    Balanced nodes registered evicted ended responses (s.withTable s.table) := { h with pending := rfl }

theorem sends_frame (legs : List FanOut.Leg) (m : Metrics) :
    ∃ nodeSends, legs.foldl (fun x l => x.nodeSend l.error.isNone) m = { m with nodeSends } ∧
      nodeSends.total = m.nodeSends.total + legs.length := by
  induction legs generalizing m with
  | nil => exact ⟨m.nodeSends, rfl, rfl⟩
  | cons l legs ih =>
    obtain ⟨nodeSends, hframe, htotal⟩ := ih (m.nodeSend l.error.isNone)
    refine ⟨nodeSends, hframe, ?_⟩
    rw [htotal, Metrics.nodeSend, Tally.total_add, List.length_cons]
    omega

/-- all sends of a call end, and it is not on its way any more -/
theorem Balanced.land (h : Balanced nodes registered evicted ended responses s) {legs : List FanOut.Leg}
    (hlegs : legs.length = nodes) (p : Call → Bool) :
    Balanced nodes registered evicted (ended + 1) responses
      (({ s with calls := s.calls.filter p } : State).count fun x =>
        legs.foldl (fun x l => x.nodeSend l.error.isNone) x) := by
  obtain ⟨nodeSends, hframe, htotal⟩ := sends_frame legs s.metrics
  simp only [State.count, hframe]
  refine { h with sends := ?_, methods := fun c hc => h.methods c (List.mem_of_mem_filter hc) }
  change nodeSends.total = _
  rw [htotal, h.sends, hlegs, Nat.mul_add, Nat.mul_one]

/-- events that concern no request -/
theorem Balanced.emit (h : Balanced nodes registered evicted ended responses s) {es : List Event}
    (hquiet : ∀ ev ∈ es, ev.isQuiet) : Balanced nodes registered evicted ended responses (s.emit es) := by
  obtain ⟨hdeliveries, -, hreturns, -⟩ := quiet_events hquiet
  refine { h with registered := ?_, durations := ?_, settled := ?_, calls := ?_ }
  · have hregistered := h.registered
    simpa [State.emit, hdeliveries] using hregistered
  · intro code
    exact (h.durations code).trans (resolved_quiet fun ev hev => (hquiet ev hev).1).symm
  · simpa [State.emit, hdeliveries] using h.settled
  · simpa [State.emit, hreturns] using h.calls

/-! ## Operations -/

theorem size_register {t table : Table} {limits : Pending.Limits} {key : RequestKey} {callback deadline : Nat}
    (h : t.register limits key callback deadline = .ok table) : table.size = t.size + 1 := by
  obtain ⟨-, -, hentries, -⟩ := Table.register_ok h
  simp [Table.size, hentries]

theorem size_erase {t : Table} (hd : t.Distinct) {key : RequestKey} {e : Entry} (hf : t.find? key = some e) :
    t.size = (t.erase key).size + 1 := by
  simpa [Table.callbacks, Table.size] using (Table.callbacks_erase hd hf).length_eq

theorem Balanced.submit (h : Balanced nodes registered evicted ended responses s) (now call : Nat) (m : Message) :
    Balanced nodes (registered + (registers S g s (.submit now call m)).toNat) evicted ended responses
      (submit S g s now call m) := by
  simp only [registers, Gateway.submit]
  cases screen S g s m with
  | error e => exact h.refuse (methodLabel_mem _) _ _ _ _
  | ok sender =>
    have hcharged : Balanced nodes registered evicted ended responses (charge s sender now).2 := by
      rw [charge_state]
      exact { h with }
    have htable : (charge s sender now).2.table = s.table := by rw [charge_state]
    rw [← htable]
    simp only
    cases (charge s sender now).1 with
    | false => exact hcharged.refuse (methodLabel_mem _) _ _ _ _
    | true =>
      cases hregister : (charge s sender now).2.table.register g.limits (RequestKey.ofMessage m) call
          (now + g.timeout) with
      | error e => exact hcharged.refuse (methodLabel_mem _) _ _ _ _
      | ok table =>
        exact hcharged.register (c := ⟨call, RequestKey.ofMessage m, methodLabel m.body.method⟩)
          (size_register hregister) (methodLabel_mem _)

theorem Balanced.finish (h : Balanced nodes registered evicted ended responses s) (hd : s.table.Distinct)
    (call : Nat) {legs : List FanOut.Leg} (hlegs : legs.length = nodes) :
    Balanced nodes registered (evicted + (evicts g s (.finish call legs)).toNat)
      (ended + (endsSends s (.finish call legs)).toNat) responses (finish g s call legs) := by
  simp only [evicts, endsSends, Gateway.finish]
  cases hcall : s.calls.find? fun c => c.id = call with
  | none => exact h
  | some c =>
    have hmethod : c.method ∈ countedMethods := h.methods c (List.mem_of_find?_eq_some hcall)
    have hlanded := h.land hlegs fun c => c.id ≠ call
    by_cases henough : (FanOut.report legs).failed.length < g.quorum.maxSendFailures
    · simp only [if_pos henough, decide_eq_false (Nat.not_le_of_lt henough)]
      exact hlanded.accept hmethod
    · simp only [if_neg henough, decide_eq_true (Nat.le_of_not_lt henough), Bool.true_and, Table.contains]
      unfold Table.evict
      cases hopen : s.table.find? c.key with
      | none =>
        have hkept : s.table.erase c.key = s.table := Table.erase_of_find?_none hopen
        simp only [State.count, hopen, hkept]
        exact hlanded.keep.accept hmethod
      | some e =>
        simp only [State.count, hopen]
        exact (hlanded.evict (size_erase hd hopen)).refuse hmethod _ _ _ _

theorem Balanced.count_response (h : Balanced nodes registered evicted ended responses s) (outcome : String) :
    Balanced nodes registered evicted ended (responses + 1) (s.count fun x => x.nodeResponse outcome) := by
  refine { h with responses := ?_ }
  simp only [State.count, Metrics.nodeResponse, Tally.total_add, h.responses]

/-- where the gauge is the number of open requests, it is so after a response, too -/
theorem State.heard_record (hgauge : s.metrics.pending = s.table.size) (q : Quorum) (key : RequestKey) (node : String)
    (m : Message) : s.heard (s.table.record q key node m).1 (s.table.record q key node m).2.1 =
      s.withTable (s.table.record q key node m).1 := by
  unfold State.heard State.withTable
  split_ifs with hresolved
  · rfl
  · rw [Table.size_record (Bool.eq_false_of_not_eq_true hresolved), ← hgauge]
    rfl

theorem Balanced.respond (h : Balanced nodes registered evicted ended responses s) (hd : s.table.Distinct)
    (node : String) (m : Message) :
    Balanced nodes registered evicted ended (responses + 1) (respond g s node m) := by
  unfold Gateway.respond
  split_ifs
  · exact h.count_response _
  · have hheard := State.heard_record h.pending g.quorum (RequestKey.ofMessage m) node m
    have hsettled := h.settle (Table.callbacks_record hd g.quorum (RequestKey.ofMessage m) node m)
    rw [← hheard] at hsettled
    exact hsettled.count_response _

/-- starting and closing a gateway concern no request -/
theorem quiet_marks (result : Except GatewayError Unit) :
    (Event.started result).isQuiet ∧ (Event.closed result).isQuiet :=
  ⟨⟨rfl, rfl, rfl, rfl⟩, rfl, rfl, rfl, rfl⟩

/-- **An operation keeps the books in balance** -/
theorem Balanced.step (h : Balanced nodes registered evicted ended responses s) (hd : s.table.Distinct)
    (hnodes : nodes = g.network.members.length) {o : Op} (hcomplete : o.isComplete g) :
    Balanced nodes (registered + (registers S g s o).toNat) (evicted + (evicts g s o).toNat)
      (ended + (endsSends s o).toNat) (responses + o.isRespond.toNat) (step S g s o) := by
  cases o with
  | submit now call m => exact h.submit now call m
  | finish call legs => exact h.finish hd call (hcomplete.trans hnodes.symm)
  | respond node m => exact h.respond hd node m
  | sweep now => exact h.settle (Table.callbacks_expire hd _ _)
  | refresh result =>
    simp only [Gateway.step, Gateway.refresh]
    cases result.toOption.map Allowlist.Snapshot.size <;> exact { h with }
  | start => exact { h with : Balanced _ _ _ _ _ { s with started := true } }.emit (by simp [quiet_marks])
  | beginClose =>
    simp only [Gateway.step, Gateway.beginClose]
    split_ifs
    · exact h.emit (by simp [quiet_marks])
    · exact { h with }
  | drain => exact (h.settle (Table.callbacks_failAll _ _ _)).emit (by simp [quiet_marks])

/-! ## Main result -/

/-- the books of a gateway after any run -/
theorem balanced_reached (S : Crypto.Scheme) (b : Built) {ops : List Op} (h : ∀ o ∈ ops, o.isComplete b.setup) :
    Balanced b.setup.network.members.length (occurrences S b.setup (registers S b.setup) (.ofBuilt b) ops)
      (occurrences S b.setup (evicts b.setup) (.ofBuilt b) ops)
      (occurrences S b.setup endsSends (.ofBuilt b) ops) (ops.countP Op.isRespond) (reached S b ops) := by
  induction ops using List.reverseRecOn with
  | nil => exact balanced_ofBuilt b _
  | append_singleton ops o ih =>
    have hbefore := ih fun o ho => h o (List.mem_append_left _ ho)
    have hstep := hbefore.step (S := S) (distinct_reached S b ops) rfl (h o (by simp))
    have hresponses : (ops ++ [o]).countP Op.isRespond = ops.countP Op.isRespond + o.isRespond.toNat := by
      rw [List.countP_append, List.countP_singleton]
      cases o.isRespond <;> rfl
    rw [occurrences_snoc, occurrences_snoc, occurrences_snoc, hresponses, reached_snoc]
    exact hstep

/-- what the counters of a gateway say after a run -/
structure Conserved (S : Crypto.Scheme) (b : Built) (ops : List Op) : Prop where
  /-- the gauge is the number of open requests -/
  pending : (reached S b ops).metrics.pending = (reached S b ops).table.size
  /-- every request that has been registered is open, has been evicted, or is counted under a code -/
  registered : occurrences S b.setup (registers S b.setup) (.ofBuilt b) ops =
    (reached S b ops).table.size + occurrences S b.setup (evicts b.setup) (.ofBuilt b) ops +
      (ErrorCode.all.map fun code => (reached S b ops).metrics.durations.get [code.text]).sum
  /-- a code counts the requests that have been resolved with it -/
  durations : ∀ code : ErrorCode,
    (reached S b ops).metrics.durations.get [code.text] = resolved code (reached S b ops).trace
  /-- and there are no other series -/
  codes : (reached S b ops).metrics.durations.total =
    (ErrorCode.all.map fun code => (reached S b ops).metrics.durations.get [code.text]).sum
  /-- a call is counted under one of three methods and one of two outcomes, whatever its message says -/
  labelled : ∀ series ∈ (reached S b ops).metrics.userRequests,
    ∃ method ∈ countedMethods, ∃ outcome ∈ ["accepted", "rejected"], series.1 = [method, outcome]
  /-- each call that has ended is counted once -/
  calls : (reached S b ops).metrics.userRequests.total = (returns (reached S b ops).trace).length
  /-- and each that was rejected has its reason counted -/
  rejected : (reached S b ops).metrics.userRequests.totalOf isRejected = (reached S b ops).metrics.rejections.total
  /-- each response is counted once -/
  responses : (reached S b ops).metrics.nodeResponses.total = ops.countP Op.isRespond
  /-- each call whose sends have ended has as many of them counted as there are members -/
  sends : (reached S b ops).metrics.nodeSends.total =
    b.setup.network.members.length * occurrences S b.setup endsSends (.ofBuilt b) ops

/-- the operations of a run are complete when its calls end with what fan-outs to the members have come to -/
theorem isComplete_of_concluded {g : Setup} {ops : List Op}
    (h : ∀ call legs, .finish call legs ∈ ops → FanOut.Concluded g.network.members legs) :
    ∀ o ∈ ops, o.isComplete g := by
  intro o ho
  cases o with
  | finish call legs => exact (h call legs ho).length_eq
  | _ => exact trivial

/-- **Nothing is missed and nothing is counted twice.** In every run of a gateway whose counters start with none, in
which a call that ends has one send for each member, the counters add up to what has happened. -/
theorem metrics_conserved (S : Crypto.Scheme) (b : Built) {ops : List Op} (h : ∀ o ∈ ops, o.isComplete b.setup) :
    Conserved S b ops := by
  have hbalanced := balanced_reached S b h
  have hsum : (ErrorCode.all.map fun code => (reached S b ops).metrics.durations.get [code.text]).sum =
      (deliveries (reached S b ops).trace).length := by
    rw [← sum_resolved]
    exact congrArg List.sum (List.map_congr_left fun code _ => hbalanced.durations code)
  exact
    { hbalanced with
      registered := by rw [hsum, hbalanced.registered]
      codes := by rw [hsum, hbalanced.settled] }

/-! ## One of each -/

/-- a gateway of one node -/
def soleNode : Built :=
  ⟨⟨⟨none, none, 0, 0, 1000⟩, ⟨"don", "functions", .null, [⟨"node", "0x01"⟩], 0⟩⟩, none, none⟩

/-- one request is answered while it is being sent, one cannot be sent and is evicted, one is for another network, and
one is open; an outsider answers, too -/
def oneOfEach : List Op :=
  [.submit 0 0 (aliceRequest "don"), .respond "0X01" (aliceRequest "don"), .finish 0 [⟨"0x01", 5, none⟩],
    .submit 10 1 (aliceRequest "don"), .finish 1 [⟨"0x01", 0, some "connection reset"⟩],
    .submit 20 2 (aliceRequest "other"), .respond "0x02" (aliceRequest "don"), .submit 30 3 (aliceRequest "don")]

theorem metrics_conserved_oneOfEach :
    (∀ o ∈ oneOfEach, o.isComplete soleNode.setup) ∧
      occurrences aliceScheme soleNode.setup (registers aliceScheme soleNode.setup) (.ofBuilt soleNode) oneOfEach = 3 ∧
      occurrences aliceScheme soleNode.setup (evicts soleNode.setup) (.ofBuilt soleNode) oneOfEach = 1 ∧
      occurrences aliceScheme soleNode.setup endsSends (.ofBuilt soleNode) oneOfEach = 2 ∧
      (reached aliceScheme soleNode oneOfEach).metrics.userRequests =
        [(["secrets_list", "accepted"], 1), (["secrets_list", "rejected"], 2)] ∧
      (reached aliceScheme soleNode oneOfEach).metrics.durations = [(["no_error"], 1)] ∧
      Conserved aliceScheme soleNode oneOfEach := by
  have hcomplete : ∀ o ∈ oneOfEach, o.isComplete soleNode.setup := by
    simp [oneOfEach, Op.isComplete, soleNode]
  obtain ⟨hregistered, hevicted, hended, hrequests, hdurations⟩ :
      occurrences aliceScheme soleNode.setup (registers aliceScheme soleNode.setup) (.ofBuilt soleNode) oneOfEach = 3 ∧
      occurrences aliceScheme soleNode.setup (evicts soleNode.setup) (.ofBuilt soleNode) oneOfEach = 1 ∧
      occurrences aliceScheme soleNode.setup endsSends (.ofBuilt soleNode) oneOfEach = 2 ∧
      (reached aliceScheme soleNode oneOfEach).metrics.userRequests =
        [(["secrets_list", "accepted"], 1), (["secrets_list", "rejected"], 2)] ∧
      (reached aliceScheme soleNode oneOfEach).metrics.durations = [(["no_error"], 1)] := by
    decide +kernel
  exact ⟨hcomplete, hregistered, hevicted, hended, hrequests, hdurations,
    metrics_conserved aliceScheme soleNode hcomplete⟩

end QuorumGateway.Gateway
