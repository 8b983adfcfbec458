import QuorumGateway.Proofs.Gateway.Step
/-!
What a caller may rely on. A call that fails has left no request behind, so its callback receives nothing; the callback
of a call that returns without an error is never dropped: it is held by an open request or has received its one value
(`Contract`).

A call ends by evicting the request with its key when too few of its sends have reached their nodes. Its own request may
have been settled by then, and the key may have been taken by a later call: then it is the request of that call that is
evicted (`Stray`). This is the only way in which the contract is broken.

- `contract_iff_no_stray`: the contract holds after a run exactly when no operation of the run was a stray eviction.
- `stray_breaks_contract`: two calls with one key, the first of which is answered before its sends have timed out. The
  first fails although its callback has received a value, and the second never hears of its request.
-/

namespace QuorumGateway.Gateway

open Pending (Delivery Table Entry)

/-! ## The contract -/

/-- the callbacks that have received values, each as often as it has -/
def deliveries (trace : List Event) : List Nat := (trace.filterMap Event.delivery?).map Delivery.callback

/-- the callbacks that have been dropped -/
def drops (trace : List Event) : List Nat := trace.filterMap Event.drop?

/-- the calls that have ended -/
def returns (trace : List Event) : List Nat := trace.filterMap Event.return?

/-- the calls that have ended with an error -/
def failures (trace : List Event) : List Nat := trace.filterMap Event.failure?

/-- whether an event ends a call without an error -/
def Event.isSuccess (call : Nat) : Event → Bool
  | .returned call' (.ok ()) => call' = call
  | _ => false

/-- the values that a callback has received -/
def received (trace : List Event) (callback : Nat) : List Reply :=
  ((trace.filterMap Event.delivery?).filter fun d => d.callback = callback).map Delivery.reply

/-- what a caller may rely on -/
structure Contract (s : State) : Prop where
  failed : ∀ call e, .returned call (.error e) ∈ s.trace → received s.trace call = []
  accepted : ∀ call, .returned call (.ok ()) ∈ s.trace →
    .dropped call ∉ s.trace ∧
      ((call ∈ s.table.callbacks ∧ received s.trace call = []) ∨
        (call ∉ s.table.callbacks ∧ ∃ reply, received s.trace call = [reply]))

/-- an eviction that hits the request of another call: too few sends of a call have reached their nodes, and the request
that is open under its key is not its own -/
def Stray (g : Setup) (s : State) : Op → Prop
  | .finish call legs =>
    tooFew g legs ∧ ∃ c ∈ s.calls, c.id = call ∧ ∃ e ∈ s.table.entries, e.key = c.key ∧ e.callback ≠ call
  | _ => False

/-! ## Reading a trace -/

@[simp] theorem deliveries_append (a b : List Event) : deliveries (a ++ b) = deliveries a ++ deliveries b := by
  simp [deliveries]

@[simp] theorem drops_append (a b : List Event) : drops (a ++ b) = drops a ++ drops b := by simp [drops]

@[simp] theorem returns_append (a b : List Event) : returns (a ++ b) = returns a ++ returns b := by simp [returns]

@[simp] theorem failures_append (a b : List Event) : failures (a ++ b) = failures a ++ failures b := by simp [failures]

@[simp] theorem deliveries_cons (ev : Event) (es : List Event) :
    deliveries (ev :: es) = (ev.delivery?.map Delivery.callback).toList ++ deliveries es := by
  cases h : ev.delivery? <;> simp [deliveries, h]

@[simp] theorem drops_cons (ev : Event) (es : List Event) : drops (ev :: es) = ev.drop?.toList ++ drops es := by
  cases h : ev.drop? <;> simp [drops, h]

@[simp] theorem returns_cons (ev : Event) (es : List Event) : returns (ev :: es) = ev.return?.toList ++ returns es := by
  cases h : ev.return? <;> simp [returns, h]

@[simp] theorem failures_cons (ev : Event) (es : List Event) :
    failures (ev :: es) = ev.failure?.toList ++ failures es := by
  cases h : ev.failure? <;> simp [failures, h]

@[simp] theorem reading_nil : deliveries [] = [] ∧ drops [] = [] ∧ returns [] = [] ∧ failures [] = [] :=
  ⟨rfl, rfl, rfl, rfl⟩

theorem length_received (trace : List Event) (c : Nat) : (received trace c).length = (deliveries trace).count c := by
  simp only [received, deliveries, List.length_map, List.count, List.countP_map, ← List.countP_eq_length_filter]
  exact List.countP_congr fun d _ => by simp

theorem mem_drops {trace : List Event} {c : Nat} : c ∈ drops trace ↔ .dropped c ∈ trace := by
  simp only [drops, List.mem_filterMap]
  constructor
  · rintro ⟨ev, hev, hc⟩
    cases ev <;> simp only [Event.drop?, reduceCtorEq, Option.some.injEq] at hc
    exact hc ▸ hev
  · intro h
    exact ⟨_, h, rfl⟩

theorem mem_failures {trace : List Event} {c : Nat} : c ∈ failures trace ↔ ∃ e, .returned c (.error e) ∈ trace := by
  simp only [failures, List.mem_filterMap]
  constructor
  · rintro ⟨ev, hev, hc⟩
    cases ev with
    | returned call result =>
      cases result <;> simp only [Event.failure?, reduceCtorEq, Option.some.injEq] at hc
      exact ⟨_, hc ▸ hev⟩
    | _ => simp [Event.failure?] at hc
  · rintro ⟨e, h⟩
    exact ⟨_, h, rfl⟩

theorem countP_isSuccess_pos {trace : List Event} {c : Nat} :
    0 < trace.countP (Event.isSuccess c) ↔ .returned c (.ok ()) ∈ trace := by
  rw [List.countP_pos_iff]
  constructor
  · rintro ⟨ev, hev, hc⟩
    cases ev with
    | returned call result =>
      cases result with
      | error e => simp [Event.isSuccess] at hc
      | ok u =>
        simp only [Event.isSuccess, decide_eq_true_eq] at hc
        exact hc ▸ hev
    | _ => simp [Event.isSuccess] at hc
  · intro h
    exact ⟨_, h, by simp [Event.isSuccess]⟩

/-- a call ends with an error or without one -/
theorem count_returns (trace : List Event) (c : Nat) :
    (returns trace).count c = trace.countP (Event.isSuccess c) + (failures trace).count c := by
  induction trace with
  | nil => rfl
  | cons ev trace ih =>
    simp only [returns_cons, failures_cons, List.count_append, List.countP_cons, ih]
    cases ev with
    | returned call result =>
      cases result <;> simp [Event.return?, Event.failure?, Event.isSuccess, List.count_cons] <;> omega
    | _ => simp [Event.return?, Event.failure?, Event.isSuccess]

theorem quiet_events {es : List Event} (h : ∀ ev ∈ es, ev.isQuiet) :
    deliveries es = [] ∧ drops es = [] ∧ returns es = [] ∧ failures es = [] := by
  simp only [deliveries, drops, returns, failures, List.map_eq_nil_iff, List.filterMap_eq_nil_iff]
  exact ⟨fun ev hev => (h ev hev).1, fun ev hev => (h ev hev).2.1, fun ev hev => (h ev hev).2.2.1,
    fun ev hev => (h ev hev).2.2.2⟩

/-- the events of values handed out, and what they are read as -/
theorem delivered_events (ds : List Delivery) :
    deliveries (ds.map fun d => .delivered d.callback d.reply) = ds.map Delivery.callback ∧
    drops (ds.map fun d => .delivered d.callback d.reply) = [] ∧
    returns (ds.map fun d => .delivered d.callback d.reply) = [] ∧
    failures (ds.map fun d => .delivered d.callback d.reply) = [] := by
  simp [deliveries, drops, returns, failures, Event.delivery?, Event.drop?, Event.return?, Event.failure?,
    Function.comp_def, List.filterMap_map]

/-! ## The invariant -/

/-- where the callbacks and the calls of a run are; `submitted` holds the calls that have been made -/
structure Inv (submitted : List Nat) (table : Table) (calls : List Call) (trace : List Event) : Prop where
  distinct : table.Distinct
  /-- each callback is held by a request, has received a value, or has been dropped -/
  once : (table.callbacks ++ (deliveries trace ++ drops trace)).Perm submitted
  /-- each call is on its way or has ended -/
  ended : (calls.map Call.id ++ returns trace).Perm submitted
  /-- the request of a call on its way has the key of the call -/
  keyed : ∀ c ∈ calls, ∀ e ∈ table.entries, e.callback = c.id → e.key = c.key

theorem inv_ofBuilt (b : Built) : Inv [] (State.ofBuilt b).table (State.ofBuilt b).calls (State.ofBuilt b).trace :=
  ⟨List.nodup_nil, .nil, .nil, fun _ hc => by simp [State.ofBuilt] at hc⟩

section Step

variable {S : Crypto.Scheme} {g : Setup} {s : State} {submitted : List Nat}

/-- the one call with an id -/
theorem Inv.find_call (h : Inv submitted s.table s.calls s.trace) (hfresh : submitted.Nodup) {c : Call}
    (hc : c ∈ s.calls) : s.calls.find? (fun c' => c'.id = c.id) = some c := by
  have hnodup : (s.calls.map Call.id).Nodup := (List.nodup_append.1 (h.ended.nodup_iff.2 hfresh)).1
  cases hf : s.calls.find? (fun c' => c'.id = c.id) with
  | none => exact absurd (decide_eq_true rfl) (List.find?_eq_none.1 hf c hc)
  | some c' =>
    have hid : c'.id = c.id := by simpa using List.find?_some hf
    rw [List.inj_on_of_nodup_map hnodup (List.mem_of_find?_eq_some hf) hc hid]

/-- the ids of the calls on their way without one of them -/
theorem Inv.ids_without (h : Inv submitted s.table s.calls s.trace) (hfresh : submitted.Nodup) {call : Nat} {c : Call}
    (hcall : s.calls.find? (fun c => c.id = call) = some c) :
    (s.calls.map Call.id).Perm (((s.calls.filter fun c => c.id ≠ call).map Call.id) ++ [call]) := by
  have hnodup : (s.calls.map Call.id).Nodup := (List.nodup_append.1 (h.ended.nodup_iff.2 hfresh)).1
  have hid : c.id = call := by simpa using List.find?_some hcall
  have hmem : call ∈ s.calls.map Call.id := hid ▸ List.mem_map_of_mem (List.mem_of_find?_eq_some hcall)
  have hfilter : (s.calls.filter fun c => c.id ≠ call).map Call.id = (s.calls.map Call.id).erase call := by
    rw [hnodup.erase_eq_filter, List.filter_map]
    congr 1
    exact List.filter_congr fun c _ => by simp [bne, beq_eq_decide]
  rw [hfilter]
  exact (List.perm_cons_erase hmem).trans (List.perm_append_singleton _ _).symm

/-- a call that ends is not on its way any more -/
theorem Inv.end_call (h : Inv submitted s.table s.calls s.trace) (hfresh : submitted.Nodup) {call : Nat} {c : Call}
    (hcall : s.calls.find? (fun c => c.id = call) = some c) {es : List Event} (hes : returns es = [call]) :
    ((s.calls.filter fun c => c.id ≠ call).map Call.id ++ returns (s.trace ++ es)).Perm submitted := by
  refine .trans (List.perm_iff_count.2 fun c => ?_) h.ended
  have hc := (h.ids_without hfresh hcall).count_eq c
  rw [returns_append, hes]
  simp only [List.count_append] at hc ⊢
  omega

/-- a call that is admitted is on its way, and its request holds its callback -/
theorem Inv.admit (h : Inv submitted s.table s.calls s.trace) {limits : Pending.Limits} {c : Call} {deadline : Nat}
    {table : Table} (hregister : s.table.register limits c.key c.id deadline = .ok table) (hnew : c.id ∉ submitted)
    {es : List Event} (hes : deliveries es = [] ∧ drops es = [] ∧ returns es = []) :
    Inv (submitted ++ [c.id]) table (s.calls ++ [c]) (s.trace ++ es) := by
  obtain ⟨-, -, hentries, -⟩ := Table.register_ok hregister
  obtain ⟨h1, h2, h3⟩ := hes
  have hold : ∀ e ∈ s.table.entries, e.callback ≠ c.id := fun e he heq =>
    hnew (h.once.subset (List.mem_append_left _ (Table.mem_callbacks.2 ⟨e, he, heq⟩)))
  have holdCall : ∀ c' ∈ s.calls, c'.id ≠ c.id := fun c' hc' heq =>
    hnew (h.ended.subset (List.mem_append_left _ (heq ▸ List.mem_map_of_mem hc')))
  refine ⟨h.distinct.register hregister, .trans (List.perm_iff_count.2 fun n => ?_) (h.once.append_right [c.id]),
    .trans (List.perm_iff_count.2 fun n => ?_) (h.ended.append_right [c.id]), fun c' hc' e he hid => ?_⟩
  · simp only [Table.callbacks_register hregister, deliveries_append, drops_append, h1, h2, List.count_append,
      List.append_nil]
    omega
  · simp only [returns_append, h3, List.map_append, List.map_cons, List.map_nil, List.count_append, List.append_nil]
    omega
  · rw [hentries] at he
    rcases List.mem_append.1 hc' with hc' | hc' <;> rcases List.mem_append.1 he with he | he
    · exact h.keyed c' hc' e he hid
    · rw [List.mem_singleton.1 he] at hid
      exact absurd hid.symm (holdCall c' hc')
    · rw [List.mem_singleton.1 hc'] at hid
      exact absurd hid (hold e he)
    · rw [List.mem_singleton.1 hc', List.mem_singleton.1 he]

/-- an operation that settles requests hands each of their callbacks a value -/
theorem Inv.settle (h : Inv submitted s.table s.calls s.trace) {table : Table} {ds : List Delivery} {es : List Event}
    (hd : table.Distinct) (hp : s.table.callbacks.Perm (table.callbacks ++ ds.map Delivery.callback))
    (hkept : ∀ e' ∈ table.entries, ∃ e ∈ s.table.entries, e'.key = e.key ∧ e'.callback = e.callback)
    (hes : deliveries es = ds.map Delivery.callback ∧ drops es = [] ∧ returns es = []) :
    Inv submitted table s.calls (s.trace ++ es) := by
  obtain ⟨h1, h2, h3⟩ := hes
  refine ⟨hd, .trans (List.perm_iff_count.2 fun c => ?_) h.once, ?_, fun c hc e' he' hid => ?_⟩
  · have hc := hp.count_eq c
    simp only [deliveries_append, drops_append, h1, h2, List.count_append, List.append_nil] at hc ⊢
    omega
  · rw [returns_append, h3, List.append_nil]
    exact h.ended
  · obtain ⟨e, he, hkey, hcallback⟩ := hkept e' he'
    rw [hkey]
    exact h.keyed c hc e he (hcallback ▸ hid)

theorem Inv.effect (h : Inv submitted s.table s.calls s.trace) {o : Op}
    (hfresh : (submitted ++ o.submits?.toList).Nodup) {table : Table} {calls : List Call} {es : List Event}
    (heff : Effect S g s o table calls es) : Inv (submitted ++ o.submits?.toList) table calls (s.trace ++ es) := by
  have hnodup : submitted.Nodup := (List.nodup_append.1 hfresh).1
  have hdistinct := heff.distinct h.distinct
  cases heff with
  | background ho hquiet =>
    obtain ⟨h1, h2, h3, -⟩ := quiet_events hquiet
    have hnone : o.submits? = none := by cases o <;> first | rfl | exact absurd ho Bool.false_ne_true
    rw [hnone, Option.toList_none, List.append_nil]
    refine ⟨hdistinct, ?_, ?_, h.keyed⟩
    · simpa [h1, h2] using h.once
    · simpa [h3] using h.ended
  | refused now call m e =>
    refine ⟨hdistinct, .trans ?_ (h.once.append_right [call]), .trans ?_ (h.ended.append_right [call]), h.keyed⟩
    · simp [Event.delivery?, Event.drop?]
    · simp [Event.return?]
  | admitted now call m hscreen hcharge hregister =>
    have hnew : call ∉ submitted := fun hmem =>
      (List.nodup_append.1 hfresh).2.2 call hmem call (by simp [Op.submits?]) rfl
    exact h.admit (c := ⟨call, RequestKey.ofMessage m, methodLabel m.body.method⟩) hregister hnew ⟨rfl, rfl, rfl⟩
  | unknown call legs hcall => simpa [Op.submits?] using h
  | accepted call legs hcall hgone =>
    simp only [Op.submits?, Option.toList_none, List.append_nil]
    refine ⟨hdistinct, ?_, h.end_call hnodup hcall rfl, fun c hc => h.keyed c (List.mem_filter.1 hc).1⟩
    simpa [Event.delivery?, Event.drop?] using h.once
  | @evicted call legs c e error hcall hfew hopen =>
    simp only [Op.submits?, Option.toList_none, List.append_nil]
    refine ⟨hdistinct, .trans (List.perm_iff_count.2 fun c' => ?_) h.once, h.end_call hnodup hcall rfl,
      fun c' hc' e' he' => h.keyed c' (List.mem_filter.1 hc').1 e' (Table.mem_erase.1 he').1⟩
    have hc := (Table.callbacks_erase h.distinct hopen).count_eq c'
    simp [Event.delivery?, Event.drop?] at hc ⊢
    omega
  | outsider node m hmember => simpa [Op.submits?] using h
  | answered node m hmember =>
    obtain ⟨h1, h2, h3, -⟩ := delivered_events (s.table.record g.quorum (RequestKey.ofMessage m) node m).2.2
    simp only [Op.submits?, Option.toList_none, List.append_nil]
    exact h.settle hdistinct (Table.callbacks_record h.distinct _ _ _ _)
      (Table.kept_record _ _ _ _ _) ⟨h1, h2, h3⟩
  | swept now =>
    obtain ⟨h1, h2, h3, -⟩ := delivered_events (s.table.expire g.quorum now).2
    simp only [Op.submits?, Option.toList_none, List.append_nil]
    exact h.settle hdistinct (Table.callbacks_expire h.distinct _ _)
      (Table.kept_expire h.distinct _ _) ⟨h1, h2, h3⟩
  | drained =>
    obtain ⟨h1, h2, h3, -⟩ := delivered_events (s.table.failAll .fatalError shutdownReason).2
    simp only [Op.submits?, Option.toList_none, List.append_nil]
    refine h.settle hdistinct (Table.callbacks_failAll _ _ _) (fun e he => by simp [Table.failAll] at he) ?_
    simp [h1, h2, h3, Event.delivery?, Event.drop?, Event.return?]

/-- unless an eviction is a stray one, callbacks are dropped by the calls that fail -/
theorem drops_eq_failures_of_effect {o : Op} (hstray : ¬ Stray g s o) {table : Table} {calls : List Call}
    {es : List Event} (heff : Effect S g s o table calls es) : drops es = failures es := by
  cases heff with
  | background ho hquiet =>
    obtain ⟨-, h2, -, h4⟩ := quiet_events hquiet
    rw [h2, h4]
  | @evicted call legs c e error hcall hfew hopen =>
    have hid : c.id = call := by simpa using List.find?_some hcall
    have hown : e.callback = call := by
      by_contra hne
      exact hstray ⟨hfew, c, List.mem_of_find?_eq_some hcall, hid, e, Table.mem_of_find? hopen,
        Table.key_of_find? hopen, hne⟩
    simp [Event.drop?, Event.failure?, hown]
  | answered node m hmember =>
    obtain ⟨-, h2, -, h4⟩ := delivered_events (s.table.record g.quorum (RequestKey.ofMessage m) node m).2.2
    rw [h2, h4]
  | swept now =>
    obtain ⟨-, h2, -, h4⟩ := delivered_events (s.table.expire g.quorum now).2
    rw [h2, h4]
  | drained =>
    obtain ⟨-, h2, -, h4⟩ := delivered_events (s.table.failAll .fatalError shutdownReason).2
    simp [h2, h4, Event.drop?, Event.failure?]
  | _ => simp [Event.drop?, Event.failure?]

end Step

/-! ## Runs -/

variable (S : Crypto.Scheme) (b : Built)

theorem inv_reached (ops : List Op) (hfresh : (ops.filterMap Op.submits?).Nodup) :
    Inv (ops.filterMap Op.submits?) (reached S b ops).table (reached S b ops).calls (reached S b ops).trace := by
  induction ops using List.reverseRecOn with
  | nil => exact inv_ofBuilt b
  | append_singleton ops o ih =>
    have hsplit : (ops ++ [o]).filterMap Op.submits? = ops.filterMap Op.submits? ++ o.submits?.toList := by
      cases h : o.submits? <;> simp [h]
    rw [hsplit] at hfresh ⊢
    obtain ⟨es, htrace, heff⟩ := step_effect S b.setup (reached S b ops) o
    rw [reached_snoc, htrace]
    exact (ih (List.nodup_append.1 hfresh).1).effect hfresh heff

/-- no operation of a run is a stray eviction -/
def NoStray (ops : List Op) : Prop := ∀ pre o, pre ++ [o] <+: ops → ¬ Stray b.setup (reached S b pre) o

/-- without stray evictions, callbacks are dropped by the calls that fail, and by no others -/
theorem drops_eq_failures (ops : List Op) (hfresh : (ops.filterMap Op.submits?).Nodup) (hstray : NoStray S b ops) :
    drops (reached S b ops).trace = failures (reached S b ops).trace := by
  induction ops using List.reverseRecOn with
  | nil => rfl
  | append_singleton ops o ih =>
    have hpre : (ops.filterMap Op.submits?).Nodup :=
      hfresh.sublist ((List.sublist_append_left ops [o]).filterMap _)
    obtain ⟨es, htrace, heff⟩ := step_effect S b.setup (reached S b ops) o
    rw [reached_snoc, htrace, drops_append, failures_append,
      ih hpre fun pre o' h => hstray pre o' (h.trans (List.prefix_append _ _)),
      drops_eq_failures_of_effect (hstray ops o (List.prefix_refl _)) heff]

theorem Inv.contract {submitted : List Nat} {s : State} (h : Inv submitted s.table s.calls s.trace)
    (hfresh : submitted.Nodup) (hfailed : drops s.trace = failures s.trace) : Contract s := by
  have hreturn : ∀ c, (returns s.trace).count c ≤ 1 := fun c =>
    (List.nodup_iff_count_le_one.1 (h.ended.nodup_iff.2 hfresh) c).trans' (by rw [List.count_append]; omega)
  have hone : ∀ c, 0 < (returns s.trace).count c →
      s.table.callbacks.count c + ((received s.trace c).length + (drops s.trace).count c) = 1 := by
    intro c hc
    have hmem : c ∈ submitted := h.ended.subset (List.mem_append_right _ (List.count_pos_iff.1 hc))
    have hcount := h.once.count_eq c
    rw [List.count_eq_one_of_mem hfresh hmem, List.count_append, List.count_append] at hcount
    rw [length_received]
    exact hcount
  refine ⟨fun call e hret => ?_, fun call hret => ?_⟩
  · have hfail : 0 < (failures s.trace).count call := List.count_pos_iff.2 (mem_failures.2 ⟨e, hret⟩)
    have hsum := count_returns s.trace call
    have hcount := hone call (by omega)
    exact List.length_eq_zero_iff.1 (by rw [hfailed] at hcount; omega)
  · have hsuccess := countP_isSuccess_pos.2 hret
    have hsum := count_returns s.trace call
    have hle := hreturn call
    -- a call ends once, so one that has ended without an error has not failed
    have hdrop : (drops s.trace).count call = 0 := by rw [hfailed]; omega
    have hcount := hone call (by omega)
    refine ⟨fun hd => List.count_eq_zero.1 hdrop (mem_drops.2 hd), ?_⟩
    by_cases hheld : call ∈ s.table.callbacks
    · have := List.count_pos_iff.2 hheld
      exact .inl ⟨hheld, List.length_eq_zero_iff.1 (by omega)⟩
    · have := List.count_eq_zero.2 hheld
      exact .inr ⟨hheld, List.length_eq_one_iff.1 (by omega)⟩

/-- a stray eviction fails a call whose callback has received a value -/
theorem Inv.broken {submitted : List Nat} {s : State} (h : Inv submitted s.table s.calls s.trace)
    (hfresh : submitted.Nodup) (hfailed : drops s.trace = failures s.trace) (S : Crypto.Scheme) (g : Setup) {o : Op}
    (hstray : Stray g s o) :
    ∃ call e, .returned call (.error e) ∈ (step S g s o).trace ∧ received (step S g s o).trace call ≠ [] := by
  cases o with
  | finish call legs =>
    obtain ⟨hfew, c, hc, rfl, e, he, hkey, hother⟩ := hstray
    have hcall := h.find_call hfresh hc
    have hopen : s.table.find? c.key = some e := h.distinct.find?_eq_some_iff.2 ⟨he, hkey⟩
    obtain ⟨es, htrace, heff⟩ := step_effect S g s (.finish c.id legs)
    generalize (step S g s (.finish c.id legs)).table = table, (step S g s (.finish c.id legs)).calls = calls at heff
    cases heff with
    | background ho => simp [Op.isBackground] at ho
    | unknown _ _ hnone => simp [hcall] at hnone
    | accepted _ _ hsome hgone =>
      rw [hcall, Option.some.injEq] at hsome
      rw [← hsome, hopen] at hgone
      simp at hgone
      exact absurd hfew hgone
    | evicted _ _ error hsome _ hopen' =>
      refine ⟨c.id, error, by rw [htrace]; simp, fun hnone => ?_⟩
      -- the request of the call is not open any more, and it has not been dropped: it has been settled
      have hmem : c.id ∈ s.calls.map Call.id := List.mem_map_of_mem hc
      have hsubmitted : c.id ∈ submitted := h.ended.subset (List.mem_append_left _ hmem)
      have hended := h.ended.count_eq c.id
      have honce := h.once.count_eq c.id
      rw [List.count_eq_one_of_mem hfresh hsubmitted, List.count_append] at hended
      rw [List.count_eq_one_of_mem hfresh hsubmitted, List.count_append, List.count_append] at honce
      have hcalls := List.count_pos_iff.2 hmem
      have hsum := count_returns s.trace c.id
      have hheld : s.table.callbacks.count c.id = 0 := by
        refine List.count_eq_zero.2 fun hheld => ?_
        obtain ⟨e', he', hid⟩ := Table.mem_callbacks.1 hheld
        have := h.distinct.eq_of_key he' he ((h.keyed c hc e' he' hid).trans hkey.symm)
        exact hother (this ▸ hid)
      have hlength := length_received (step S g s (.finish c.id legs)).trace c.id
      rw [hnone, htrace, deliveries_append, List.count_append] at hlength
      simp only [List.length_nil] at hlength
      rw [hfailed] at honce
      omega
  | _ => exact hstray.elim

/-- a broken contract stays broken -/
theorem not_contract_of_broken {s : State} (S : Crypto.Scheme) (g : Setup) (more : List Op) {call : Nat}
    {e : GatewayError} (hret : .returned call (.error e) ∈ s.trace) (hrec : received s.trace call ≠ []) :
    ¬ Contract (run S g s more) := by
  intro hcontract
  obtain ⟨es, hes⟩ := trace_run S g s more
  have hnone := hcontract.failed call e (hes ▸ List.mem_append_left _ hret)
  rw [← hes] at hnone
  simp only [received, List.filterMap_append, List.filter_append, List.map_append, List.append_eq_nil_iff] at hnone
  exact hrec hnone.1

/-- **When the contract holds.** After a run of a gateway in which every call has a callback of its own, in whatever
order its operations come, the contract holds exactly when no operation of the run was a stray eviction. -/
theorem contract_iff_no_stray (ops : List Op) (hfresh : (ops.filterMap Op.submits?).Nodup) :
    Contract (reached S b ops) ↔ NoStray S b ops := by
  constructor
  · intro hcontract
    have hprefix : ∀ l : List Op, l <+: ops → NoStray S b l := by
      intro l hl
      induction l using List.reverseRecOn with
      | nil => exact fun pre o hpre => absurd (List.prefix_nil.1 hpre) (by simp)
      | append_singleton l o ih =>
        have hl' : l <+: ops := (List.prefix_append _ _).trans hl
        have hnodup : (l.filterMap Op.submits?).Nodup := hfresh.sublist (hl'.sublist.filterMap _)
        intro pre o' hpre hstray
        rcases List.prefix_concat_iff.1 hpre with heq | hpre
        · -- the first stray eviction of the run
          obtain ⟨rfl, rfl⟩ : pre = l ∧ o' = o := by simpa using heq
          obtain ⟨call, e, hret, hrec⟩ := (inv_reached S b pre hnodup).broken hnodup
            (drops_eq_failures S b pre hnodup (ih hl')) S b.setup hstray
          obtain ⟨more, rfl⟩ := hl
          refine not_contract_of_broken S b.setup more hret hrec ?_
          rw [← reached_snoc, ← run_append]
          exact hcontract
        · exact ih hl' pre o' hpre hstray
    exact hprefix ops (List.prefix_refl _)
  · intro hstray
    exact (inv_reached S b ops hfresh).contract hfresh (drops_eq_failures S b ops hfresh hstray)

/-! ## How it is broken -/

/-- a gateway for a network of one node that is taken to be without fault -/
def oneNode : Built :=
  ⟨⟨⟨none, none, 0, 0, 1000⟩, ⟨"don", "functions", .null, [⟨"node", "0x01"⟩], 0⟩⟩, none, none⟩

/-- the first call is answered while its send hangs; a second call with the same key is sent at once; then the send of
the first call times out -/
def strayTrace : List Op :=
  [.submit 0 0 (aliceRequest "don"), .respond "0x01" (aliceRequest "don"), .submit 0 1 (aliceRequest "don"),
    .finish 1 [⟨"0x01", 0, none⟩], .finish 0 [⟨"0x01", 1000, some "timed out"⟩]]

/-- the state after that -/
def strayed : State := reached aliceScheme oneNode strayTrace

theorem contract_iff_no_stray_alice :
    (strayTrace.filterMap Op.submits?).Nodup ∧
    (Contract (reached aliceScheme oneNode strayTrace) ↔ NoStray aliceScheme oneNode strayTrace) :=
  ⟨by decide, contract_iff_no_stray aliceScheme oneNode strayTrace (by decide)⟩

/-- **A stray eviction breaks the contract.** The first call fails, and its callback has received a value; the second
returned without an error, and its callback is dropped without one. -/
theorem stray_breaks_contract :
    (∃ e, .returned 0 (.error e) ∈ strayed.trace) ∧ (received strayed.trace 0).length = 1 ∧
      .returned 1 (.ok ()) ∈ strayed.trace ∧ .dropped 1 ∈ strayed.trace ∧ received strayed.trace 1 = [] ∧
      ¬ Contract strayed := by
  -- the run is evaluated once, by the kernel
  obtain ⟨hfailures, hdrops, hdeliveries, hsuccess⟩ :
      failures strayed.trace = [0] ∧ drops strayed.trace = [1] ∧ deliveries strayed.trace = [0] ∧
        strayed.trace.countP (Event.isSuccess 1) = 1 := by
    decide +kernel
  have hfirst : (received strayed.trace 0).length = 1 := by rw [length_received, hdeliveries]; rfl
  have hsecond : (received strayed.trace 1).length = 0 := by rw [length_received, hdeliveries]; rfl
  have hfailed : ∃ e, .returned 0 (.error e) ∈ strayed.trace := mem_failures.1 (by rw [hfailures]; simp)
  refine ⟨hfailed, hfirst, countP_isSuccess_pos.1 (by rw [hsuccess]; decide), mem_drops.1 (by rw [hdrops]; simp),
    List.length_eq_zero_iff.1 hsecond, fun hcontract => ?_⟩
  obtain ⟨e, he⟩ := hfailed
  rw [hcontract.failed 0 e he] at hfirst
  exact absurd hfirst (by decide)

end QuorumGateway.Gateway
