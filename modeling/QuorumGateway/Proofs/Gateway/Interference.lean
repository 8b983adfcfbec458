import QuorumGateway.Proofs.Gateway.Admission
/-!
What calls do that are refused before the rate limits: nothing to anybody else. Two runs are compared, one with such
calls and one without them.

Operations neither read nor write the trace and the counts of user requests and rejections, except that they add to
them. So two states that differ in these only (`Twins`) stay that way, and the same is added to both traces
(`Twins.step`). Nothing is seen of a call that is not made (`onlyOf_reached`), so what is added is of other calls.

- `refused_cannot_interfere`: in all states of a run everything else is as if the refused calls had not been made
  (`Undisturbed`); and a message that its sender has not signed spends none of its tokens and takes none of its places.
-/

namespace QuorumGateway

/-- all that is counted apart from user requests and rejections -/
def Metrics.bare (x : Metrics) : Metrics := { x with userRequests := [], rejections := [] }

theorem Metrics.bare_foldl {α : Type} {f : Metrics → α → Metrics} (hf : ∀ x a, (f x a).bare = f x.bare a) (l : List α)
    (x : Metrics) : (l.foldl f x).bare = (l.foldl f x.bare).bare := by
  rw [List.foldl_hom Metrics.bare fun x a => (hf x a).symm]
  rfl

namespace Gateway

open Pending (Delivery Table Entry)

/-! ## Two states in step -/

/-- a state without its trace and without the counts of user requests and rejections -/
def State.bare (s : State) : State := { s with metrics := s.metrics.bare, trace := [] }

/-- two states that differ only in the counts of user requests and rejections and in how their traces begin -/
structure Twins (past past' : List Event) (s s' : State) : Prop where
  bare : s.bare = s'.bare
  trace : ∃ es, s.trace = past ++ es ∧ s'.trace = past' ++ es

namespace Twins

variable {past past' : List Event} {s s' : State}

theorem table (h : Twins past past' s s') : s.table = s'.table :=
  show s.bare.table = s'.bare.table from congrArg State.table h.bare

theorem limiter (h : Twins past past' s s') : s.limiter = s'.limiter :=
  show s.bare.limiter = s'.bare.limiter from congrArg State.limiter h.bare

theorem allowlist (h : Twins past past' s s') : s.allowlist = s'.allowlist :=
  show s.bare.allowlist = s'.bare.allowlist from congrArg State.allowlist h.bare

theorem started (h : Twins past past' s s') : s.started = s'.started :=
  show s.bare.started = s'.bare.started from congrArg State.started h.bare

theorem closing (h : Twins past past' s s') : s.closing = s'.closing :=
  show s.bare.closing = s'.bare.closing from congrArg State.closing h.bare

theorem calls (h : Twins past past' s s') : s.calls = s'.calls :=
  show s.bare.calls = s'.bare.calls from congrArg State.calls h.bare

/-! ### Parts of operations -/

/-- a change to the state that neither reads nor writes what twins differ in -/
theorem map (h : Twins past past' s s') (f : State → State) (hbare : ∀ s, (f s).bare = (f s.bare).bare)
    (htrace : ∀ s, (f s).trace = s.trace) : Twins past past' (f s) (f s') where
  bare := by rw [hbare, h.bare, ← hbare]
  trace := by
    obtain ⟨es, hs, hs'⟩ := h.trace
    exact ⟨es, (htrace s).trans hs, (htrace s').trans hs'⟩

theorem emit (h : Twins past past' s s') (es : List Event) : Twins past past' (s.emit es) (s'.emit es) where
  bare := h.bare
  trace := by
    obtain ⟨before, hs, hs'⟩ := h.trace
    exact ⟨before ++ es, by simp [State.emit, hs], by simp [State.emit, hs']⟩

theorem withTable (h : Twins past past' s s') (table : Table) :
    Twins past past' (s.withTable table) (s'.withTable table) :=
  h.map (State.withTable · table) (fun _ => rfl) fun _ => rfl

theorem heard (h : Twins past past' s s') (table : Table) (outcome : Pending.Outcome) :
    Twins past past' (s.heard table outcome) (s'.heard table outcome) :=
  h.map (State.heard · table outcome) (fun _ => by cases outcome <;> rfl) fun _ => rfl

theorem withCalls (h : Twins past past' s s') (f : List Call → List Call) :
    Twins past past' { s with calls := f s.calls } { s' with calls := f s'.calls } :=
  h.map (fun s => { s with calls := f s.calls }) (fun _ => rfl) fun _ => rfl

theorem count (h : Twins past past' s s') {f : Metrics → Metrics} (hf : ∀ x, (f x).bare = (f x.bare).bare) :
    Twins past past' (s.count f) (s'.count f) :=
  h.map (State.count · f) (fun s => congrArg (fun x => ({ s with metrics := x, trace := [] } : State)) (hf s.metrics))
    fun _ => rfl

theorem deliver (h : Twins past past' s s') (ds : List Delivery) : Twins past past' (s.deliver ds) (s'.deliver ds) :=
  (h.count (Metrics.bare_foldl (f := fun x (d : Delivery) => x.settled d.reply.code) (fun _ _ => rfl) ds)).emit
    (ds.map fun d : Delivery => .delivered d.callback d.reply)

theorem reject (h : Twins past past' s s') (call : Nat) (method : String) (e : GatewayError) :
    Twins past past' (reject s call method e) (reject s' call method e) :=
  (h.count fun _ => rfl).emit _

theorem accept (h : Twins past past' s s') (c : Call) : Twins past past' (accept s c) (accept s' c) :=
  (h.count fun _ => rfl).emit _

/-! ### Operations -/

variable (S : Crypto.Scheme) (g : Setup)

theorem screen (h : Twins past past' s s') (m : Message) : screen S g s m = screen S g s' m := by
  unfold Gateway.screen listed
  rw [h.closing, h.allowlist]

theorem granted (h : Twins past past' s s') (sender : Address) (now : Nat) :
    (charge s sender now).1 = (charge s' sender now).1 := by
  unfold charge
  rw [h.limiter]
  cases s'.limiter <;> rfl

theorem charged (h : Twins past past' s s') (sender : Address) (now : Nat) :
    Twins past past' (charge s sender now).2 (charge s' sender now).2 := by
  rw [charge_state, charge_state]
  exact h.map (fun s => { s with limiter := s.limiter.map fun l => (l.allow sender.text now).2 }) (fun _ => rfl)
    fun _ => rfl

theorem submit (h : Twins past past' s s') (now call : Nat) (m : Message) :
    Twins past past' (submit S g s now call m) (submit S g s' now call m) := by
  unfold Gateway.submit
  rw [h.screen]
  cases Gateway.screen S g s' m with
  | error e => exact h.reject call m.body.method e
  | ok sender =>
    have hcharged := h.charged sender now
    simp only [h.granted, hcharged.table]
    split
    · exact hcharged.reject call m.body.method _
    · split
      · exact hcharged.reject call m.body.method _
      · exact ((hcharged.withTable _).withCalls (· ++ [_])).emit _

theorem finish (h : Twins past past' s s') (call : Nat) (legs : List FanOut.Leg) :
    Twins past past' (finish g s call legs) (finish g s' call legs) := by
  unfold Gateway.finish
  rw [h.calls]
  cases s'.calls.find? fun c => c.id = call with
  | none => exact h
  | some c =>
    have hended := (h.withCalls (List.filter fun c => c.id ≠ call)).count
      (Metrics.bare_foldl (f := fun x (l : FanOut.Leg) => x.nodeSend l.error.isNone) (fun _ _ => rfl) legs)
    rw [h.calls] at hended
    simp only
    split
    · exact hended.accept c
    · unfold Table.evict State.count
      rw [h.table]
      cases s'.table.find? c.key with
      | none => exact (hended.withTable _).accept c
      | some e =>
        exact ((hended.withTable _).count (f := fun x => (x.rejection _).userRequest c.method "rejected")
          fun _ => rfl).emit _

theorem respond (h : Twins past past' s s') (node : String) (m : Message) :
    Twins past past' (respond g s node m) (respond g s' node m) := by
  unfold Gateway.respond
  rw [h.table]
  split
  · exact h.count fun _ => rfl
  · exact ((h.heard _ _).deliver _).count fun _ => rfl

theorem sweep (h : Twins past past' s s') (now : Nat) : Twins past past' (sweep g s now) (sweep g s' now) := by
  unfold Gateway.sweep
  rw [h.table]
  exact (h.withTable _).deliver _

theorem drain (h : Twins past past' s s') : Twins past past' (drain s) (drain s') := by
  unfold Gateway.drain
  rw [h.table]
  exact ((h.withTable _).deliver _).emit _

theorem background (h : Twins past past' s s') {o : Op} (ho : o.isBackground = true) :
    Twins past past' (step S g s o) (step S g s' o) := by
  cases o with
  | refresh result => exact h.map (Gateway.refresh · result) (fun _ => by cases result <;> rfl) fun _ => rfl
  | start =>
    have hresult : (start s).2 = (start s').2 := by simp only [start, h.started, h.closing]
    have hstarted := h.map (fun s => { s with started := true }) (fun _ => rfl) fun _ => rfl
    have htwins := hstarted.emit [.started (start s).2]
    nth_rewrite 2 [hresult] at htwins
    exact htwins
  | beginClose =>
    simp only [step, beginClose, h.closing]
    split
    · exact h.emit _
    · exact h.map (fun s => { s with closing := true }) (fun _ => rfl) fun _ => rfl
  | _ => exact absurd ho Bool.false_ne_true

/-- **Operations keep twins twins** -/
theorem step (h : Twins past past' s s') (o : Op) : Twins past past' (step S g s o) (step S g s' o) := by
  cases o with
  | submit now call m => exact h.submit S g now call m
  | finish call legs => exact h.finish g call legs
  | respond node m => exact h.respond g node m
  | sweep now => exact h.sweep g now
  | drain => exact h.drain
  | refresh | start | beginClose => exact h.background S g rfl

end Twins

/-! ## What is seen of a call -/

/-- the call that an event is about -/
def Event.call? : Event → Option Nat
  | .sent call _ | .delivered call _ | .dropped call | .returned call _ => some call
  | .started _ | .closed _ => none

/-- all open requests, all calls on their way and all events are of calls of a kind -/
structure OnlyOf (kind : Nat → Prop) (s : State) : Prop where
  entries : ∀ e ∈ s.table.entries, kind e.callback
  calls : ∀ c ∈ s.calls, kind c.id
  trace : ∀ ev ∈ s.trace, ∀ call, ev.call? = some call → kind call

section Seen

variable {S : Crypto.Scheme} {g : Setup} {s : State} {o : Op} {table : Table} {calls : List Call} {es : List Event}
  {kind : Nat → Prop}

theorem Effect.calls_of_kind (heff : Effect S g s o table calls es) (hmade : ∀ call, o.submits? = some call → kind call)
    (hcalls : ∀ c ∈ s.calls, kind c.id) : ∀ c ∈ calls, kind c.id := by
  cases heff with
  | admitted now call m hscreen hcharge hregister =>
    intro c hc
    rcases List.mem_append.1 hc with hc | hc
    · exact hcalls c hc
    · rw [List.mem_singleton.1 hc]
      exact hmade call rfl
  | accepted => exact fun c hc => hcalls c (List.mem_filter.1 hc).1
  | evicted => exact fun c hc => hcalls c (List.mem_filter.1 hc).1
  | _ => exact hcalls

/-- a callback that is dropped is that of the call that is made or of an open request -/
theorem Effect.of_dropped (heff : Effect S g s o table calls es) {callback : Nat} (hev : .dropped callback ∈ es) :
    o.submits? = some callback ∨ ∃ e ∈ s.table.entries, e.callback = callback := by
  cases heff with
  | background ho hquiet => exact absurd (hquiet _ hev).2.1 (by simp [Event.drop?])
  | refused now call m e =>
    simp only [List.mem_cons, Event.dropped.injEq, reduceCtorEq, List.not_mem_nil, or_false] at hev
    exact .inl (hev ▸ rfl)
  | @evicted call legs c e error hcall hfew hopen =>
    simp only [List.mem_cons, Event.dropped.injEq, reduceCtorEq, List.not_mem_nil, or_false] at hev
    exact .inr ⟨e, Table.mem_of_find? hopen, hev.symm⟩
  | _ => simp at hev

/-- a call that returns is the one that is made or one that is on its way -/
theorem Effect.of_returned (heff : Effect S g s o table calls es) {call : Nat} {result : Except GatewayError Unit}
    (hev : .returned call result ∈ es) : o.submits? = some call ∨ ∃ c ∈ s.calls, c.id = call := by
  have hfound : ∀ {call' : Nat} {c : Call}, s.calls.find? (fun c => c.id = call') = some c → call = call' →
      ∃ c ∈ s.calls, c.id = call := by
    rintro call' c hcall rfl
    exact ⟨c, List.mem_of_find?_eq_some hcall, by simpa using List.find?_some hcall⟩
  cases heff with
  | background ho hquiet => exact absurd (hquiet _ hev).2.2.1 (by simp [Event.return?])
  | refused now call' m e =>
    simp only [List.mem_cons, Event.returned.injEq, reduceCtorEq, List.not_mem_nil, or_false, false_or] at hev
    exact .inl (hev.1 ▸ rfl)
  | accepted call' legs hcall =>
    simp only [List.mem_singleton, Event.returned.injEq] at hev
    exact .inr (hfound hcall hev.1)
  | evicted call' legs error hcall =>
    simp only [List.mem_cons, Event.returned.injEq, reduceCtorEq, List.not_mem_nil, or_false, false_or] at hev
    exact .inr (hfound hcall hev.1)
  | _ => simp at hev

/-- the events of an operation are of the call it makes, of calls on their way and of open requests -/
theorem Effect.events_of_kind (heff : Effect S g s o table calls es) (ho : o.isBackground = false)
    (hmade : ∀ call, o.submits? = some call → kind call) (hcalls : ∀ c ∈ s.calls, kind c.id)
    (hentries : ∀ e ∈ s.table.entries, kind e.callback) : ∀ ev ∈ es, ∀ call, ev.call? = some call → kind call := by
  intro ev hev call hcall
  cases ev with
  | started => cases hcall
  | closed => cases hcall
  | delivered callback reply =>
    cases hcall
    obtain ⟨e, he, rfl, -⟩ := settles_of_effect heff hev
    exact hentries e he
  | sent call' m =>
    cases hcall
    obtain ⟨now, a, rfl, -⟩ := heff.of_sent ho hev
    exact hmade _ rfl
  | dropped callback =>
    cases hcall
    rcases heff.of_dropped hev with hsubmit | ⟨e, he, rfl⟩
    · exact hmade _ hsubmit
    · exact hentries e he
  | returned call' result =>
    cases hcall
    rcases heff.of_returned hev with hsubmit | ⟨c, hc, rfl⟩
    · exact hmade _ hsubmit
    · exact hcalls c hc

end Seen

theorem OnlyOf.background {S : Crypto.Scheme} {g : Setup} {s : State} {o : Op} {kind : Nat → Prop} (h : OnlyOf kind s)
    (ho : o.isBackground = true) : OnlyOf kind (step S g s o) := by
  -- what is added to the trace is about no call
  have hadded : ∀ (s' : State) (ev : Event), ev.call? = none → s'.table = s.table → s'.calls = s.calls →
      s'.trace = s.trace ++ [ev] → OnlyOf kind s' := by
    intro s' ev hnone htable hcalls htrace
    refine ⟨htable ▸ h.entries, hcalls ▸ h.calls, fun ev' hev' call hcall => ?_⟩
    rw [htrace] at hev'
    rcases List.mem_append.1 hev' with hev' | hev'
    · exact h.trace ev' hev' call hcall
    · rw [List.mem_singleton.1 hev', hnone] at hcall
      cases hcall
  cases o with
  | refresh result => exact ⟨h.entries, h.calls, h.trace⟩
  | start => exact hadded _ (.started _) rfl rfl rfl rfl
  | beginClose =>
    simp only [step, beginClose]
    split
    · exact hadded _ (.closed _) rfl rfl rfl rfl
    · exact ⟨h.entries, h.calls, h.trace⟩
  | _ => exact absurd ho Bool.false_ne_true

/-- **Nothing is seen of a call that is not made** -/
theorem onlyOf_reached (S : Crypto.Scheme) (b : Built) {ops : List Op} {kind : Nat → Prop}
    (hmade : ∀ o ∈ ops, ∀ call, o.submits? = some call → kind call) : OnlyOf kind (reached S b ops) := by
  induction ops using List.reverseRecOn with
  | nil => exact ⟨by simp [run, State.ofBuilt, Table.empty], by simp [run, State.ofBuilt], by simp [run, State.ofBuilt]⟩
  | append_singleton ops o ih =>
    have h := ih fun o' ho' => hmade o' (List.mem_append_left _ ho')
    have hlast : ∀ call, o.submits? = some call → kind call := hmade o (by simp)
    rw [reached_snoc]
    cases ho : o.isBackground with
    | true => exact h.background ho
    | false =>
      obtain ⟨es, htrace, heff⟩ := step_effect S b.setup (reached S b ops) o
      refine ⟨fun e he => ?_, heff.calls_of_kind hlast h.calls, fun ev hev => ?_⟩
      · rcases entry_of_effect (distinct_reached S b ops) heff he with ⟨now, m, rfl, -⟩ | ⟨e₀, he₀, hkept, -⟩
        · exact hlast _ rfl
        · rw [hkept, kept_callback]
          exact h.entries e₀ he₀
      · rw [htrace] at hev
        rcases List.mem_append.1 hev with hev | hev
        · exact h.trace ev hev
        · exact heff.events_of_kind ho hlast h.calls h.entries ev hev

/-! ## A run without some of its calls -/

/-- whether something is about none of some calls -/
def spares (gone : List Nat) (call : Option Nat) : Bool := call.all fun c => c ∉ gone

/-- operations without some of the calls among them -/
def without (gone : List Nat) (ops : List Op) : List Op := ops.filter fun o => spares gone o.submits?

/-- a trace without what is seen in it of some calls -/
def unseen (gone : List Nat) (trace : List Event) : List Event := trace.filter fun ev => spares gone ev.call?

variable {gone : List Nat}

theorem spares_eq_true_iff {call : Option Nat} : spares gone call = true ↔ ∀ c, call = some c → c ∉ gone := by
  cases call <;> simp [spares]

theorem without_snoc (gone : List Nat) (ops : List Op) (o : Op) :
    without gone (ops ++ [o]) =
      if spares gone o.submits? = true then without gone ops ++ [o] else without gone ops := by
  split <;> simp_all [without]

theorem unseen_append (gone : List Nat) (es es' : List Event) :
    unseen gone (es ++ es') = unseen gone es ++ unseen gone es' := List.filter_append es es'

theorem unseen_eq_self {es : List Event} (h : ∀ ev ∈ es, ∀ call, ev.call? = some call → call ∉ gone) :
    unseen gone es = es :=
  List.filter_eq_self.2 fun ev hev => spares_eq_true_iff.2 (h ev hev)

/-- a call that a check before the rate limits refuses -/
def Barred (S : Crypto.Scheme) (b : Built) (pre : List Op) (now : Nat) (m : Message) : Prop :=
  ∃ c ∈ Check.free, ∃ e, Fails S b pre now m c e

/-- a state `s'` that is as if some of the calls that led to `s` had not been made: it differs in the counts of user
requests and rejections and in what is seen of these calls, which is that each has failed -/
structure Undisturbed (gone : List Nat) (s s' : State) : Prop where
  table : s'.table = s.table
  limiter : s'.limiter = s.limiter
  allowlist : s'.allowlist = s.allowlist
  started : s'.started = s.started
  closing : s'.closing = s.closing
  calls : s'.calls = s.calls
  metrics : s'.metrics.bare = s.metrics.bare
  trace : s'.trace = unseen gone s.trace
  failed : ∀ ev ∈ s.trace, spares gone ev.call? = false →
    ∃ call ∈ gone, ev = .dropped call ∨ ∃ e, ev = .returned call (.error e)

section Run

variable {S : Crypto.Scheme} {raw : Json} {network : Network} {hasSource : Bool} {b : Built}

theorem screen_of_barred (hbuild : build raw network hasSource = .ok b) {pre : List Op} {now : Nat} {m : Message}
    (h : Barred S b pre now m) : ∃ e, screen S b.setup (reached S b pre) m = .error e := by
  cases hscreen : screen S b.setup (reached S b pre) m with
  | error e => exact ⟨e, rfl⟩
  | ok a =>
    obtain ⟨c, hc, e, hfails⟩ := h
    exact absurd hfails (not_fails_of_screen hbuild hscreen hc e)

/-- a message that its sender has not signed is refused before the rate limits -/
theorem barred_of_forged {pre : List Op} {m : Message} {a : Address} (now : Nat)
    (hsender : Address.parse m.body.sender = .ok a) (hforged : m.recoverSigner S ≠ .ok a) : Barred S b pre now m := by
  refine ⟨.signed, by decide, ?_⟩
  cases hsigner : m.recoverSigner S with
  | error o => exact ⟨_, .unsigned hsender hsigner⟩
  | ok signer => exact ⟨_, .forged hsender hsigner fun heq => hforged (hsigner.trans (congrArg _ heq))⟩

theorem Undisturbed.twins {s s' : State} (h : Undisturbed gone s s') : Twins s.trace s'.trace s s' where
  bare := by
    simp only [State.bare, h.table, h.limiter, h.allowlist, h.started, h.closing, h.calls, h.metrics]
  trace := ⟨[], by simp, by simp⟩

/-- an operation that is seen of other calls only disturbs nothing -/
theorem Undisturbed.of_twins {s s' t t' : State} (h : Undisturbed gone s s') (htwins : Twins s.trace s'.trace t t')
    (hother : ∀ ev ∈ t'.trace, ∀ call, ev.call? = some call → call ∉ gone) : Undisturbed gone t t' := by
  obtain ⟨es, htrace, htrace'⟩ := htwins.trace
  rw [htrace'] at hother
  have hes : ∀ ev ∈ es, ∀ call, ev.call? = some call → call ∉ gone := fun ev hev =>
    hother ev (List.mem_append_right _ hev)
  refine ⟨htwins.table.symm, htwins.limiter.symm, htwins.allowlist.symm, htwins.started.symm, htwins.closing.symm,
    htwins.calls.symm, (congrArg State.metrics htwins.bare).symm, ?_, fun ev hev hgone => ?_⟩
  · rw [htrace, htrace', h.trace, unseen_append, unseen_eq_self hes]
  · rw [htrace] at hev
    rcases List.mem_append.1 hev with hev | hev
    · exact h.failed ev hev hgone
    · rw [spares_eq_true_iff.2 (hes ev hev)] at hgone
      cases hgone

/-- nor does a call that is refused, where it is not made -/
theorem Undisturbed.reject {s s' : State} (h : Undisturbed gone s s') {call : Nat} (hcall : call ∈ gone)
    (method : String) (e : GatewayError) : Undisturbed gone (reject s call method e) s' := by
  refine ⟨h.table, h.limiter, h.allowlist, h.started, h.closing, h.calls, h.metrics, ?_, fun ev hev hgone => ?_⟩
  · have hnone : unseen gone [.dropped call, .returned call (.error e)] = [] := by
      simp [unseen, spares, Event.call?, hcall]
    rw [h.trace, (refused_reject s call method e).trace, unseen_append, hnone, List.append_nil]
  · rcases List.mem_append.1 hev with hev | hev
    · exact h.failed ev hev hgone
    · rcases List.mem_pair.1 hev with rfl | rfl
      · exact ⟨call, hcall, .inl rfl⟩
      · exact ⟨call, hcall, .inr ⟨e, rfl⟩⟩

theorem undisturbed_reached (hbuild : build raw network hasSource = .ok b) {ops : List Op}
    (hgone : ∀ pre now call m, pre ++ [.submit now call m] <+: ops → call ∈ gone → Barred S b pre now m) :
    Undisturbed gone (reached S b ops) (reached S b (without gone ops)) := by
  induction ops using List.reverseRecOn with
  | nil => exact ⟨rfl, rfl, rfl, rfl, rfl, rfl, rfl, rfl, fun ev hev => absurd hev List.not_mem_nil⟩
  | append_singleton ops o ih =>
    have h := ih fun pre now call m hpre => hgone pre now call m (hpre.trans (List.prefix_append _ _))
    have hwithout := without_snoc gone ops o
    cases hspares : spares gone o.submits? with
    | true =>
      rw [if_pos hspares] at hwithout
      have hother : OnlyOf (fun call => call ∉ gone) (reached S b (without gone (ops ++ [o]))) :=
        onlyOf_reached S b fun o' ho' call hcall => spares_eq_true_iff.1 (List.mem_filter.1 ho').2 call hcall
      rw [hwithout, reached_snoc] at hother
      rw [hwithout, reached_snoc, reached_snoc]
      exact h.of_twins (h.twins.step S b.setup o) hother.trace
    | false =>
      rw [if_neg (by simp [hspares])] at hwithout
      rw [hwithout, reached_snoc]
      cases o with
      | submit now call m =>
        have hcall : call ∈ gone := by simpa [spares, Op.submits?] using hspares
        obtain ⟨e, hscreen⟩ := screen_of_barred hbuild (hgone ops now call m (List.prefix_refl _) hcall)
        rw [step, submit_of_screen_error S b.setup _ now call hscreen]
        exact h.reject hcall _ _
      | _ => simp [spares, Op.submits?] at hspares

/-- what calls that are refused before the rate limits cannot do -/
structure Harmless (S : Crypto.Scheme) (b : Built) (gone : List Nat) (ops : List Op) : Prop where
  /-- at no point of the run would anything else be different without them -/
  undisturbed : ∀ pre, pre <+: ops → Undisturbed gone (reached S b pre) (reached S b (without gone pre))
  /-- a message that its sender has not signed spends no token, and no request is registered or evicted for it -/
  forged : ∀ pre now call m a, pre ++ [.submit now call m] <+: ops → Address.parse m.body.sender = .ok a →
    m.recoverSigner S ≠ .ok a →
    (reached S b (pre ++ [.submit now call m])).limiter = (reached S b pre).limiter ∧
      (reached S b (pre ++ [.submit now call m])).table = (reached S b pre).table

/-- **Refused calls do not interfere.** When some calls of a run are refused by a check before the rate limits, the run
without them goes as the run with them: in all its states the table, the budgets, the allow-list and the calls on their
way are the same, and so is all that is sent to the nodes, all that callbacks receive and all that other calls return;
only the counts of user requests and rejections differ. -/
theorem refused_cannot_interfere (hbuild : build raw network hasSource = .ok b) {ops : List Op}
    (hgone : ∀ pre now call m, pre ++ [.submit now call m] <+: ops → call ∈ gone → Barred S b pre now m) :
    Harmless S b gone ops := by
  refine ⟨fun pre hpre => ?_, fun pre now call m a _ hsender hforged => ?_⟩
  · exact undisturbed_reached hbuild fun pre' now call m hpre' => hgone pre' now call m (hpre'.trans hpre)
  obtain ⟨e, hscreen⟩ := screen_of_barred hbuild (barred_of_forged now hsender hforged)
  rw [reached_snoc, step, submit_of_screen_error S b.setup _ now call hscreen]
  exact ⟨rfl, rfl⟩

/-- a scheme in which the hint tells the signer: the sender `alice`, or some other address -/
def forgerScheme : Crypto.Scheme :=
  ⟨Unit, fun _ => alice, fun _ _ => none, fun _ _ hint =>
    some (if hint = Fin.last 3 then alice else ⟨List.replicate 20 187, rfl⟩)⟩

/-- a message that names `alice` as its sender and that another has signed -/
def forgery : Message :=
  { aliceRequest "don" with signature := Message.signatureText ⟨2, 3, by decide, by decide⟩ (Fin.last 2).castSucc }

/-- a forged call, and then one of the sender itself, who has one token -/
def forgedRun : List Op :=
  [.refresh (.ok (.ofFetched [alice])), .submit 0 0 forgery, .submit 0 1 (aliceRequest "don")]

/-- the forged call has left the sender its token -/
theorem refused_cannot_interfere_forged :
    build guardedSettings.toJson loneNode true = .ok guarded ∧
      (reached forgerScheme guarded forgedRun).table.entries.map Entry.callback = [1] ∧
      Harmless forgerScheme guarded [0] forgedRun := by
  have hsender : Address.parse forgery.body.sender = .ok alice := by
    have hread : (Address.parse forgery.body.sender).toOption = some alice := by decide +kernel
    cases hparse : Address.parse forgery.body.sender with
    | error fault => simp [hparse, Except.toOption] at hread
    | ok a =>
      rw [hparse] at hread
      exact congrArg _ (Option.some.inj hread)
  have hforged : forgery.recoverSigner forgerScheme ≠ .ok alice := by
    have hsigner : (forgery.recoverSigner forgerScheme).toOption ≠ some alice := by decide +kernel
    exact fun h => hsigner (congrArg Except.toOption h)
  have hgone : ∀ pre now call m, pre ++ [.submit now call m] <+: forgedRun → call ∈ [0] →
      Barred forgerScheme guarded pre now m := by
    intro pre now call m hpre hcall
    have hmem : .submit now call m ∈ forgedRun := hpre.subset (by simp)
    simp only [forgedRun, List.mem_cons, reduceCtorEq, Op.submit.injEq, List.not_mem_nil, or_false, false_or] at hmem
    rcases hmem with ⟨-, -, rfl⟩ | ⟨-, rfl, -⟩
    · exact barred_of_forged now hsender hforged
    · exact absurd hcall (by decide)
  exact ⟨build_guarded, by decide +kernel, refused_cannot_interfere build_guarded hgone⟩

end Run

end Gateway

end QuorumGateway
