import QuorumGateway.Proofs.Gateway.Contract
import QuorumGateway.Proofs.Gateway.History
/-!
Deadlines on a clock of whole milliseconds. The sweeper takes a turn whenever its timer has fired, and settles the
requests that are overdue then. Its turns are due at any nanoseconds, each one period after the one before, while the
timer fires at whole milliseconds; calls, responses and the ends of sends come in at any instant, and the clock passes
the instant of no turn (`Timed`).

- `Ticking`: a turn is due at most one period from now, and until it is, no open request is overdue by more than the
  rest of that period.
- `deadlines_kept`: no request times out before its time, and none outlives its time by a period.
-/

namespace QuorumGateway

open Pending (Entry Table)

/-! ## Timers -/

namespace Time

variable {instant now : Nat}

/-- whether an instant is a whole millisecond -/
def Whole (instant : Nat) : Prop := instant % perMilli = 0

theorem le_wake (instant : Nat) : instant ≤ wake instant := by
  unfold wake perMilli
  omega

theorem wake_lt (instant : Nat) : wake instant < instant + perMilli := by
  unfold wake perMilli
  omega

theorem whole_wake (instant : Nat) : Whole (wake instant) := Nat.mul_mod_right _ _

/-- a clock of whole milliseconds has come to an instant exactly when a timer for it has fired -/
theorem wake_le_iff (hnow : Whole now) : wake instant ≤ now ↔ instant ≤ now := by
  unfold Whole perMilli at hnow
  unfold wake perMilli
  omega

end Time

namespace Pending

theorem sweepInterval_bounds (timeout : Nat) :
    Time.millis 100 ≤ sweepInterval timeout ∧ sweepInterval timeout ≤ Time.seconds 5 ∧
      sweepInterval timeout ≤ max (timeout / 4) (Time.millis 100) := by
  unfold sweepInterval Time.millis Time.seconds Time.perMilli Time.perSecond
  omega

end Pending

namespace Gateway

variable {S : Crypto.Scheme} {b : Built} {ops : List Op} {now : Nat} {sweeper : Option Time.Ticker} {t : Time.Ticker}

/-! ## Runs on a clock -/

/-- whether an operation can come in at an instant, as far as the clock is concerned: a call knows the instant at which
it is made -/
def Op.comesAt (now : Nat) : Op → Prop
  | .submit instant _ _ => instant = now
  | .finish _ _ | .respond _ _ | .refresh _ => True
  | _ => False

/-- the sweeper after a call to start the gateway -/
def swept (S : Crypto.Scheme) (b : Built) (ops : List Op) (now : Nat) (sweeper : Option Time.Ticker) :
    Option Time.Ticker :=
  match (Gateway.start (reached S b ops)).2 with
  | .ok () => some (.start now b.setup.sweepInterval)
  | .error _ => sweeper

/-- the runs of a gateway that is not closed, with the instant they have come to and the timer of the sweeper, if it has
been started -/
inductive Timed (S : Crypto.Scheme) (b : Built) : List Op → Nat → Option Time.Ticker → Prop where
  /-- the gateway is built -/
  | built {now : Nat} (hwhole : Time.Whole now) : Timed S b [] now none
  /-- a call is made, a send ends, a node answers, or a fetch of the allow-list ends -/
  | other {ops : List Op} {now : Nat} {sweeper : Option Time.Ticker} (h : Timed S b ops now sweeper) (o : Op)
    (ho : o.comesAt now) : Timed S b (ops ++ [o]) now sweeper
  /-- the gateway is started, or a call to start it fails -/
  | start {ops : List Op} {now : Nat} {sweeper : Option Time.Ticker} (h : Timed S b ops now sweeper) :
    Timed S b (ops ++ [.start]) now (swept S b ops now sweeper)
  /-- the timer of the sweeper has fired, and it takes its turn -/
  | turn {ops : List Op} {now : Nat} {t : Time.Ticker} (h : Timed S b ops now (some t)) (hfired : t.wake ≤ now) :
    Timed S b (ops ++ [.sweep now]) now (some (t.advance now))
  /-- time passes, up to the next turn of the sweeper at most -/
  | pass {ops : List Op} {now : Nat} {sweeper : Option Time.Ticker} (h : Timed S b ops now sweeper) (later : Nat)
    (hlater : now ≤ later) (hwhole : Time.Whole later) (hwait : ∀ t ∈ sweeper, later ≤ t.wake) :
    Timed S b ops later sweeper

/-- a turn of the sweeper that is still to come keeps to the deadlines: it is due at most one period from now; and if it
is not due yet, then none of the open requests is overdue by more than the rest of the period -/
structure Ticking (interval now : Nat) (t : Time.Ticker) (entries : List Entry) : Prop where
  period : t.period = interval
  unmissed : now ≤ t.wake
  soon : t.due ≤ now + interval
  kept : now < t.wake → ∀ e ∈ entries, t.due ≤ e.deadline + interval

/-! ## One step -/

section Step

variable {interval : Nat} {entries : List Entry}

@[simp] theorem kept_deadline (g : Setup) (e : Entry) (o : Op) : (kept g e o).deadline = e.deadline := by
  unfold kept
  split <;> rfl

/-- requests that were open before do not disturb the sweeper, and those that are registered now have at least a period
left -/
theorem Ticking.other (h : Ticking interval now t entries) {entries' : List Entry}
    (hentries : ∀ e' ∈ entries', now ≤ e'.deadline ∨ ∃ e ∈ entries, e'.deadline = e.deadline) :
    Ticking interval now t entries' := by
  refine ⟨h.period, h.unmissed, h.soon, fun hbefore e' he' => ?_⟩
  rcases hentries e' he' with hnew | ⟨e, he, hdeadline⟩
  · exact h.soon.trans (Nat.add_le_add_right hnew _)
  · rw [hdeadline]
    exact h.kept hbefore e he

/-- when the sweeper is started, its first turn is due at once -/
theorem Ticking.start (hnow : Time.Whole now) (hpos : 0 < interval) :
    Ticking interval now (.start now interval) entries := by
  have hperiod : (Time.Ticker.start now interval).period = interval := Nat.max_eq_right hpos
  have hdue : (Time.Ticker.start now interval).due = now := rfl
  have hwake : (Time.Ticker.start now interval).wake ≤ now := (Time.wake_le_iff hnow).2 (Nat.le_of_eq hdue)
  exact ⟨hperiod, Time.le_wake now, by rw [hdue]; exact Nat.le_add_right _ _,
    fun hbefore => absurd hwake (Nat.not_le_of_lt hbefore)⟩

/-- a turn is never noticed late, so the next one is due one period after it was -/
theorem Ticking.due_advance (h : Ticking interval now t entries) : (t.advance now).due = t.due + interval := by
  have hwake : t.wake < t.due + Time.perMilli := Time.wake_lt t.due
  have hslack : ¬ Time.Ticker.slack + t.due < now := by
    have hunmissed := h.unmissed
    unfold Time.Ticker.slack Time.millis
    omega
  calc (t.advance now).due = t.due + t.period := if_neg hslack
    _ = t.due + interval := by rw [h.period]

/-- after a turn no open request is overdue, and the next turn is due one period later -/
theorem Ticking.turn (h : Ticking interval now t entries) (hfired : t.wake ≤ now) (hmilli : Time.perMilli ≤ interval)
    {entries' : List Entry} (hopen : ∀ e ∈ entries', now < e.deadline) :
    Ticking interval now (t.advance now) entries' := by
  have hdue := h.due_advance
  have hnow : t.due ≤ now := (Time.le_wake t.due).trans hfired
  have hwake : t.wake < t.due + Time.perMilli := Time.wake_lt t.due
  have hunmissed := h.unmissed
  refine ⟨h.period, ?_, by rw [hdue]; omega, fun _ e he => ?_⟩
  · have hnext : (t.advance now).due ≤ (t.advance now).wake := Time.le_wake _
    omega
  · have hlate := hopen e he
    omega

theorem Ticking.pass (h : Ticking interval now t entries) {later : Nat} (hlater : now ≤ later)
    (hwait : later ≤ t.wake) : Ticking interval later t entries :=
  ⟨h.period, hwait, h.soon.trans (Nat.add_le_add_right hlater _), fun hbefore => h.kept (hlater.trans_lt hbefore)⟩

/-- until the next turn is due, every open request is overdue for less than a period -/
theorem Ticking.prompt (h : Ticking interval now t entries) (hnow : Time.Whole now) (hbefore : now < t.wake) :
    ∀ e ∈ entries, now < e.deadline + interval := by
  intro e he
  have hdue : now < t.due := Nat.lt_of_not_le fun hle => Nat.not_le_of_lt hbefore ((Time.wake_le_iff hnow).2 hle)
  exact hdue.trans_le (h.kept hbefore e he)

end Step

/-! ## Runs -/

theorem sweepInterval_ge (g : Setup) : Time.millis 100 ≤ g.sweepInterval := (Pending.sweepInterval_bounds g.timeout).1

theorem Timed.whole (h : Timed S b ops now sweeper) : Time.Whole now := by
  induction h with
  | built hwhole => exact hwhole
  | other _ _ _ ih => exact ih
  | start _ ih => exact ih
  | turn _ _ ih => exact ih
  | pass _ _ _ hwhole _ _ => exact hwhole

/-- the requests that are open after an operation other than a turn of the sweeper: they were open before, or they are
registered now -/
theorem entries_other {o : Op} (ho : o.comesAt now ∨ o = .start) :
    ∀ e' ∈ (reached S b (ops ++ [o])).table.entries,
      now ≤ e'.deadline ∨ ∃ e ∈ (reached S b ops).table.entries, e'.deadline = e.deadline := by
  intro e' he'
  obtain ⟨es, -, heff⟩ := step_effect S b.setup (reached S b ops) o
  rw [reached_snoc] at he'
  rcases entry_of_effect (distinct_reached S b ops) heff he' with ⟨instant, m, rfl, hnew⟩ | ⟨e, he, hkept, -⟩
  · have hinstant : instant = now := ho.resolve_right (by simp)
    subst hinstant
    left
    rw [hnew]
    exact Nat.le_add_right _ _
  · exact .inr ⟨e, he, by rw [hkept, kept_deadline]⟩

/-- **The sweeper keeps ticking** in every run, from its start on -/
theorem Timed.ticking (h : Timed S b ops now sweeper) :
    ∀ t ∈ sweeper, Ticking b.setup.sweepInterval now t (reached S b ops).table.entries := by
  have hmilli : Time.perMilli ≤ b.setup.sweepInterval := by
    have hbound := sweepInterval_ge b.setup
    unfold Time.millis at hbound
    omega
  induction h with
  | built => simp
  | other _ o ho ih => exact fun t ht => (ih t ht).other (entries_other (.inl ho))
  | @start ops now sweeper h ih =>
    intro t ht
    unfold swept at ht
    split at ht
    · obtain rfl : Time.Ticker.start now b.setup.sweepInterval = t := Option.some.inj ht
      exact .start h.whole (Nat.lt_of_lt_of_le (by decide) hmilli)
    · exact (ih t ht).other (entries_other (.inr rfl))
  | @turn ops now t h hfired ih =>
    rintro _ ⟨⟩
    refine (ih t rfl).turn hfired hmilli fun e he => ?_
    rw [reached_snoc, step, sweep] at he
    have hopen : e ∈ ((reached S b ops).table.expire b.setup.quorum now).1.entries := he
    rw [Table.entries_expire (distinct_reached S b ops)] at hopen
    simpa using (List.mem_filter.1 hopen).2
  | pass _ later hlater _ hwait ih => exact fun t ht => (ih t ht).pass hlater (hwait t ht)

/-- the next turn of the sweeper always comes: the clock can pass to its instant, and the turn is taken -/
theorem Timed.next (h : Timed S b ops now (some t)) (instant : Nat) (hwake : t.wake = instant) :
    Timed S b (ops ++ [.sweep instant]) instant (some (t.advance instant)) := by
  subst hwake
  have hpassed : Timed S b ops t.wake (some t) :=
    h.pass t.wake (h.ticking t rfl).unmissed (Time.whole_wake t.due) fun t' ht' => by rw [Option.some.inj ht']
  exact hpassed.turn (Nat.le_refl _)

/-- the sweeper takes its turns at the instants that the clock has come to by then -/
theorem Timed.sweep_le (h : Timed S b ops now sweeper) {instant : Nat} (hsweep : .sweep instant ∈ ops) :
    instant ≤ now := by
  induction h with
  | built => exact absurd hsweep List.not_mem_nil
  | other _ o ho ih =>
    rcases List.mem_append.1 hsweep with hsweep | hlast
    · exact ih hsweep
    · obtain rfl := List.mem_singleton.1 hlast
      exact ho.elim
  | start _ ih => exact ih (by simpa using hsweep)
  | turn _ _ ih =>
    rcases List.mem_append.1 hsweep with hsweep | hlast
    · exact ih hsweep
    · obtain rfl := Op.sweep.inj (List.mem_singleton.1 hlast)
      exact Nat.le_refl _
  | pass _ _ hlater _ _ ih => exact (ih hsweep).trans hlater

/-! ## Main result -/

/-- how a gateway keeps to the deadlines of requests at an instant -/
structure Punctual (S : Crypto.Scheme) (b : Built) (ops : List Op) (now : Nat) (t : Time.Ticker) : Prop where
  /-- a request that has timed out was registered by a call at least as long ago as a request may stay open, and was
  open up to the turn of the sweeper -/
  patient : ∀ callback reply, .delivered callback reply ∈ (reached S b ops).trace → reply.code = .requestTimeoutError →
    ∃ pre made m mid instant post, ops = pre ++ .submit made callback m :: (mid ++ .sweep instant :: post) ∧
      StaysOpen S b pre made callback m mid ∧ made + b.setup.timeout ≤ instant ∧ instant ≤ now
  /-- when the sweeper has taken the turns that are due, every open request was registered by a call, and has been
  overdue for less than a period if it is overdue at all -/
  prompt : now < t.wake → ∀ e ∈ (reached S b ops).table.entries,
    (∃ pre made m mid, ops = pre ++ .submit made e.callback m :: mid ∧ e.deadline = made + b.setup.timeout) ∧
      now < e.deadline + b.setup.sweepInterval
  /-- and one turn is all that it has to take at an instant -/
  settled : t.wake ≤ now → now < (t.advance now).wake
  quarter : b.setup.sweepInterval ≤ max (b.setup.timeout / 4) (Time.millis 100)
  bounded : b.setup.sweepInterval ≤ Time.seconds 5

/-- the failure for requests that are overdue is for them alone -/
theorem Settles.overdue_of_timeout {g : Setup} {e : Entry} {o : Op} {reply : Reply} (h : Settles g e o reply)
    (hcode : reply.code = .requestTimeoutError) : ∃ instant, o = .sweep instant ∧ e.deadline ≤ instant := by
  cases h with
  | decided node m reply hanswer hdecision =>
    unfold Table.replyTo at hdecision
    split at hdecision <;> cases hdecision <;> cases hcode
  | overdue instant hlate => exact ⟨instant, rfl, hlate⟩
  | drained => cases hcode

/-- **Deadlines are kept.** In every run of a gateway that has been started and not been closed, no request times out
before its time, and at every instant, once the sweeper has taken the turn that is due, no request is open that should
have timed out a period ago or earlier; the period is at most a quarter of the time or 100 ms, whichever is longer, and
at most 5 s. -/
theorem deadlines_kept (h : Timed S b ops now (some t)) : Punctual S b ops now t := by
  have hticking : Ticking b.setup.sweepInterval now t (reached S b ops).table.entries := h.ticking t rfl
  obtain ⟨-, hbounded, hquarter⟩ := Pending.sweepInterval_bounds b.setup.timeout
  refine ⟨fun callback reply hev hcode => ?_, fun hbefore e he => ⟨?_, ?_⟩, fun hfired => ?_, hquarter, hbounded⟩
  · obtain ⟨pre, made, m, mid, o, post, hops, hstays, hsettles⟩ := delivery_history S b ops hev
    obtain ⟨instant, rfl, hlate⟩ := hsettles.overdue_of_timeout hcode
    exact ⟨pre, made, m, mid, instant, post, hops, hstays, hlate, h.sweep_le (by rw [hops]; simp)⟩
  · obtain ⟨pre, made, m, mid, hops, hentry, -⟩ := history S b ops he
    exact ⟨pre, made, m, mid, hops, by rw [hentry]; rfl⟩
  · exact hticking.prompt h.whole hbefore e he
  · have hmilli := sweepInterval_ge b.setup
    have hwake : t.wake < t.due + Time.perMilli := Time.wake_lt t.due
    have hnext : (t.advance now).due ≤ (t.advance now).wake := Time.le_wake _
    have hunmissed := hticking.unmissed
    rw [hticking.due_advance] at hnext
    unfold Time.millis at hmilli
    omega

/-! ## Turns between milliseconds -/

/-- a gateway of one node whose requests may stay open for 1001 ms; its sweeper's period of 250.25 ms is no whole number
of milliseconds -/
def oddNode : Built :=
  ⟨⟨⟨none, none, 0, 0, 1001⟩, ⟨"don", "functions", .null, [⟨"node", "0x01"⟩], 0⟩⟩, none, none⟩

/-- a call is made 3 ms before the gateway is started; its request times out at the fifth turn, 3 ms after its time, and
the sender calls again -/
def oddOps : List Op :=
  [.submit 0 0 (aliceRequest "don"), .start, .sweep (Time.millis 3), .sweep (Time.millis 254), .sweep (Time.millis 504),
    .sweep (Time.millis 754), .sweep (Time.millis 1004), .submit (Time.millis 1004) 1 (aliceRequest "don")]

/-- the timer of the sweeper before the first turn -/
def oddTicker : Time.Ticker := .start (Time.millis 3) oddNode.setup.sweepInterval

/-- and after the turns, which were due at 3, 253.25, 503.5, 753.75 and 1004 ms -/
def oddTickerLater : Time.Ticker :=
  [3, 254, 504, 754, 1004].foldl (fun t n => t.advance (Time.millis n)) oddTicker

theorem swept_of_unstarted (hstarted : (reached S b ops).started = false)
    (hclosing : (reached S b ops).closing = false) :
    swept S b ops now sweeper = some (.start now b.setup.sweepInterval) := by
  simp [swept, Gateway.start, hstarted, hclosing]

theorem deadlines_kept_odd :
    Timed aliceScheme oddNode oddOps (Time.millis 1100) (some oddTickerLater) ∧
      Time.millis 1100 < oddTickerLater.wake ∧ oddTickerLater.due = Time.perMilli * 1254 + 250000 ∧
      deliveries (reached aliceScheme oddNode oddOps).trace = [0] ∧
      (reached aliceScheme oddNode oddOps).table.callbacks = [1] ∧
      Punctual aliceScheme oddNode oddOps (Time.millis 1100) oddTickerLater := by
  have hbuilt : Timed aliceScheme oddNode [] 0 none := .built rfl
  have hcalled : Timed aliceScheme oddNode [.submit 0 0 (aliceRequest "don")] (Time.millis 3) none :=
    (hbuilt.other (.submit 0 0 (aliceRequest "don")) rfl).pass (Time.millis 3) (by decide) rfl (by simp)
  have hstarted :
      Timed aliceScheme oddNode [.submit 0 0 (aliceRequest "don"), .start] (Time.millis 3) (some oddTicker) := by
    have hstart := hcalled.start
    rwa [swept_of_unstarted (by decide +kernel) (by decide +kernel)] at hstart
  have hfirst := hstarted.next (Time.millis 3) (by decide +kernel)
  have hsecond := hfirst.next (Time.millis 254) (by decide +kernel)
  have hthird := hsecond.next (Time.millis 504) (by decide +kernel)
  have hfourth := hthird.next (Time.millis 754) (by decide +kernel)
  have hswept := hfourth.next (Time.millis 1004) (by decide +kernel)
  have hlater : Time.millis 1100 ≤ oddTickerLater.wake := by decide +kernel
  have hruns : Timed aliceScheme oddNode oddOps (Time.millis 1100) (some oddTickerLater) :=
    (hswept.other (.submit (Time.millis 1004) 1 (aliceRequest "don")) rfl).pass (Time.millis 1100) (by decide) rfl
      fun t ht => Option.some.inj ht ▸ hlater
  obtain ⟨hwake, hdue, hdeliveries, hcallbacks⟩ :
      Time.millis 1100 < oddTickerLater.wake ∧ oddTickerLater.due = Time.perMilli * 1254 + 250000 ∧
      deliveries (reached aliceScheme oddNode oddOps).trace = [0] ∧
      (reached aliceScheme oddNode oddOps).table.callbacks = [1] := by
    decide +kernel
  exact ⟨hruns, hwake, hdue, hdeliveries, hcallbacks, deadlines_kept hruns⟩

end Gateway

end QuorumGateway
