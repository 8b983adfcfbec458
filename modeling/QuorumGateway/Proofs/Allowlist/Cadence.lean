import QuorumGateway.Proofs.Allowlist.Timing
import QuorumGateway.Proofs.Metrics
/-!
How a repeated refresh keeps time, and what it leaves behind. What its fetches have brought so far is in the list and
in the counters, each once (`Booked`); and a refresh that is told to end while it waits, for its timer or for its fetch,
does nothing more (`Ceasing`).

- `refresh_cadence`: in every run, one fetch at most is under way at a time, and none outlasts its limit; starts of
  fetches keep their distance, and do not wait for longer; each fetch that has ended has been counted once; and a
  refresh that is told to end while it waits does nothing more.
-/

namespace QuorumGateway

namespace Allowlist

open Simulation (AllowlistClock)

namespace Loop

variable {s : Loop} {r : Refresh} {trace : List (Nat × Event)} {launched frequency timeout now : Nat} {e : Event}

/-! ## Books -/

/-- what an allow-list has come to by the fetches of its refresh that have ended -/
structure Booked (clock : AllowlistClock) (s : Loop) : Prop where
  fetches : s.clock.fetches = clock.fetches + opened s.trace
  snapshot : s.clock.snapshot = (results s.trace).foldl Snapshot.after clock.snapshot
  metrics : s.clock.metrics =
    (results s.trace).foldl (fun m result => m.refresh (result.toOption.map Snapshot.size)) clock.metrics

theorem opened_snoc : opened (trace ++ [(now, e)]) = opened trace + if e.begins then 1 else 0 := by
  rw [opened, List.countP_append, List.countP_singleton]
  rfl

theorem Booked.effect {clock : AllowlistClock} {s' : Loop} (h : Booked clock s) (heffect : Effect s r s') :
    Booked clock s' := by
  cases heffect with
  | quiet => exact ⟨h.fetches, h.snapshot, h.metrics⟩
  | began =>
    refine ⟨?_, ?_, ?_⟩
    · rw [opened_snoc, ← Nat.add_assoc, ← h.fetches]
      rfl
    · rw [results_snoc]
      exact (List.append_nil _).symm ▸ h.snapshot
    · rw [results_snoc]
      exact (List.append_nil _).symm ▸ h.metrics
  | ended f result =>
    refine ⟨?_, ?_, ?_⟩
    · rw [opened_snoc]
      exact h.fetches
    · rw [results_snoc, List.foldl_append, ← h.snapshot]
      rfl
    · rw [results_snoc, List.foldl_append, ← h.metrics]
      rfl
  | stopped =>
    refine ⟨?_, ?_, ?_⟩
    · rw [opened_snoc]
      exact h.fetches
    · rw [results_snoc]
      exact (List.append_nil _).symm ▸ h.snapshot
    · rw [results_snoc]
      exact (List.append_nil _).symm ▸ h.metrics

theorem Inv.alone (h : Inv launched frequency timeout s) :
    s.clock.refreshes = [] ∨ ∃ r, s.clock.refreshes = [r] := by
  cases h.phase with
  | waiting r hwaiting => exact .inr ⟨r, hwaiting.alone⟩
  | fetching r f x hfetching => exact .inr ⟨r, hfetching.alone⟩
  | ceased hr => exact .inl hr

theorem booked_run (clock : AllowlistClock) (hpos : 0 < frequency) (hfrequency : Time.Whole frequency)
    (htimeout : Time.Whole timeout) (ops : List Op) : Booked clock ((launch clock frequency timeout).run ops) := by
  induction ops using List.reverseRecOn with
  | nil => exact ⟨rfl, rfl, rfl⟩
  | append_singleton ops o ih =>
    rw [run_snoc]
    rcases (inv_run hfrequency htimeout clock hpos ops).alone with hr | ⟨r, hr⟩
    · obtain ⟨source, now, told, -, hstep⟩ := step_over hr o
      rw [hstep]
      exact ⟨ih.fetches, ih.snapshot, ih.metrics⟩
    · exact ih.effect (step_effect hr o)

/-! ## The end -/

/-- a refresh that has been told to end while it waited for its timer or for its fetch: it has ended and given up its
fetch, or has yet to be given the chance, and no time passes until then -/
inductive Ceasing (s : Loop) (r : Refresh) (s' : Loop) : Prop where
  | yet (htold : s'.told = true) (hr : s'.clock.refreshes = [r]) (hnow : s'.clock.now = s.clock.now)
    (htrace : s'.trace = s.trace)
  | done (hr : s'.clock.refreshes = []) (htrace : s'.trace = s.trace ++ [(s.clock.now, .stopped r.fetch.isSome)])

theorem Ceasing.step {s' : Loop} (hwaits : s.clock.now < r.due) (h : Ceasing s r s') (o : Op) :
    Ceasing s r (s'.step o) ∧ (s'.step o).clock.snapshot = s'.clock.snapshot ∧
      (s'.step o).clock.metrics = s'.clock.metrics ∧ (s'.step o).clock.fetches = s'.clock.fetches := by
  cases h with
  | yet htold hr hnow htrace =>
    have heffect := step_effect hr o
    generalize s'.step o = s'' at heffect ⊢
    cases heffect with
    | quiet source now told _ _ hstill =>
      obtain ⟨htold', hnow'⟩ := hstill htold
      exact ⟨.yet htold' hr (hnow'.trans hnow) htrace, rfl, rfl, rfl⟩
    | began hidle hfired =>
      have hdue : r.due = r.ticker.wake := by simp only [Refresh.due, hidle]
      omega
    | ended f result hfetch hdone =>
      have hdue : r.due = f.ends := by simp only [Refresh.due, hfetch]
      omega
    | stopped => exact ⟨.done rfl (by rw [htrace, hnow]), rfl, rfl, rfl⟩
  | done hr htrace =>
    obtain ⟨source, now, told, -, hstep⟩ := step_over hr o
    rw [hstep]
    exact ⟨.done hr htrace, rfl, rfl, rfl⟩

/-- what becomes of a refresh that is told to end while it waits -/
structure Ceased (s : Loop) (r : Refresh) (s' : Loop) : Prop where
  /-- it starts no fetch -/
  silent : starts s'.trace = starts s.trace
  /-- a fetch that was under way leaves the list and the counters alone -/
  kept : s'.clock.snapshot = s.clock.snapshot ∧ s'.clock.metrics = s.clock.metrics ∧
    s'.clock.fetches = s.clock.fetches
  /-- it can end, and has ended when time has passed -/
  ends : (s'.step .quit).clock.refreshes = [] ∧ (s.clock.now < s'.clock.now → s'.clock.refreshes = [])
  /-- with its end it abandons the fetch that was under way -/
  last : s'.clock.refreshes = [] → s'.trace = s.trace ++ [(s.clock.now, .stopped r.fetch.isSome)]

theorem Ceasing.silent {s' : Loop} (h : Ceasing s r s') : starts s'.trace = starts s.trace := by
  cases h with
  | yet _ _ _ htrace => rw [htrace]
  | done _ htrace =>
    rw [htrace, starts_snoc]
    exact List.append_nil _

theorem Ceasing.ends {s' : Loop} (h : Ceasing s r s') :
    (s'.step .quit).clock.refreshes = [] ∧ (s.clock.now < s'.clock.now → s'.clock.refreshes = []) := by
  cases h with
  | yet htold hr hnow =>
    refine ⟨?_, fun hlater => absurd hlater (by omega)⟩
    simp only [Loop.step, hr, htold, if_true]
    rfl
  | done hr => exact ⟨by simp only [Loop.step, hr], fun _ => hr⟩

theorem Ceasing.last {s' : Loop} (h : Ceasing s r s') (hended : s'.clock.refreshes = []) :
    s'.trace = s.trace ++ [(s.clock.now, .stopped r.fetch.isSome)] := by
  cases h with
  | yet _ hr =>
    rw [hended] at hr
    cases hr
  | done _ htrace => exact htrace

theorem ceased (hr : s.clock.refreshes = [r]) (hwaits : s.clock.now < r.due) (more : List Op) :
    Ceased s r (s.run (.tell :: more)) := by
  have hrun : ∀ more, Ceasing s r (s.run (.tell :: more)) ∧
      (s.run (.tell :: more)).clock.snapshot = s.clock.snapshot ∧
      (s.run (.tell :: more)).clock.metrics = s.clock.metrics ∧
      (s.run (.tell :: more)).clock.fetches = s.clock.fetches := by
    intro more
    induction more using List.reverseRecOn with
    | nil => exact ⟨.yet rfl hr rfl rfl, rfl, rfl, rfl⟩
    | append_singleton more o ih =>
      obtain ⟨hceasing, hsnapshot, hmetrics, hfetches⟩ := ih
      obtain ⟨hnext, hsnapshot', hmetrics', hfetches'⟩ := hceasing.step hwaits o
      rw [← List.cons_append, run_snoc]
      exact ⟨hnext, hsnapshot'.trans hsnapshot, hmetrics'.trans hmetrics, hfetches'.trans hfetches⟩
  obtain ⟨hceasing, hkept⟩ := hrun more
  exact ⟨hceasing.silent, hkept, hceasing.ends, hceasing.last⟩

/-! ## Counters -/

/-- the last list that a fetch has brought -/
def lastList (rs : List (Except Failure Snapshot)) : Option Snapshot := (rs.filterMap Except.toOption).getLast?

/-- the sum of the refreshes that are counted under an outcome -/
def counted (outcome : String) (m : Metrics) : Nat := m.allowlistRefreshes.totalOf fun labels => labels = [outcome]

theorem lastList_snoc (rs : List (Except Failure Snapshot)) (result : Except Failure Snapshot) :
    lastList (rs ++ [result]) = result.toOption.or (lastList rs) := by
  unfold lastList
  rw [List.filterMap_append, List.getLast?_append]
  cases result <;> rfl

theorem foldl_after (list : Snapshot) (rs : List (Except Failure Snapshot)) :
    rs.foldl Snapshot.after list = (lastList rs).getD list := by
  induction rs using List.reverseRecOn with
  | nil => rfl
  | append_singleton rs result ih =>
    rw [List.foldl_append, lastList_snoc, ih]
    cases result <;> rfl

theorem counted_refresh (outcome : String) (m : Metrics) (size : Option Nat) :
    counted outcome (m.refresh size) =
      counted outcome m + if outcome = (if size.isSome then "ok" else "error") then 1 else 0 := by
  cases size <;> simp [counted, Metrics.refresh, Tally.totalOf_add, eq_comm]

theorem foldl_refresh (m : Metrics) (rs : List (Except Failure Snapshot)) :
    let m' := rs.foldl (fun m result => m.refresh (result.toOption.map Snapshot.size)) m
    counted "ok" m' = counted "ok" m + rs.countP (fun result => result.toOption.isSome) ∧
      counted "error" m' = counted "error" m + rs.countP (fun result => result.toOption.isNone) ∧
      m'.allowlistSize = ((lastList rs).map Snapshot.size).getD m.allowlistSize := by
  induction rs using List.reverseRecOn with
  | nil => exact ⟨rfl, rfl, rfl⟩
  | append_singleton rs result ih =>
    obtain ⟨hok, herror, hsize⟩ := ih
    simp only [List.foldl_append, List.foldl_cons, List.foldl_nil, counted_refresh, List.countP_append,
      List.countP_singleton, lastList_snoc, hok, herror]
    cases result with
    | error failure => exact ⟨by simp [Except.toOption], by simp [Except.toOption, Nat.add_assoc], hsize⟩
    | ok list => exact ⟨by simp [Except.toOption, Nat.add_assoc], by simp [Except.toOption], rfl⟩

/-! ## Main result -/

/-- whether the refresh has not ended -/
def Running (s : Loop) : Prop := s.clock.refreshes ≠ []

/-- how a refresh keeps time that was launched on an allow-list -/
structure Cadence (clock : AllowlistClock) (frequency timeout : Nat) (s : Loop) : Prop where
  /-- the first fetch starts at once, as timers go: when the millisecond of the launch is full -/
  first : ∀ x, (starts s.trace).head? = some x → x = Time.wake clock.now ∧ (Time.Whole clock.now → x = clock.now)
  prompt : s.Running → starts s.trace = [] → s.clock.now ≤ Time.wake clock.now
  /-- at no time is more than one fetch under way -/
  single : ∀ es, es <+: s.trace → closed es ≤ opened es ∧ opened es ≤ closed es + 1
  /-- the end of a fetch follows on its start, and not later than its limit -/
  brief : s.trace.IsChain (Follows timeout)
  underWay : s.Running → ∀ x, s.trace.getLast? = some (x, .began) → s.clock.now ≤ x + timeout
  /-- fetches start neither sooner than a period after one another, but for the slack, nor later than a period or the
  limit of a fetch -/
  apart : (starts s.trace).IsChain (Apart frequency timeout)
  steady : s.Running → ∀ x, (starts s.trace).getLast? = some x → s.clock.now ≤ x + max frequency timeout

/-- how it keeps its books -/
structure Counted (clock : AllowlistClock) (s : Loop) : Prop where
  fetches : s.clock.fetches = clock.fetches + opened s.trace
  /-- each fetch that has ended is counted once -/
  ok : counted "ok" s.clock.metrics =
    counted "ok" clock.metrics + (results s.trace).countP fun result => result.toOption.isSome
  error : counted "error" s.clock.metrics =
    counted "error" clock.metrics + (results s.trace).countP fun result => result.toOption.isNone
  /-- only a list that has been fetched changes the size that is shown, and the list -/
  size : s.clock.metrics.allowlistSize =
    ((lastList (results s.trace)).map Snapshot.size).getD clock.metrics.allowlistSize
  list : s.clock.snapshot = (lastList (results s.trace)).getD clock.snapshot

/-- as long as no fetch has started, the first turn is still waited for -/
theorem Inv.prompt (h : Inv launched frequency timeout s) (hrunning : s.Running) (hnone : starts s.trace = []) :
    s.clock.now ≤ Time.wake launched := by
  cases h.phase with
  | waiting r hwaiting =>
    cases hwaiting.waits with
    | first _ hdue hnow => exact hdue ▸ hnow
    | again x hx =>
      rw [hnone] at hx
      cases hx
  | fetching r f x hfetching =>
    have hstart := hfetching.start
    rw [hnone] at hstart
    cases hstart
  | ceased hr => exact absurd hr hrunning

theorem Inv.single (h : Inv launched frequency timeout s) (es : List (Nat × Event)) (hes : es <+: s.trace) :
    closed es ≤ opened es ∧ opened es ≤ closed es + 1 := by
  obtain ⟨rest, hrest⟩ := hes
  have hopens : ∀ p, es.head? = some p → p.2.closes = false := by
    intro p hp
    apply h.regular.opens p
    rw [← hrest, List.head?_append, hp, Option.some_or]
  have hfollows : (es ++ rest).IsChain (Follows timeout) := hrest ▸ h.regular.follows
  have heq := opened_eq hfollows.left_of_append hopens
  split_ifs at heq <;> omega

/-- a fetch that is under way has not lasted longer than its limit -/
theorem Inv.underWay (h : Inv launched frequency timeout s) (hrunning : s.Running)
    (hx : s.trace.getLast? = some (x, .began)) : s.clock.now ≤ x + timeout := by
  cases h.phase with
  | waiting r hwaiting =>
    obtain ⟨hquiet, -⟩ := hwaiting.last _ hx
    cases hquiet
  | fetching r f x' hfetching =>
    obtain rfl : x' = x := congrArg Prod.fst (Option.some.inj (hfetching.last.symm.trans hx))
    exact hfetching.now.2.trans hfetching.ends
  | ceased hr => exact absurd hr hrunning

/-- the next fetch is not waited for longer than a period or a fetch takes -/
theorem Inv.steady (h : Inv launched frequency timeout s) (hfrequency : Time.Whole frequency)
    (htimeout : Time.Whole timeout) (hrunning : s.Running) (hx : (starts s.trace).getLast? = some x) :
    s.clock.now ≤ x + max frequency timeout := by
  cases h.phase with
  | waiting r hwaiting =>
    cases hwaiting.waits with
    | first hnone =>
      rw [hnone] at hx
      cases hx
    | again x' hx' htimely hnow =>
      obtain rfl : x' = x := Option.some.inj (hx'.symm.trans hx)
      have hwake := htimely.wake_le hfrequency htimeout
      omega
  | fetching r f x' hfetching =>
    obtain rfl : x' = x := Option.some.inj (hfetching.start.symm.trans hx)
    have hnow := hfetching.now.2.trans hfetching.ends
    omega
  | ceased hr => exact absurd hr hrunning

theorem Inv.cadence {clock : AllowlistClock} (h : Inv clock.now frequency timeout s)
    (hfrequency : Time.Whole frequency) (htimeout : Time.Whole timeout) : Cadence clock frequency timeout s where
  first x hx := ⟨h.regular.first x hx, fun hwhole => (h.regular.first x hx).trans (Time.wake_of_whole hwhole)⟩
  prompt := h.prompt
  single := h.single
  brief := h.regular.follows
  underWay hrunning _ hx := h.underWay hrunning hx
  apart := h.regular.spacing
  steady hrunning _ hx := h.steady hfrequency htimeout hrunning hx

theorem Booked.counted {clock : AllowlistClock} (h : Booked clock s) : Counted clock s := by
  obtain ⟨hok, herror, hsize⟩ := foldl_refresh clock.metrics (results s.trace)
  rw [← h.metrics] at hok herror hsize
  exact ⟨h.fetches, hok, herror, hsize, h.snapshot.trans (foldl_after _ _)⟩

/-- **The repeated refresh keeps time.** Launched on any allow-list, with a frequency and a limit in whole milliseconds,
and with any behaviour of the source for each fetch, it starts its first fetch at once, has one fetch at most under way
and none for longer than the limit, and starts fetches at the distance of a period, or of a fetch that takes longer. It
counts each fetch that has ended once, and what has not brought a list changes no size. Told to end while it waits, it
starts no fetch any more, abandons the one under way without a trace in list and counters, and ends before time goes
on. -/
theorem refresh_cadence (clock : AllowlistClock) (hpos : 0 < frequency) (hfrequency : Time.Whole frequency)
    (htimeout : Time.Whole timeout) (ops : List Op) :
    let s := (launch clock frequency timeout).run ops
    Cadence clock frequency timeout s ∧ Counted clock s ∧
      ∀ r, s.clock.refreshes = [r] → s.clock.now < r.due → ∀ more, Ceased s r (s.run (.tell :: more)) :=
  ⟨(inv_run hfrequency htimeout clock hpos ops).cadence hfrequency htimeout,
    (booked_run clock hpos hfrequency htimeout ops).counted, fun _ hr hwaits more => ceased hr hwaits more⟩

/-- a source that hangs at the first fetch, answers the second at once and is slow at the third -/
def slowStart : List Op :=
  [.act, .pass (Time.seconds 40), .act, .change ⟨[], .answer⟩, .act, .act, .pass (Time.seconds 40),
    .change ⟨[], .delay (Time.seconds 3)⟩, .act, .pass (Time.seconds 36)]

/-- an allow-list that nobody has fetched yet -/
def unfetched : AllowlistClock := .start ⟨List.replicate 20 0, rfl⟩ 1 ⟨[], .hang⟩

/-- the first fetch takes longer than two periods; one turn is taken when it has ended, and the next a period later -/
theorem refresh_cadence_slow :
    let s := (launch unfetched (Time.seconds 10) (Time.seconds 25)).run slowStart
    starts s.trace = [0, Time.seconds 25, Time.seconds 35] ∧ counted "ok" s.clock.metrics = 1 ∧
      counted "error" s.clock.metrics = 1 ∧ Cadence unfetched (Time.seconds 10) (Time.seconds 25) s ∧
      ∃ r, s.clock.refreshes = [r] ∧ s.clock.now < r.due ∧ Ceased s r (s.run [.tell, .quit]) := by
  intro s
  obtain ⟨hstarts, hok, herror, hdues, hnow⟩ :
      starts s.trace = [0, Time.seconds 25, Time.seconds 35] ∧ counted "ok" s.clock.metrics = 1 ∧
        counted "error" s.clock.metrics = 1 ∧ s.clock.refreshes.map Refresh.due = [Time.seconds 38] ∧
        s.clock.now = Time.seconds 36 := by
    decide +kernel
  have hpos : 0 < Time.seconds 10 := by decide
  have hfrequency : Time.Whole (Time.seconds 10) := rfl
  have htimeout : Time.Whole (Time.seconds 25) := rfl
  obtain ⟨hcadence, -, hceased⟩ := refresh_cadence unfetched hpos hfrequency htimeout slowStart
  obtain ⟨r, hr, hdue⟩ := List.map_eq_singleton_iff.1 hdues
  have hwaits : s.clock.now < r.due := by
    rw [hnow, hdue]
    decide
  exact ⟨hstarts, hok, herror, hcadence, r, hr, hwaits, hceased r hr hwaits [.quit]⟩

end Loop

end Allowlist

end QuorumGateway
