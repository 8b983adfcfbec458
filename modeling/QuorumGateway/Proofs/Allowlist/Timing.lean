import Mathlib.Data.List.Chain
import QuorumGateway.Proofs.Allowlist.Loop
/-!
When a repeated refresh starts its fetches. Its timer goes on while a fetch is under way; when the fetch has ended, a
turn that has been missed is taken at once, and the next one is due a period later. So fetches start a period apart, but
for the slack that the timer has, or as far apart as a fetch may take when its limit is longer (`Timely`, `Waits`), and
one fetch is over before the next one starts (`Follows`).

- `Inv.step`, `inv_run`: at every instant a refresh waits for its timer, or for its fetch, or has ended, and what can be
  seen of it so far is regular.
- `opened_eq`: one fetch at most is under way.
-/

namespace QuorumGateway

namespace Time

variable {instant span : Nat}

theorem wake_of_whole (h : Whole instant) : wake instant = instant :=
  Nat.le_antisymm ((wake_le_iff h).2 (Nat.le_refl instant)) (le_wake instant)

/-- a timer that is put off by whole milliseconds fires as much later -/
theorem wake_add (h : Whole span) : wake (instant + span) = wake instant + span := by
  unfold Whole perMilli at h
  unfold wake perMilli
  omega

end Time

namespace Allowlist

open Simulation (AllowlistClock)

theorem Fetch.start_bounds (now limit : Nat) (manner : Manner) :
    now ≤ (Fetch.start now limit manner).ends ∧ (Fetch.start now limit manner).ends ≤ now + limit := by
  cases manner with
  | answer | refuse => exact ⟨Nat.le_refl _, Nat.le_add_right _ _⟩
  | hang => exact ⟨Nat.le_add_right _ _, Nat.le_refl _⟩
  | delay span | fail span =>
    simp only [Fetch.start]
    split_ifs with hspan
    · exact ⟨Nat.le_add_right _ _, Nat.add_le_add_left hspan now⟩
    · exact ⟨Nat.le_add_right _ _, Nat.le_refl _⟩

namespace Loop

variable {s : Loop} {r : Refresh}

/-! ## Reading a trace -/

/-- the instants at which fetches have started -/
def starts (trace : List (Nat × Event)) : List Nat := (trace.filter fun e => e.2.begins).map Prod.fst

/-- what the fetches have brought that have ended -/
def results (trace : List (Nat × Event)) : List (Except Failure Snapshot) := trace.filterMap fun e => e.2.result?

/-- the number of fetches that have started -/
def opened (trace : List (Nat × Event)) : Nat := trace.countP fun e => e.2.begins

/-- the number of fetches that are not under way any more -/
def closed (trace : List (Nat × Event)) : Nat := trace.countP fun e => e.2.closes

/-- what follows on an event: only the end of a fetch follows on its start, and not later than its limit, and it follows
on nothing else -/
structure Follows (timeout : Nat) (p q : Nat × Event) : Prop where
  forward : p.1 ≤ q.1
  closes : q.2.closes = p.2.begins
  brief : p.2.begins = true → q.1 ≤ p.1 + timeout

variable {trace es : List (Nat × Event)} {launched frequency timeout now x : Nat} {e : Event}

theorem starts_snoc : starts (trace ++ [(now, e)]) = starts trace ++ if e.begins then [now] else [] := by
  unfold starts
  rw [List.filter_append, List.map_append]
  cases h : e.begins <;> simp [h]

theorem results_snoc : results (trace ++ [(now, e)]) = results trace ++ e.result?.toList := by
  unfold results
  rw [List.filterMap_append]
  cases h : e.result? <;> simp [h]

/-- a fetch is under way exactly when its start is the last that has been seen -/
theorem opened_eq (hfollows : trace.IsChain (Follows timeout))
    (hopens : ∀ p, trace.head? = some p → p.2.closes = false) :
    opened trace = closed trace + if (trace.getLast?.any fun p => p.2.begins) then 1 else 0 := by
  induction trace using List.reverseRecOn with
  | nil => rfl
  | append_singleton trace q ih =>
    have hbefore := ih hfollows.left_of_append fun p hp => hopens p (by simp [hp])
    -- the event closes the fetch that the one before has opened, if it has
    have hcloses : q.2.closes = trace.getLast?.any fun p => p.2.begins := by
      cases hlast : trace.getLast? with
      | none =>
        rw [List.getLast?_eq_none_iff.1 hlast] at hopens
        exact hopens q rfl
      | some p => exact ((List.isChain_append.1 hfollows).2.2 p hlast q rfl).closes
    have hlast : (trace ++ [q]).getLast?.any (fun p => p.2.begins) = q.2.begins := by
      rw [List.getLast?_concat, Option.any_some]
    rw [hlast, opened, closed, List.countP_append, List.countP_append, List.countP_singleton, List.countP_singleton,
      hcloses]
    unfold opened closed at hbefore
    rw [hbefore]

/-! ## The timer -/

/-- the timer after a turn that was taken at an instant: the next one is due a period later, but for the slack that late
turns have; and where fetches are over by then, it is taken at a period's distance -/
structure Timely (frequency timeout : Nat) (t : Time.Ticker) (x : Nat) : Prop where
  early : x + frequency ≤ t.due + Time.Ticker.slack
  late : t.due ≤ x + frequency
  prompt : timeout ≤ frequency → t.wake = x + frequency

variable {t : Time.Ticker}

/-- the next turn is waited for no longer than a period or a fetch takes -/
theorem Timely.wake_le (h : Timely frequency timeout t x) (hfrequency : Time.Whole frequency)
    (htimeout : Time.Whole timeout) : t.wake ≤ x + max frequency timeout := by
  rcases Nat.lt_or_ge frequency timeout with hlong | hshort
  · -- a fetch may take longer by a millisecond at least, and a timer is no later than that
    have hwake : t.wake < t.due + Time.perMilli := Time.wake_lt t.due
    have hgap : frequency + Time.perMilli ≤ timeout := by
      unfold Time.Whole at hfrequency htimeout
      unfold Time.perMilli at *
      omega
    have hlate := h.late
    omega
  · rw [h.prompt hshort]
    omega

/-- a turn that is taken once the timer has fired; where fetches are over by then, as it fires -/
theorem Timely.turn (hperiod : t.period = frequency) (hfrequency : Time.Whole frequency) (hfired : t.wake ≤ now)
    (hunmissed : timeout ≤ frequency → now ≤ t.wake) : Timely frequency timeout (t.advance now) now := by
  have hdue : t.due ≤ now := (Time.le_wake t.due).trans hfired
  have hnext : (t.advance now).due =
      if Time.Ticker.slack + t.due < now then now + frequency else t.due + frequency := by
    rw [← hperiod]
    rfl
  refine ⟨?_, ?_, fun hshort => ?_⟩
  · rw [hnext]
    split_ifs <;> omega
  · rw [hnext]
    split_ifs <;> omega
  · have hnow : now = t.wake := Nat.le_antisymm (hunmissed hshort) hfired
    have hwake : t.wake < t.due + Time.perMilli := Time.wake_lt t.due
    have hslack : ¬ Time.Ticker.slack + t.due < now := by
      rw [hnow]
      unfold Time.Ticker.slack Time.millis
      unfold Time.perMilli at *
      omega
    rw [Time.Ticker.wake, hnext, if_neg hslack, Time.wake_add hfrequency, hnow]
    rfl

/-! ## The invariant -/

/-- two starts of fetches, one after the other -/
def Apart (frequency timeout x y : Nat) : Prop := x + frequency ≤ y + Time.millis 5 ∧ y ≤ x + max frequency timeout

/-- a trace of a refresh that was launched at an instant -/
structure Regular (launched frequency timeout : Nat) (trace : List (Nat × Event)) : Prop where
  first : ∀ x, (starts trace).head? = some x → x = Time.wake launched
  opens : ∀ p, trace.head? = some p → p.2.closes = false
  follows : trace.IsChain (Follows timeout)
  spacing : (starts trace).IsChain (Apart frequency timeout)

/-- a turn that is waited for: the first one, or one after a fetch that has ended in time -/
inductive Waits (launched frequency timeout : Nat) (trace : List (Nat × Event)) (t : Time.Ticker) (now : Nat) :
    Prop where
  | first (hnone : starts trace = []) (hdue : t.due = launched) (hnow : now ≤ t.wake)
  | again (x : Nat) (hlast : (starts trace).getLast? = some x) (htimely : Timely frequency timeout t x)
    (hnow : now ≤ max t.wake (x + timeout))

/-- a refresh that waits for its timer -/
structure Waiting (launched frequency timeout : Nat) (s : Loop) (r : Refresh) : Prop where
  alone : s.clock.refreshes = [r]
  limit : r.limit = timeout
  period : r.ticker.period = frequency
  idle : r.fetch = none
  last : ∀ p, s.trace.getLast? = some p → p.2.begins = false ∧ p.1 ≤ s.clock.now
  waits : Waits launched frequency timeout s.trace r.ticker s.clock.now

/-- a refresh that has started a fetch at an instant, and waits for it -/
structure Fetching (frequency timeout : Nat) (s : Loop) (r : Refresh) (f : Fetch) (x : Nat) : Prop where
  alone : s.clock.refreshes = [r]
  limit : r.limit = timeout
  period : r.ticker.period = frequency
  busy : r.fetch = some f
  last : s.trace.getLast? = some (x, .began)
  start : (starts s.trace).getLast? = some x
  timely : Timely frequency timeout r.ticker x
  ends : f.ends ≤ x + timeout
  now : x ≤ s.clock.now ∧ s.clock.now ≤ f.ends

/-- where a refresh stands -/
inductive Phase (launched frequency timeout : Nat) (s : Loop) : Prop where
  | waiting (r : Refresh) (h : Waiting launched frequency timeout s r)
  | fetching (r : Refresh) (f : Fetch) (x : Nat) (h : Fetching frequency timeout s r f x)
  | ceased (hr : s.clock.refreshes = [])

/-- what every run comes to -/
structure Inv (launched frequency timeout : Nat) (s : Loop) : Prop where
  regular : Regular launched frequency timeout s.trace
  phase : Phase launched frequency timeout s

theorem Regular.snoc (h : Regular launched frequency timeout trace) (hhead : trace = [] → e.closes = false)
    (hfollows : ∀ p, trace.getLast? = some p → Follows timeout p (now, e))
    (hfirst : e.begins = true → starts trace = [] → now = Time.wake launched)
    (hspacing : e.begins = true → ∀ x, (starts trace).getLast? = some x → Apart frequency timeout x now) :
    Regular launched frequency timeout (trace ++ [(now, e)]) := by
  have hchain := h.follows.append (List.isChain_singleton (now, e)) fun p hp q hq => by
    obtain rfl : (now, e) = q := Option.some.inj hq
    exact hfollows p hp
  have hopens : ∀ p, (trace ++ [(now, e)]).head? = some p → p.2.closes = false := by
    intro p hp
    rw [List.head?_append] at hp
    cases hfront : trace.head? with
    | none =>
      rw [hfront, Option.none_or] at hp
      obtain rfl : (now, e) = p := Option.some.inj hp
      exact hhead (List.head?_eq_none_iff.1 hfront)
    | some p' =>
      rw [hfront, Option.some_or] at hp
      exact h.opens p (hfront.trans hp)
  cases hbegins : e.begins with
  | false =>
    have hsame : starts (trace ++ [(now, e)]) = starts trace := by
      rw [starts_snoc, hbegins]
      exact List.append_nil _
    exact ⟨hsame ▸ h.first, hopens, hchain, hsame ▸ h.spacing⟩
  | true =>
    have hone : starts (trace ++ [(now, e)]) = starts trace ++ [now] := by
      rw [starts_snoc, hbegins]
      rfl
    refine ⟨fun x hx => ?_, hopens, hchain, ?_⟩
    · rw [hone, List.head?_append] at hx
      cases hfront : (starts trace).head? with
      | none =>
        rw [hfront, Option.none_or] at hx
        exact (Option.some.inj hx).symm.trans (hfirst hbegins (List.head?_eq_none_iff.1 hfront))
      | some y =>
        rw [hfront, Option.some_or] at hx
        exact h.first x (hfront.trans hx)
    · rw [hone]
      refine h.spacing.append (List.isChain_singleton now) fun x hx y hy => ?_
      obtain rfl : now = y := Option.some.inj hy
      exact hspacing hbegins x hx

/-- a turn is not slept through -/
theorem Waits.wait {later : Nat} (h : Waits launched frequency timeout trace t now) (hlater : later ≤ max now t.wake) :
    Waits launched frequency timeout trace t later := by
  cases h with
  | first hnone hdue hnow => exact .first hnone hdue (by omega)
  | again x hlast htimely hnow => exact .again x hlast htimely (by omega)

/-- a turn is taken as its timer fires, unless a fetch could outlast the period -/
theorem Waits.unmissed (h : Waits launched frequency timeout trace t now) (hshort : timeout ≤ frequency) :
    now ≤ t.wake := by
  cases h with
  | first _ _ hnow => exact hnow
  | again x _ htimely hnow =>
    have hprompt := htimely.prompt hshort
    omega

/-- the first turn is taken as its timer fires -/
theorem Waits.opening (h : Waits launched frequency timeout trace t now) (hfired : t.wake ≤ now)
    (hnone : starts trace = []) : now = Time.wake launched := by
  cases h with
  | first _ hdue hnow =>
    rw [← hdue]
    exact Nat.le_antisymm hnow hfired
  | again x hlast =>
    rw [hnone] at hlast
    cases hlast

/-- a turn that is taken keeps its distance from the one before -/
theorem Waits.apart (h : Waits launched frequency timeout trace t now) (hfrequency : Time.Whole frequency)
    (htimeout : Time.Whole timeout) (hfired : t.wake ≤ now) (hlast : (starts trace).getLast? = some x) :
    Apart frequency timeout x now := by
  cases h with
  | first hnone =>
    rw [hnone] at hlast
    cases hlast
  | again y hlast' htimely hnow =>
    obtain rfl : x = y := Option.some.inj (hlast.symm.trans hlast')
    have hwake := htimely.wake_le hfrequency htimeout
    have hdue : t.due ≤ now := (Time.le_wake t.due).trans hfired
    have hearly := htimely.early
    unfold Time.Ticker.slack at hearly
    exact ⟨by omega, by omega⟩

section Step

variable (hfrequency : Time.Whole frequency) (htimeout : Time.Whole timeout)
include hfrequency htimeout

theorem Waiting.step {s' : Loop} (h : Waiting launched frequency timeout s r)
    (hregular : Regular launched frequency timeout s.trace) (heffect : Effect s r s') :
    Inv launched frequency timeout s' := by
  -- no fetch is under way that an event could close
  have hfollows : ∀ e : Event, e.closes = false →
      ∀ p, s.trace.getLast? = some p → Follows timeout p (s.clock.now, e) := by
    intro e hcloses p hp
    obtain ⟨hquiet, hbefore⟩ := h.last p hp
    exact ⟨hbefore, hcloses.trans hquiet.symm, fun hbegins => absurd (hquiet.symm.trans hbegins) Bool.false_ne_true⟩
  cases heffect with
  | quiet source now told hforward hwait htold =>
    have hdue : r.due = r.ticker.wake := by simp only [Refresh.due, h.idle]
    rw [hdue] at hwait
    have hlast : ∀ p, s.trace.getLast? = some p → p.2.begins = false ∧ p.1 ≤ now := by
      intro p hp
      exact ⟨(h.last p hp).1, (h.last p hp).2.trans hforward⟩
    exact ⟨hregular, .waiting r ⟨h.alone, h.limit, h.period, h.idle, hlast, h.waits.wait hwait⟩⟩
  | began _ hfired =>
    obtain ⟨hbegin, hends⟩ := Fetch.start_bounds s.clock.now r.limit s.clock.source.manner
    have hbegun : Regular launched frequency timeout (s.trace ++ [(s.clock.now, .began)]) := by
      apply hregular.snoc (fun _ => rfl) (hfollows .began rfl)
      · intro _ hnone
        exact h.waits.opening hfired hnone
      · intro _ x hx
        exact h.waits.apart hfrequency htimeout hfired hx
    have hstart : (starts (s.trace ++ [(s.clock.now, .began)])).getLast? = some s.clock.now := by
      rw [starts_snoc]
      exact List.getLast?_concat
    have htimely : Timely frequency timeout (r.ticker.advance s.clock.now) s.clock.now :=
      .turn h.period hfrequency hfired h.waits.unmissed
    let f := Fetch.start s.clock.now r.limit s.clock.source.manner
    refine ⟨hbegun, .fetching (r.begin s.clock.now s.clock.source.manner) f s.clock.now ?_⟩
    exact ⟨rfl, h.limit, h.period, rfl, List.getLast?_concat, hstart, htimely, h.limit ▸ hends, ⟨le_rfl, hbegin⟩⟩
  | ended f result hfetch =>
    rw [h.idle] at hfetch
    cases hfetch
  | stopped =>
    have hcloses : (Event.stopped r.fetch.isSome).closes = false := by
      rw [h.idle]
      rfl
    refine ⟨?_, .ceased rfl⟩
    apply hregular.snoc (fun _ => hcloses) (hfollows _ hcloses)
    · intro hbegins
      exact absurd hbegins Bool.false_ne_true
    · intro hbegins
      exact absurd hbegins Bool.false_ne_true

omit hfrequency htimeout in
theorem Fetching.step {s' : Loop} {f : Fetch} (h : Fetching frequency timeout s r f x)
    (hregular : Regular launched frequency timeout s.trace) (heffect : Effect s r s') :
    Inv launched frequency timeout s' := by
  have hlimit : s.clock.now ≤ x + timeout := h.now.2.trans h.ends
  -- what follows on the start of a fetch is its end
  have hclose : ∀ e : Event, e.begins = false → e.closes = true →
      Regular launched frequency timeout (s.trace ++ [(s.clock.now, e)]) := by
    intro e hbegins hcloses
    apply hregular.snoc
    · intro hnil
      have hlast := h.last
      rw [hnil] at hlast
      cases hlast
    · intro p hp
      obtain rfl : (x, .began) = p := Option.some.inj (h.last.symm.trans hp)
      exact ⟨h.now.1, hcloses, fun _ => hlimit⟩
    · intro hbegins'
      exact absurd (hbegins.symm.trans hbegins') Bool.false_ne_true
    · intro hbegins'
      exact absurd (hbegins.symm.trans hbegins') Bool.false_ne_true
  cases heffect with
  | quiet source now told hforward hwait htold =>
    have hdue : r.due = f.ends := by simp only [Refresh.due, h.busy]
    rw [hdue, Nat.max_eq_right h.now.2] at hwait
    exact ⟨hregular, .fetching r f x ⟨h.alone, h.limit, h.period, h.busy, h.last, h.start, h.timely, h.ends,
      ⟨h.now.1.trans hforward, hwait⟩⟩⟩
  | began hidle =>
    rw [h.busy] at hidle
    cases hidle
  | ended _ result _ _ =>
    have hsame : starts (s.trace ++ [(s.clock.now, .ended result)]) = starts s.trace := by
      rw [starts_snoc]
      exact List.append_nil _
    have hlast : ∀ p, (s.trace ++ [(s.clock.now, Event.ended result)]).getLast? = some p →
        p.2.begins = false ∧ p.1 ≤ s.clock.now := by
      intro p hp
      rw [List.getLast?_concat] at hp
      obtain rfl := Option.some.inj hp
      exact ⟨rfl, le_rfl⟩
    refine ⟨hclose (.ended result) rfl rfl, .waiting r.finish ⟨rfl, h.limit, h.period, rfl, hlast, ?_⟩⟩
    exact .again x (hsame ▸ h.start) h.timely (hlimit.trans (Nat.le_max_right _ _))
  | stopped =>
    have hcloses : (Event.stopped r.fetch.isSome).closes = true := by
      rw [h.busy]
      rfl
    exact ⟨hclose _ rfl hcloses, .ceased rfl⟩

theorem Inv.step (h : Inv launched frequency timeout s) (o : Op) : Inv launched frequency timeout (s.step o) := by
  cases h.phase with
  | waiting r hwaiting => exact hwaiting.step hfrequency htimeout h.regular (step_effect hwaiting.alone o)
  | fetching r f x hfetching => exact hfetching.step h.regular (step_effect hfetching.alone o)
  | ceased hr =>
    obtain ⟨source, now, told, -, hstep⟩ := step_over hr o
    rw [hstep]
    exact ⟨h.regular, .ceased hr⟩

theorem inv_run (clock : AllowlistClock) (hpos : 0 < frequency) (ops : List Op) :
    Inv clock.now frequency timeout ((launch clock frequency timeout).run ops) := by
  induction ops using List.reverseRecOn with
  | nil =>
    have hperiod : max 1 frequency = frequency := Nat.max_eq_right hpos
    have hregular : Regular clock.now frequency timeout [] :=
      ⟨fun _ hx => (nomatch hx), fun _ hp => (nomatch hp), List.isChain_nil, List.isChain_nil⟩
    refine ⟨hregular, .waiting (.start clock.now frequency timeout) ?_⟩
    exact ⟨rfl, rfl, hperiod, rfl, fun _ hp => (nomatch hp), .first rfl rfl (Time.le_wake clock.now)⟩
  | append_singleton ops o ih =>
    rw [run_snoc]
    exact ih.step hfrequency htimeout o

end Step

end Loop

end Allowlist

end QuorumGateway
