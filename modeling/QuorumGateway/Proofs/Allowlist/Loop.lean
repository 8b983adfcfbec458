import QuorumGateway.Proofs.Gateway.Deadlines
import QuorumGateway.Simulation.Allowlist
/-!
A repeated refresh of an allow-list on its own, step by step, from its launch to its end. The source changes as it
likes, in what it lists and in how it answers, so each fetch may go in a manner of its own. Time passes only while the
refresh waits, for its timer or for its fetch: neither a turn nor the end of a fetch is slept through, and neither is
the news that it is to end.

- `step_effect`: what can happen in one step while the refresh runs.
- `exists_started`, `exists_advanced`, `run_shutDown`: an allow-list on the virtual clock that has one refresh keeps to
  these runs, so they reach any instant.
-/

namespace QuorumGateway.Allowlist

open Simulation (AllowlistClock)

/-! ## Runs -/

/-- what can be seen of a repeated refresh -/
inductive Loop.Event where
  | began
  | ended (result : Except Failure Snapshot)
  /-- the refresh itself has ended, and its fetch with it if one was under way -/
  | stopped (abandoned : Bool)

/-- an allow-list with a repeated refresh, as long as that has not ended; whether it has been told to end; and what has
been seen of it, with the instants -/
structure Loop where
  clock : AllowlistClock
  told : Bool
  trace : List (Nat × Loop.Event)

namespace Loop

def Event.begins : Event → Bool
  | .began => true
  | _ => false

/-- whether a fetch that was under way is not any more -/
def Event.closes : Event → Bool
  | .began => false
  | .ended _ => true
  | .stopped abandoned => abandoned

def Event.result? : Event → Option (Except Failure Snapshot)
  | .ended result => some result
  | _ => none

inductive Op where
  /-- the source changes, in what it lists or in how it answers -/
  | change (source : Source)
  /-- the refresh does its next step, if that is due -/
  | act
  /-- the refresh is told to end -/
  | tell
  /-- the refresh finds that it has been told to end, and does -/
  | quit
  /-- time passes, but not beyond the next step of the refresh -/
  | pass (later : Nat)
deriving Repr

/-- a refresh started on an allow-list -/
def launch (clock : AllowlistClock) (frequency timeout : Nat) : Loop :=
  ⟨{ clock with refreshes := [.start clock.now frequency timeout] }, false, []⟩

/-- what is seen of the next step of a refresh -/
def next (clock : AllowlistClock) (r : Refresh) : Event :=
  match r.fetch with
  | none => .began
  | some f => .ended (f.result clock.contract r.limit clock.source)

def step (s : Loop) : Op → Loop
  | .change source => { s with clock := { s.clock with source } }
  | .act =>
    match s.clock.refreshes with
    | [] => s
    | r :: _ =>
      if r.due ≤ s.clock.now then
        { s with clock := s.clock.stepAt r.due 0, trace := s.trace ++ [(s.clock.now, next s.clock r)] }
      else s
  | .tell => { s with told := true }
  | .quit =>
    match s.clock.refreshes with
    | [] => s
    | r :: _ =>
      if s.told then
        { s with clock := s.clock.shutDown, trace := s.trace ++ [(s.clock.now, .stopped r.fetch.isSome)] }
      else s
  | .pass later =>
    match s.clock.refreshes with
    | [] => { s with clock := { s.clock with now := max s.clock.now later } }
    | r :: _ =>
      if s.told then s else { s with clock := { s.clock with now := max s.clock.now (min later r.due) } }

def run (s : Loop) (ops : List Op) : Loop := ops.foldl step s

theorem run_append (s : Loop) (a b : List Op) : s.run (a ++ b) = (s.run a).run b := List.foldl_append

theorem run_snoc (s : Loop) (ops : List Op) (o : Op) : s.run (ops ++ [o]) = (s.run ops).step o := run_append s ops [o]

/-! ## What one step does -/

/-- what a step can do while the refresh runs -/
inductive Effect (s : Loop) (r : Refresh) : Loop → Prop where
  /-- the source changes, time passes or the refresh is told to end; no time passes when it has been told -/
  | quiet (source : Source) (now : Nat) (told : Bool) (hforward : s.clock.now ≤ now)
    (hwait : now ≤ max s.clock.now r.due) (htold : s.told = true → told = true ∧ now = s.clock.now) :
    Effect s r { s with clock := { s.clock with source, now }, told }
  | began (hidle : r.fetch = none) (hfired : r.ticker.wake ≤ s.clock.now) :
    Effect s r
      { s with
        clock :=
          { s.clock with fetches := s.clock.fetches + 1, refreshes := [r.begin s.clock.now s.clock.source.manner] }
        trace := s.trace ++ [(s.clock.now, .began)] }
  | ended (f : Fetch) (result : Except Failure Snapshot) (hfetch : r.fetch = some f) (hdone : f.ends ≤ s.clock.now) :
    Effect s r
      { s with
        clock :=
          { s.clock with
            snapshot := s.clock.snapshot.after result
            metrics := s.clock.metrics.refresh (result.toOption.map Snapshot.size)
            refreshes := [r.finish] }
        trace := s.trace ++ [(s.clock.now, .ended result)] }
  | stopped (htold : s.told = true) :
    Effect s r { s with clock := s.clock.shutDown, trace := s.trace ++ [(s.clock.now, .stopped r.fetch.isSome)] }

variable {s : Loop} {r : Refresh}

/-- a step of the refresh on the clock, once it is due -/
theorem stepAt_due (hr : s.clock.refreshes = [r]) (hdue : r.due ≤ s.clock.now) :
    s.clock.stepAt r.due 0 =
      { (AllowlistClock.stepRefresh s.clock r).1 with refreshes := [(AllowlistClock.stepRefresh s.clock r).2] } := by
  have hnow : max s.clock.now r.due = s.clock.now := Nat.max_eq_left hdue
  simp only [AllowlistClock.stepAt, hnow, hr, List.getElem?_cons_zero]
  cases hfetch : r.fetch with
  | none => simp only [AllowlistClock.stepRefresh, hfetch, hr, List.set_cons_zero]
  | some f => simp only [AllowlistClock.stepRefresh, hfetch, hr, List.set_cons_zero]

theorem act_effect (hr : s.clock.refreshes = [r]) : Effect s r (s.step .act) := by
  simp only [step, hr]
  split_ifs with hdue
  · rw [stepAt_due hr hdue]
    unfold Refresh.due at hdue
    cases hfetch : r.fetch with
    | none =>
      simp only [hfetch] at hdue
      simp only [AllowlistClock.stepRefresh, next, hfetch]
      exact .began hfetch hdue
    | some f =>
      simp only [hfetch] at hdue
      simp only [AllowlistClock.stepRefresh, next, hfetch]
      exact .ended f _ hfetch hdue
  · exact .quiet s.clock.source s.clock.now s.told (Nat.le_refl _) (Nat.le_max_left _ _) fun htold => ⟨htold, rfl⟩

/-- **What one step does** while the refresh runs -/
theorem step_effect (hr : s.clock.refreshes = [r]) (o : Op) : Effect s r (s.step o) := by
  have hstill : ∀ source told, (s.told = true → told = true) →
      Effect s r { s with clock := { s.clock with source }, told } := fun source told htold =>
    .quiet source s.clock.now told (Nat.le_refl _) (Nat.le_max_left _ _) fun h => ⟨htold h, rfl⟩
  cases o with
  | change source => exact hstill source s.told id
  | act => exact act_effect hr
  | tell => exact hstill s.clock.source true fun _ => rfl
  | quit =>
    simp only [step, hr]
    split_ifs with htold
    · exact .stopped htold
    · exact hstill s.clock.source s.told id
  | pass later =>
    have hstep : s.step (.pass later) =
        if s.told then s else { s with clock := { s.clock with now := max s.clock.now (min later r.due) } } := by
      simp only [step, hr]
    rw [hstep]
    split_ifs with htold
    · exact hstill s.clock.source s.told id
    · have hwait : max s.clock.now (min later r.due) ≤ max s.clock.now r.due := by omega
      exact .quiet s.clock.source _ s.told (Nat.le_max_left _ _) hwait fun h => absurd h htold

/-- what a step can do once the refresh has ended -/
theorem step_over (hr : s.clock.refreshes = []) (o : Op) :
    ∃ source now told, s.clock.now ≤ now ∧ s.step o = { s with clock := { s.clock with source, now }, told } := by
  cases o with
  | change source => exact ⟨source, s.clock.now, s.told, Nat.le_refl _, rfl⟩
  | tell => exact ⟨s.clock.source, s.clock.now, true, Nat.le_refl _, rfl⟩
  | pass later =>
    refine ⟨s.clock.source, max s.clock.now later, s.told, Nat.le_max_left _ _, ?_⟩
    simp only [step, hr]
  | act =>
    have hstill : s.step .act = s := by simp only [step, hr]
    exact ⟨s.clock.source, s.clock.now, s.told, Nat.le_refl _, hstill⟩
  | quit =>
    have hstill : s.step .quit = s := by simp only [step, hr]
    exact ⟨s.clock.source, s.clock.now, s.told, Nat.le_refl _, hstill⟩

/-! ## The virtual clock -/

/-- a bound on the steps that a refresh has yet to do up to an instant -/
def work (target : Nat) (r : Refresh) : Nat := 2 * (target + 1 - r.ticker.due) + r.fetch.isSome.toNat

variable {target : Nat}

theorem lt_due_of_work (h : work target r = 0) : target < r.due := by
  unfold work at h
  have hwake : r.ticker.due ≤ r.ticker.wake := Time.le_wake r.ticker.due
  cases hfetch : r.fetch with
  | none =>
    simp only [Refresh.due, hfetch]
    omega
  | some f =>
    rw [hfetch, Option.isSome_some, Bool.toNat_true] at h
    omega

/-- each step leaves less to do -/
theorem work_step (clock : AllowlistClock) (hdue : r.due ≤ target) :
    work target (AllowlistClock.stepRefresh clock r).2 < work target r := by
  unfold work
  cases hfetch : r.fetch with
  | none =>
    have hwake : r.ticker.due ≤ r.ticker.wake := Time.le_wake r.ticker.due
    have hlater := r.ticker.due_lt_due_advance clock.now
    simp only [Refresh.due, hfetch] at hdue
    simp only [AllowlistClock.stepRefresh, hfetch, Refresh.begin, Option.isSome_some, Option.isSome_none,
      Bool.toNat_true, Bool.toNat_false]
    omega
  | some f =>
    simp only [AllowlistClock.stepRefresh, hfetch, Refresh.finish, Option.isSome_some, Option.isSome_none,
      Bool.toNat_true, Bool.toNat_false]
    omega

theorem step_act (hr : s.clock.refreshes = [r]) (hdue : r.due ≤ s.clock.now) :
    (s.step .act).clock = s.clock.stepAt r.due 0 ∧ (s.step .act).told = s.told := by
  have hstep : s.step .act =
      { s with clock := s.clock.stepAt r.due 0, trace := s.trace ++ [(s.clock.now, next s.clock r)] } := by
    simp only [step, hr, if_pos hdue]
  rw [hstep]
  exact ⟨rfl, rfl⟩

/-- the next step on the virtual clock, whenever it is due -/
theorem run_due (hr : s.clock.refreshes = [r]) (htold : s.told = false) :
    (s.run [.pass r.due, .act]).clock = s.clock.stepAt r.due 0 ∧ (s.run [.pass r.due, .act]).told = false := by
  have hpass : s.step (.pass r.due) = { s with clock := { s.clock with now := max s.clock.now r.due } } := by
    simp only [step, hr, htold, Bool.false_eq_true, if_false, Nat.min_self]
  have hdue : r.due ≤ max s.clock.now r.due := Nat.le_max_right _ _
  obtain ⟨hclock, htold'⟩ := @step_act { s with clock := { s.clock with now := max s.clock.now r.due } } r hr hdue
  have hrun : s.run [.pass r.due, .act] = (s.step (.pass r.due)).step .act := rfl
  rw [hrun, hpass]
  refine ⟨hclock.trans ?_, htold'.trans htold⟩
  simp only [AllowlistClock.stepAt, Nat.max_eq_left hdue]

/-- what the virtual clock does up to an instant is a run -/
theorem exists_settled (fuel : Nat) (hr : s.clock.refreshes = [r]) (htold : s.told = false)
    (hfuel : work target r ≤ fuel) :
    ∃ ops r', (s.run ops).clock = AllowlistClock.settle fuel target s.clock ∧ (s.run ops).told = false ∧
      (s.run ops).clock.refreshes = [r'] ∧ target < r'.due := by
  induction fuel generalizing s r with
  | zero => exact ⟨[], r, rfl, htold, hr, lt_due_of_work (Nat.le_zero.1 hfuel)⟩
  | succ fuel ih =>
    have hfirst : AllowlistClock.firstDue 0 s.clock.refreshes = some (r.due, 0) := by rw [hr]; rfl
    rw [AllowlistClock.settle, hfirst]
    simp only
    split_ifs with hdue
    · obtain ⟨hclock, htold'⟩ := run_due hr htold
      have hnext : (s.run [.pass r.due, .act]).clock.refreshes =
          [(AllowlistClock.stepRefresh { s.clock with now := max s.clock.now r.due } r).2] := by
        rw [hclock]
        simp only [AllowlistClock.stepAt, hr, List.getElem?_cons_zero]
        cases hfetch : r.fetch <;> simp only [AllowlistClock.stepRefresh, hfetch, List.set_cons_zero]
      have hless := work_step { s.clock with now := max s.clock.now r.due } hdue
      obtain ⟨ops, r', hsettled, hrest⟩ := ih hnext htold' (by omega)
      rw [← run_append] at hsettled hrest
      exact ⟨[.pass r.due, .act] ++ ops, r', by rw [hsettled, hclock], hrest⟩
    · exact ⟨[], r, rfl, htold, hr, Nat.lt_of_not_le hdue⟩

/-- **The virtual clock keeps to these runs**, so time can come to any instant while the refresh keeps up -/
theorem exists_advanced (hr : s.clock.refreshes = [r]) (htold : s.told = false) (target : Nat) :
    ∃ ops r', (s.run ops).clock = s.clock.advanceTo target ∧ (s.run ops).told = false ∧
      (s.run ops).clock.refreshes = [r'] ∧ target ≤ (s.run ops).clock.now := by
  have hfuel : work target r ≤ AllowlistClock.stepBound target s.clock.refreshes := by
    rw [hr, AllowlistClock.stepBound, List.map_singleton, List.sum_singleton, work]
    exact Nat.add_le_add_left (Bool.toNat_le _) _
  obtain ⟨ops, r', hsettled, htold', hr', hlater⟩ := exists_settled _ hr htold hfuel
  have hpass : (s.run ops).step (.pass target) =
      { s.run ops with clock := { (s.run ops).clock with now := max (s.run ops).clock.now target } } := by
    simp only [step, hr', htold', Bool.false_eq_true, if_false, Nat.min_eq_left (Nat.le_of_lt hlater)]
  refine ⟨ops ++ [.pass target], r', ?_, ?_, ?_, ?_⟩
  all_goals rw [run_snoc, hpass]
  · rw [AllowlistClock.advanceTo, ← hsettled]
  · exact htold'
  · exact hr'
  · exact Nat.le_max_right _ _

/-- so does its start on an allow-list without other refreshes -/
theorem exists_started {clock : AllowlistClock} (halone : clock.refreshes = []) (frequency timeout : Nat) :
    ∃ ops r, ((launch clock frequency timeout).run ops).clock = clock.startRefresh frequency timeout ∧
      ((launch clock frequency timeout).run ops).told = false ∧
      ((launch clock frequency timeout).run ops).clock.refreshes = [r] := by
  obtain ⟨ops, r, hclock, htold, hr, -⟩ :=
    @exists_advanced (launch clock frequency timeout) (.start clock.now frequency timeout) rfl rfl clock.now
  refine ⟨ops, r, ?_, htold, hr⟩
  rw [hclock, AllowlistClock.startRefresh, halone]
  rfl

/-- and its end -/
theorem run_shutDown (hr : s.clock.refreshes = [r]) : (s.run [.tell, .quit]).clock = s.clock.shutDown := by
  have hquit : (s.run [.tell, .quit]).clock = (({ s with told := true } : Loop).step .quit).clock := rfl
  rw [hquit]
  simp only [step, hr, if_true]

end Loop

end QuorumGateway.Allowlist
