import QuorumGateway.Proofs.Pending.Shadow
/-!
Senders who share a table, and callbacks whose receivers are gone.

- `undisturbed`: receivers dropped along a run change no answer, and nothing that the other receivers hear.
- `senders_isolated`: with no cap on all requests together, two runs in which the same operations concern a sender look
  the same to it, and dropped receivers change neither answers nor what becomes of other callbacks.
-/

namespace QuorumGateway.Simulation.Isolation

open Pending

/-! ## Dropped receivers -/

section Drops

variable {gone : List ℕ} {s : PendingClock}

/-- a clock with other receivers waiting -/
def hearing (s : PendingClock) (waiting : List ℕ) : PendingClock :=
  { s with receivers := { s.receivers with waiting } }

/-- only a drop looks at which receivers wait -/
theorem act_hearing (s : PendingClock) {o : Op} (hstays : o.isDrop = false) :
    ∃ opened, ∀ waiting, act (hearing s waiting) o = (hearing (act s o).1 (waiting ++ opened), (act s o).2) := by
  cases o with
  | register key deadline =>
    refine ⟨[s.receivers.opened], fun waiting => ?_⟩
    simp only [act, PendingClock.register, hearing]
    cases s.table.register s.limits key s.receivers.opened deadline <;> rfl
  | evict key =>
    refine ⟨[], fun waiting => ?_⟩
    simp only [act, PendingClock.evict, hearing, List.append_nil]
    rcases s.table.evict key with ⟨table, _ | e⟩ <;> rfl
  | record | expire | failAll => exact ⟨[], fun waiting => by rw [List.append_nil]; rfl⟩
  | drop callback => exact absurd hstays.symm Bool.false_ne_true

theorem told_filter (p : ℕ → Bool) (waiting : List ℕ) (fates : List (ℕ × Fate)) :
    (told waiting fates).filter (fun f => p f.1) = told (waiting.filter p) fates := by
  simp only [told, List.filter_filterMap, List.filterMap_filter]
  refine List.filterMap_congr fun c _ => ?_
  cases fates.find? fun f => f.1 == c <;> by_cases hp : p c <;> simp [hp]

/-- receivers in `gone` that wait or not make no difference to what the others hear -/
theorem report_hearing {waiting : List ℕ}
    (hothers : waiting.filter (· ∉ gone) = s.receivers.waiting.filter (· ∉ gone)) :
    ∃ left, (hearing s waiting).report.1 = hearing s.report.1 left ∧
      left.filter (· ∉ gone) = s.report.1.receivers.waiting.filter (· ∉ gone) ∧
      (hearing s waiting).report.2.filter (fun f => f.1 ∉ gone) = s.report.2.filter fun f => f.1 ∉ gone := by
  refine ⟨waiting.filter fun c => !s.fates.any (·.1 == c), ?_, ?_, ?_⟩ <;> simp only [report_eq]
  · rfl
  · rw [List.filter_comm, hothers, List.filter_comm]
  · calc (told waiting s.fates).filter (fun f => f.1 ∉ gone) = told (waiting.filter (· ∉ gone)) s.fates :=
          told_filter (· ∉ gone) waiting s.fates
      _ = told (s.receivers.waiting.filter (· ∉ gone)) s.fates := by rw [hothers]
      _ = (told s.receivers.waiting s.fates).filter fun f => f.1 ∉ gone := (told_filter (· ∉ gone) _ _).symm

theorem Op.isDrop_iff {o : Op} : o.isDrop = true ↔ ∃ c, o = .drop c := by
  cases o <;> simp [Op.isDrop]

/-- a drop tells nothing -/
theorem turn_drop (hquiet : s.fates = []) (c : ℕ) :
    turn s (.drop c) =
      (hearing s (s.receivers.waiting.filter (· ≠ c)), ⟨.drop c, .dropped (s.receivers.waiting.contains c), []⟩) := by
  have hreport : (act s (.drop c)).1.report = ((act s (.drop c)).1, []) := report_of_quiet hquiet
  rw [turn, hreport]
  rfl

/-- receivers dropped along a run change no answer, and nothing that the others hear -/
theorem trace_hearing {ops : List Op} (hgone : ∀ c ∈ ops.filterMap Op.drops?, c ∈ gone) (waiting : List ℕ)
    (hothers : waiting.filter (· ∉ gone) = s.receivers.waiting.filter (· ∉ gone)) (hquiet : s.fates = []) :
    ((trace (hearing s waiting) ops).filter fun t => !t.op.isDrop).map (Turn.without gone) =
      (trace s (ops.filter fun o => !o.isDrop)).map (Turn.without gone) := by
  induction ops generalizing s waiting with
  | nil => rfl
  | cons o ops ih =>
    rw [List.filterMap_cons] at hgone
    cases hdrop : o.isDrop with
    | true =>
      obtain ⟨c, rfl⟩ := Op.isDrop_iff.1 hdrop
      obtain ⟨hc, hops⟩ := List.forall_mem_cons.1 hgone
      have hothers' : (waiting.filter (· ≠ c)).filter (· ∉ gone) = s.receivers.waiting.filter (· ∉ gone) := by
        rw [← hothers, List.filter_filter]
        refine List.filter_congr fun d _ => ?_
        by_cases hd : d = c <;> simp [hd, hc]
      rw [trace, turn_drop (s := hearing s waiting) hquiet]
      exact ih hops _ hothers' hquiet
    | false =>
      have hops : ∀ c ∈ ops.filterMap Op.drops?, c ∈ gone := by
        cases o <;> first | exact hgone | exact absurd hdrop.symm Bool.false_ne_true
      obtain ⟨opened, hact⟩ := act_hearing s hdrop
      -- the operation opens the same callbacks on both clocks
      have hopened : (act s o).1.receivers.waiting = s.receivers.waiting ++ opened :=
        congrArg (fun r => r.1.receivers.waiting) (hact s.receivers.waiting)
      have hafter : (waiting ++ opened).filter (· ∉ gone) = (act s o).1.receivers.waiting.filter (· ∉ gone) := by
        rw [hopened, List.filter_append, List.filter_append, hothers]
      obtain ⟨left, hreport, hleft, htold⟩ := report_hearing hafter
      have hturn : (turn (hearing s waiting) o).2.without gone = (turn s o).2.without gone := by
        simp only [turn, hact, Turn.without, htold]
      have hnext : (turn (hearing s waiting) o).1 = hearing (turn s o).1 left := by
        simp only [turn, hact, hreport]
      have hstays : (o :: ops).filter (fun o => !o.isDrop) = o :: ops.filter fun o => !o.isDrop :=
        List.filter_cons_of_pos (by rw [hdrop]; rfl)
      rw [hstays, trace, trace, List.filter_cons_of_pos (by rw [turn, hdrop]; rfl), List.map_cons, List.map_cons, hturn,
        hnext, ih (s := (turn s o).1) hops left hleft rfl]

theorem fates_of_drop {ops : List Op} (hquiet : s.fates = []) :
    ∀ t ∈ trace s ops, t.op.isDrop = true → t.fates = [] := by
  induction ops generalizing s with
  | nil => exact fun t ht => absurd ht List.not_mem_nil
  | cons o ops ih =>
    refine List.forall_mem_cons.2 ⟨fun hdrop => ?_, ih rfl⟩
    obtain ⟨c, hc⟩ := Op.isDrop_iff.1 hdrop
    obtain rfl : o = .drop c := hc
    rw [turn_drop hquiet]

/-- **Dropped receivers do not count**: they change no answer, and nothing that the other receivers hear -/
theorem undisturbed (q : Quorum) (limits : Limits) (ops : List Op) : Undisturbed q limits ops :=
  ⟨trace_hearing (s := .start q limits) (fun _ hc => hc) [] rfl rfl, fates_of_drop rfl⟩

end Drops

/-! ## Isolation -/

/-- **Senders are isolated**: with no cap on all requests together, a sender sees the same of all runs in which the same
operations concern it; and under any caps, dropped receivers change neither answers nor what other receivers hear -/
theorem senders_isolated (q : Quorum) {limits : Limits} (hglobal : limits.global = 0) (sender : String)
    {ops ops' : List Op} (hstays : ∀ o ∈ ops, o.isDrop = false) (hstays' : ∀ o ∈ ops', o.isDrop = false)
    (hsame : ops.filter (Op.concerns sender) = ops'.filter (Op.concerns sender)) :
    view q limits sender ops = view q limits sender ops' ∧ ∀ caps run, Undisturbed q caps run := by
  refine ⟨?_, undisturbed q⟩
  rw [view_eq q hglobal sender hstays, view_eq q hglobal sender hstays', hsame]

/-- a sender with one open request at a time, which is alone -/
def aloneRun : List Op :=
  [.register ⟨"a", "1"⟩ 3, .register ⟨"a", "2"⟩ 3, .evict ⟨"a", "1"⟩, .register ⟨"a", "2"⟩ 5, .expire 9]

/-- the same, while another sender comes and goes -/
def crowdedRun : List Op :=
  [.register ⟨"b", "1"⟩ 1, .register ⟨"a", "1"⟩ 3, .register ⟨"b", "2"⟩ 1, .register ⟨"a", "2"⟩ 3, .evict ⟨"a", "1"⟩,
    .evict ⟨"b", "1"⟩, .register ⟨"a", "2"⟩ 5, .register ⟨"b", "2"⟩ 7, .expire 9]

/-- the second request is refused while the first is open, which is evicted; then it runs into its deadline -/
example :
    let late := Reply.failure .requestTimeoutError "request timed out with 0 of 2 required responses"
    view ⟨3, 1⟩ ⟨0, 1⟩ "a" crowdedRun =
      [⟨some (.registered (.ok ())), []⟩,
        ⟨some (.registered (.error (.tooManyPending .perSender 1))), [(1, .closed)]⟩,
        ⟨some (.evicted true), [(0, .closed)]⟩, ⟨some (.registered (.ok ())), []⟩, ⟨none, [(2, .delivered late)]⟩] := by
  rfl

theorem senders_isolated_crowded :
    (∀ o ∈ aloneRun, o.isDrop = false) ∧ (∀ o ∈ crowdedRun, o.isDrop = false) ∧
      aloneRun.filter (Op.concerns "a") = crowdedRun.filter (Op.concerns "a") ∧
      view ⟨3, 1⟩ ⟨0, 1⟩ "a" aloneRun = view ⟨3, 1⟩ ⟨0, 1⟩ "a" crowdedRun ∧
      ∀ caps run, Undisturbed ⟨3, 1⟩ caps run := by
  have hstays : ∀ o ∈ aloneRun, o.isDrop = false := by simp [aloneRun, Op.isDrop]
  have hstays' : ∀ o ∈ crowdedRun, o.isDrop = false := by simp [crowdedRun, Op.isDrop]
  have hsame : aloneRun.filter (Op.concerns "a") = crowdedRun.filter (Op.concerns "a") := rfl
  exact ⟨hstays, hstays', hsame, senders_isolated ⟨3, 1⟩ rfl "a" hstays hstays' hsame⟩

end QuorumGateway.Simulation.Isolation
