import QuorumGateway.Proofs.Outcome
import QuorumGateway.Proofs.RateLimit.Buckets
/-!
How many calls come through in a window of time. A token that is taken puts off the instant at which its budget will be
full by a period at least, counted from the beginning of the window on, and no token is taken once that instant lies a
whole burst ahead; so a window holds as many tokens as the burst and those that are refilled while it lasts
(`Spending.count_le`). Calls that are refused in between spend nothing, and a budget that has been idle is full and no
more, so it does not matter where in a run the window lies, nor in which order the instants come.

- `window_bound`: the bound for the calls of each caller that are admitted, and for all calls that draw a common token.
-/

namespace QuorumGateway.RateLimit

/-- a window that begins at an instant and lasts for a while, with both ends -/
def within (start span instant : ℕ) : Bool := start ≤ instant && instant ≤ start + span

/-! ## One budget -/

/-- uses of a budget that will be full at an instant: each either takes a token or leaves the budget as it is -/
inductive Spending (q : Quota) : ℕ → List (Bool × ℕ) → Prop where
  | nil (full : ℕ) : Spending q full []
  | left {full : ℕ} (now : ℕ) {uses : List (Bool × ℕ)} (hrest : Spending q full uses) :
    Spending q full ((false, now) :: uses)
  | taken {full full' now : ℕ} {uses : List (Bool × ℕ)} (htake : q.take? full now = some full')
    (hrest : Spending q full' uses) : Spending q full ((true, now) :: uses)

/-- the number of tokens taken in a window -/
def tokens (start span : ℕ) (uses : List (Bool × ℕ)) : ℕ := uses.countP fun u => u.1 && within start span u.2

namespace Spending

variable {q : Quota} {full start span : ℕ} {uses : List (Bool × ℕ)}

theorem take?_eq_some_iff {q : Quota} {full full' now : ℕ} :
    q.take? full now = some full' ↔ full ≤ now + q.period * (q.burst - 1) ∧ full' = max full now + q.period := by
  unfold Quota.take?
  split_ifs with hlack
  · rw [false_iff]
    omega
  · rw [Option.some.injEq, eq_comm]
    exact ⟨fun h => ⟨by omega, h⟩, fun h => h.2⟩

/-- tokens are taken in a window as long as the budget, put off by a period for each, is not a burst ahead of its end -/
theorem put_off (h : Spending q full uses) (start span : ℕ) :
    tokens start span uses = 0 ∨
      max full start + tokens start span uses * q.period ≤ start + span + q.period * q.burst := by
  have hburst : q.period * q.burst = q.period * (q.burst - 1) + q.period := by
    rw [← Nat.mul_succ, Nat.succ_eq_add_one, Nat.sub_add_cancel q.burst_pos]
  induction h with
  | nil => exact .inl rfl
  | left now hrest ih =>
    have hsame : ∀ uses, tokens start span ((false, now) :: uses) = tokens start span uses := fun uses => by
      rw [tokens, List.countP_cons_of_neg (by simp), tokens]
    rwa [hsame]
  | @taken full full' now uses htake hrest ih =>
    obtain ⟨hleft, rfl⟩ := take?_eq_some_iff.1 htake
    by_cases hin : within start span now
    · have hmore : tokens start span ((true, now) :: uses) = tokens start span uses + 1 := by
        rw [tokens, List.countP_cons_of_pos (by simpa using hin), tokens]
      obtain ⟨hstart, hend⟩ : start ≤ now ∧ now ≤ start + span := by simpa [within] using hin
      rw [hmore, Nat.add_mul, Nat.one_mul]
      right
      rcases ih with hlast | hnext
      · rw [hlast, Nat.zero_mul]
        omega
      · omega
    · have hsame : tokens start span ((true, now) :: uses) = tokens start span uses := by
        rw [tokens, List.countP_cons_of_neg (by simpa using hin), tokens]
      rw [hsame]
      exact ih.imp_right fun hnext => by omega

/-- **The tokens of a window** -/
theorem count_le (h : Spending q full uses) (start span : ℕ) :
    tokens start span uses ≤ q.burst + span / q.period := by
  rcases h.put_off start span with hnone | hsome
  · rw [hnone]
    exact Nat.zero_le _
  · have hle : tokens start span uses * q.period ≤ span + q.period * q.burst := by omega
    calc tokens start span uses ≤ (span + q.period * q.burst) / q.period := (Nat.le_div_iff_mul_le q.period_pos).2 hle
      _ = q.burst + span / q.period := by rw [Nat.add_mul_div_left span q.burst q.period_pos, Nat.add_comm]

end Spending

/-! ## Both levels -/

/-- a call as it was answered: whether it drew a token of the common budget, and whether it was admitted -/
structure Answered where
  user : String
  instant : ℕ
  passed : Bool
  admitted : Bool
deriving DecidableEq, Repr

namespace Limiter

/-- a sequence of calls as they are answered -/
def log (l : Limiter) : List (String × ℕ) → List Answered
  | [] => []
  | (user, now) :: calls =>
    ⟨user, now, (l.globalQuota.take? l.global now).isSome, (l.allow user now).1⟩ :: log (l.allow user now).2 calls

/-- the calls and their answers are what is logged -/
theorem log_answers (l : Limiter) (calls : List (String × ℕ)) :
    (l.log calls).map (fun c => (c.user, c.instant)) = calls ∧
      (l.log calls).map Answered.admitted = (l.answers calls).map Prod.fst := by
  induction calls generalizing l with
  | nil => exact ⟨rfl, rfl⟩
  | cons c calls ih =>
    obtain ⟨hcalls, hadmitted⟩ := ih (l.allow c.1 c.2).2
    exact ⟨congrArg (c :: ·) hcalls, congrArg ((l.allow c.1 c.2).1 :: ·) hadmitted⟩

/-- what a call does to the budgets: nothing, when the common one has no token; or it takes a common token, and then
leaves the caller's own budget as it is or takes a token of it too -/
theorem allow_takes (l : Limiter) (user : String) (now : ℕ) :
    (l.globalQuota.take? l.global now = none ∧ l.allow user now = (false, l)) ∨
    ∃ global, l.globalQuota.take? l.global now = some global ∧
      (l.allow user now = (false, { l with global }) ∨
        ∃ full, l.userQuota.take? (fullAt user l.users) now = some full ∧
          l.allow user now = (true, { l with global, users := put user full l.users })) := by
  unfold allow
  cases l.globalQuota.take? l.global now with
  | none => exact .inl ⟨rfl, rfl⟩
  | some global =>
    refine .inr ⟨global, rfl, ?_⟩
    cases l.userQuota.take? (fullAt user l.users) now with
    | none => exact .inl rfl
    | some full => exact .inr ⟨full, rfl, rfl⟩

variable {l : Limiter} {calls : List (String × ℕ)}

/-- the common budget is spent by the calls that pass it -/
theorem spending_common (l : Limiter) (calls : List (String × ℕ)) :
    Spending l.globalQuota l.global ((l.log calls).map fun c => (c.passed, c.instant)) := by
  induction calls generalizing l with
  | nil => exact .nil _
  | cons c calls ih =>
    obtain ⟨user, now⟩ := c
    have hrest := ih (l.allow user now).2
    rw [(quotas_allow l user now).1] at hrest
    rw [log, List.map_cons]
    rcases allow_takes l user now with ⟨hnone, hl⟩ | ⟨global, hsome, hl | ⟨full, -, hl⟩⟩ <;> rw [hl] at hrest ⊢
    · rw [hnone]
      exact .left now hrest
    · rw [hsome]
      exact .taken hsome hrest
    · rw [hsome]
      exact .taken hsome hrest

/-- the budget of a caller is spent by those of its calls that are admitted, and by no others -/
theorem spending_own (l : Limiter) (user : String) (calls : List (String × ℕ)) :
    Spending l.userQuota (fullAt user l.users)
      ((l.log calls).map fun c => (c.admitted && decide (c.user = user), c.instant)) := by
  induction calls generalizing l with
  | nil => exact .nil _
  | cons c calls ih =>
    obtain ⟨other, now⟩ := c
    have hrest := ih (l.allow other now).2
    rw [(quotas_allow l other now).2] at hrest
    rw [log, List.map_cons]
    by_cases hother : other = user
    · subst hother
      rcases allow_takes l other now with ⟨-, hl⟩ | ⟨global, -, hl | ⟨full, hsome, hl⟩⟩ <;> rw [hl] at hrest ⊢
      · exact .left now hrest
      · exact .left now hrest
      · rw [fullAt_put, if_pos rfl] at hrest
        rw [decide_eq_true rfl, Bool.and_true]
        exact .taken hsome hrest
    · rw [fullAt_allow l (Ne.symm hother)] at hrest
      rw [decide_eq_false hother, Bool.and_false]
      exact .left now hrest

/-- a call that is admitted has drawn a common token -/
theorem passed_of_admitted {c : Answered} (hc : c ∈ l.log calls) (hadmitted : c.admitted = true) : c.passed = true := by
  induction calls generalizing l with
  | nil => exact absurd hc List.not_mem_nil
  | cons call calls ih =>
    obtain ⟨user, now⟩ := call
    rw [log] at hc
    rcases List.mem_cons.1 hc with rfl | hc
    · rcases allow_takes l user now with ⟨-, hl⟩ | ⟨global, hsome, -⟩
      · rw [hl] at hadmitted
        exact absurd hadmitted Bool.false_ne_true
      · simp only [hsome, Option.isSome_some]
    · exact ih hc

end Limiter

/-! ## Main result -/

/-- what can come through in a window that begins anywhere in a sequence of calls -/
structure WindowBound (l : Limiter) (calls : List (String × ℕ)) (start span : ℕ) : Prop where
  /-- of the calls of one caller -/
  own : ∀ user, (l.log calls).countP (fun c => c.admitted && decide (c.user = user) && within start span c.instant) ≤
    l.userQuota.burst + span / l.userQuota.period
  /-- of all calls, through the common budget -/
  common : (l.log calls).countP (fun c => c.passed && within start span c.instant) ≤
    l.globalQuota.burst + span / l.globalQuota.period
  /-- of all calls, altogether -/
  admitted : (l.log calls).countP (fun c => c.admitted && within start span c.instant) ≤
    l.globalQuota.burst + span / l.globalQuota.period

theorem windowBound (l : Limiter) (calls : List (String × ℕ)) (start span : ℕ) : WindowBound l calls start span := by
  have hcommon := (l.spending_common calls).count_le start span
  rw [tokens, List.countP_map] at hcommon
  refine ⟨fun user => ?_, hcommon, le_trans (List.countP_mono_left fun c hc h => ?_) hcommon⟩
  · have hown := (l.spending_own user calls).count_le start span
    rwa [tokens, List.countP_map] at hown
  · rw [Bool.and_eq_true] at h
    exact Bool.and_eq_true_iff.2 ⟨l.passed_of_admitted hc h.1, h.2⟩

theorem quota_eq_ok {name : String} {rps : Decimal.Binary64} {burst : ℕ} {q : Quota}
    (h : Limiter.quota name rps burst = .ok q) : Quota.period? rps = some q.period ∧ q.burst = burst := by
  unfold Limiter.quota Quota.of? at h
  cases hperiod : Quota.period? rps with
  | none =>
    rw [hperiod] at h
    cases h
  | some period =>
    rw [hperiod] at h
    by_cases hpos : 0 < period ∧ 0 < burst
    · simp only [dif_pos hpos] at h
      obtain rfl := Except.ok.inj h
      exact ⟨rfl, rfl⟩
    · simp only [dif_neg hpos] at h
      cases h

/-- the quotas of a limiter are those of its settings -/
theorem quotas_of_settings {s : RateSettings} {l : Limiter} (hbuilt : Limiter.ofSettings s = .ok l) :
    (Quota.period? s.globalRps = some l.globalQuota.period ∧ l.globalQuota.burst = s.globalBurst) ∧
      (Quota.period? s.perUserRps = some l.userQuota.period ∧ l.userQuota.burst = s.perUserBurst) := by
  unfold Limiter.ofSettings at hbuilt
  obtain ⟨⟨⟩, -, hbuilt⟩ := bind_eq_ok.1 hbuilt
  obtain ⟨common, hcommon, hbuilt⟩ := bind_eq_ok.1 hbuilt
  obtain ⟨own, hown, hbuilt⟩ := bind_eq_ok.1 hbuilt
  obtain rfl := Except.ok.inj hbuilt
  exact ⟨quota_eq_ok hcommon, quota_eq_ok hown⟩

/-- **What a rate limiter lets through in a window of time.** A limiter made from any settings admits of the calls of
one caller no more than the caller's burst and one for each period that has gone by in the window; and of all calls no
more pass the common budget than the common burst and one for each common period. -/
theorem window_bound {s : RateSettings} {l : Limiter} (hbuilt : Limiter.ofSettings s = .ok l) :
    (Quota.period? s.globalRps = some l.globalQuota.period ∧ l.globalQuota.burst = s.globalBurst) ∧
      (Quota.period? s.perUserRps = some l.userQuota.period ∧ l.userQuota.burst = s.perUserBurst) ∧
      ∀ calls start span, WindowBound l calls start span :=
  ⟨(quotas_of_settings hbuilt).1, (quotas_of_settings hbuilt).2, windowBound l⟩

/-- the limiter of those settings -/
def twoLevelLimiter : Limiter := ⟨⟨500000000, 3, by decide, by decide⟩, ⟨1000000000, 2, by decide, by decide⟩, 0, []⟩

/-- the bounds can be met: in the second from its first call on, a caller has its burst admitted and one call more -/
theorem window_bound_busy : Limiter.ofSettings twoLevels = .ok twoLevelLimiter ∧
    (twoLevelLimiter.log busyCalls).countP
      (fun c => c.admitted && decide (c.user = "a") && within 0 1000000000 c.instant) = 3 ∧
    twoLevelLimiter.userQuota.burst + 1000000000 / twoLevelLimiter.userQuota.period = 3 ∧
    ∀ calls start span, WindowBound twoLevelLimiter calls start span := by
  have hcommon : Quota.period? twoLevels.globalRps = some 500000000 := by decide +kernel
  have hown : Quota.period? twoLevels.perUserRps = some 1000000000 := by decide +kernel
  obtain ⟨-, -, hbuilt⟩ : ∃ (_ : 0 < twoLevels.globalBurst) (_ : 0 < twoLevels.perUserBurst),
      Limiter.ofSettings twoLevels = .ok twoLevelLimiter :=
    ofSettings_eq (by decide +kernel) hcommon hown (by decide) (by decide)
  exact ⟨hbuilt, by decide, by decide, (window_bound hbuilt).2.2⟩

end QuorumGateway.RateLimit
