import QuorumGateway.RateLimit
import QuorumGateway.Proofs.Config.Collecting
/-!
Budgets as buckets of tokens. A bucket holds tokens and refills continuously, at one token per period and up to the
burst; a call draws a whole token. The reference has a common bucket and one for every caller, all full from the start
(`Buckets`). A budget that is kept as the instant at which it will be full is such a bucket: it holds what is missing
until then, in periods, less than the burst (`Holds`).

- `levelAt_of_holds`: so it does at all later instants, whether or not anything is drawn meanwhile.
- `allow_matches`: a call is answered alike by the budgets and by the buckets, and leaves them alike.
- `answers_eq_buckets`: hence a rate limiter answers every sequence of calls like the reference, and it keeps as many
  callers as have drawn a token of the common bucket. When a caller's budget is set up makes no difference, and the
  budgets of other callers stay as they are.
-/

namespace QuorumGateway.RateLimit

/-! ## Buckets -/

/-- a bucket of tokens: what it held when it was last drawn from, and when that was -/
structure Bucket where
  level : ℚ
  drawn : ℕ
deriving DecidableEq, Repr

namespace Bucket

def full (q : Quota) : Bucket := ⟨q.burst, 0⟩

/-- what a bucket holds at an instant -/
def levelAt (q : Quota) (b : Bucket) (now : ℕ) : ℚ := min q.burst (b.level + ((now : ℚ) - b.drawn) / q.period)

/-- a whole token drawn at an instant, if the bucket holds one -/
def draw? (q : Quota) (b : Bucket) (now : ℕ) : Option Bucket :=
  if 1 ≤ b.levelAt q now then some ⟨b.levelAt q now - 1, now⟩ else none

end Bucket

/-- a common bucket and one for every caller, and the callers who have drawn from the common one -/
structure Buckets where
  common : Bucket
  own : String → Bucket
  served : Finset String

namespace Buckets

def full (common own : Quota) : Buckets := ⟨.full common, fun _ => .full own, ∅⟩

/-- a call needs a whole token of the common bucket, and then one of the caller's own; a token of the common one that
has been drawn is not put back -/
def allow (common own : Quota) (b : Buckets) (user : String) (now : ℕ) : Bool × Buckets :=
  match b.common.draw? common now with
  | none => (false, b)
  | some rest =>
    let b := { b with common := rest, served := insert user b.served }
    match (b.own user).draw? own now with
    | none => (false, b)
    | some rest => (true, { b with own := Function.update b.own user rest })

/-- whether each call is admitted, and how many callers have been served after it -/
def answers (common own : Quota) (b : Buckets) : List (String × ℕ) → List (Bool × ℕ)
  | [] => []
  | (user, now) :: calls =>
    let (admitted, b) := b.allow common own user now
    (admitted, b.served.card) :: answers common own b calls

end Buckets

namespace Limiter

/-- whether each call is admitted, and how many callers are kept after it -/
def answers (l : Limiter) : List (String × ℕ) → List (Bool × ℕ)
  | [] => []
  | (user, now) :: calls =>
    let (admitted, l) := l.allow user now
    (admitted, l.trackedCallers) :: answers l calls

/-- the budgets after a sequence of calls -/
def after (l : Limiter) (calls : List (String × ℕ)) : Limiter := calls.foldl (fun l c => (l.allow c.1 c.2).2) l

/-! ## Budgets of callers -/

variable {users : List (String × ℕ)} {user other : String} {instant : ℕ}

theorem fullAt_of_not_mem (h : user ∉ users.map Prod.fst) : fullAt user users = 0 := by
  induction users with
  | nil => rfl
  | cons p rest ih =>
    rw [List.map_cons, List.mem_cons, not_or] at h
    rw [fullAt, if_neg (Ne.symm h.1)]
    exact ih h.2

theorem fullAt_put (user other : String) (instant : ℕ) (users : List (String × ℕ)) :
    fullAt other (put user instant users) = if user = other then instant else fullAt other users := by
  induction users with
  | nil => simp [put, fullAt]
  | cons p rest ih =>
    obtain ⟨u, f⟩ := p
    by_cases hu : u = user
    · subst hu
      by_cases h : u = other <;> simp [put, fullAt, h]
    · by_cases h : u = other
      · subst h
        simp [put, fullAt, hu, Ne.symm hu]
      · simp [put, fullAt, hu, h, ih]

theorem keys_put (user : String) (instant : ℕ) (users : List (String × ℕ)) :
    (put user instant users).map Prod.fst =
      if user ∈ users.map Prod.fst then users.map Prod.fst else users.map Prod.fst ++ [user] := by
  induction users with
  | nil => simp [put]
  | cons p rest ih =>
    obtain ⟨u, f⟩ := p
    by_cases hu : u = user
    · simp [put, hu]
    · rw [put, if_neg hu, List.map_cons, ih]
      split_ifs with hmem <;> simp_all [eq_comm]

end Limiter

/-! ## A budget as a bucket -/

/-- a bucket holds what a budget does: of the burst, all but what is missing until the budget is full -/
def Bucket.Holds (q : Quota) (b : Bucket) (full : ℕ) : Prop :=
  b.level = q.burst - ((full - b.drawn : ℕ) : ℚ) / q.period

variable {q : Quota} {b : Bucket} {full now : ℕ}

theorem Quota.period_pos_rat (q : Quota) : (0 : ℚ) < q.period := by exact_mod_cast q.period_pos

theorem holds_full (q : Quota) : (Bucket.full q).Holds q 0 := by
  simp [Bucket.Holds, Bucket.full]

/-- a bucket holds what a budget does at all instants after it was last drawn from -/
theorem levelAt_of_holds (h : b.Holds q full) (hnow : b.drawn ≤ now) :
    b.levelAt q now = q.burst - ((full - now : ℕ) : ℚ) / q.period := by
  have hpos := q.period_pos_rat
  have hwait : (0 : ℚ) ≤ (now : ℚ) - b.drawn := by
    rw [sub_nonneg]
    exact_mod_cast hnow
  unfold Bucket.levelAt
  rw [h]
  rcases Nat.le_total full b.drawn with hidle | hbusy
  · -- it was full when it was last drawn from, and stays so
    have hnone : full - b.drawn = 0 := by omega
    have hnone' : full - now = 0 := by omega
    have hrefill := div_nonneg hwait hpos.le
    rw [hnone, hnone', Nat.cast_zero, zero_div, sub_zero, min_eq_left (by linarith)]
  · have hsum : (q.burst : ℚ) - ((full - b.drawn : ℕ) : ℚ) / q.period + ((now : ℚ) - b.drawn) / q.period =
        q.burst - ((full : ℚ) - now) / q.period := by
      rw [Nat.cast_sub hbusy]
      ring
    rw [hsum]
    rcases Nat.le_total full now with hfilled | hmissing
    · have hnone : full - now = 0 := by omega
      have hle : ((full : ℚ) - now) / q.period ≤ 0 := by
        refine div_nonpos_of_nonpos_of_nonneg ?_ hpos.le
        rw [sub_nonpos]
        exact_mod_cast hfilled
      rw [hnone, min_eq_left (by linarith)]
      simp
    · have hle : 0 ≤ ((full : ℚ) - now) / q.period := by
        refine div_nonneg ?_ hpos.le
        rw [sub_nonneg]
        exact_mod_cast hmissing
      rw [min_eq_right (by linarith), Nat.cast_sub hmissing]

/-- a whole token is left exactly when no more than the others are missing -/
theorem one_le_levelAt_iff (h : b.Holds q full) (hnow : b.drawn ≤ now) :
    1 ≤ b.levelAt q now ↔ ¬ now + q.period * (q.burst - 1) < full := by
  have hpos := q.period_pos_rat
  have hburst : ((q.burst - 1 : ℕ) : ℚ) = q.burst - 1 := by rw [Nat.cast_sub q.burst_pos, Nat.cast_one]
  calc 1 ≤ b.levelAt q now ↔ ((full - now : ℕ) : ℚ) / q.period ≤ (q.burst : ℚ) - 1 := by
        rw [levelAt_of_holds h hnow]
        constructor <;> intro hle <;> linarith
    _ ↔ ((full - now : ℕ) : ℚ) ≤ ((q.period * (q.burst - 1) : ℕ) : ℚ) := by
        rw [div_le_iff₀ hpos, Nat.cast_mul, hburst, mul_comm]
    _ ↔ full - now ≤ q.period * (q.burst - 1) := Nat.cast_le
    _ ↔ ¬ now + q.period * (q.burst - 1) < full := by omega

/-- what is left after a token has been drawn -/
theorem holds_drawn (h : b.Holds q full) (hnow : b.drawn ≤ now) :
    Bucket.Holds q ⟨b.levelAt q now - 1, now⟩ (max full now + q.period) := by
  have hpos := q.period_pos_rat
  have hmore : max full now + q.period - now = (full - now) + q.period := by omega
  simp only [Bucket.Holds]
  rw [levelAt_of_holds h hnow, hmore, Nat.cast_add, add_div, div_self hpos.ne']
  ring

/-- **A budget is a bucket**: a token can be taken from the one exactly when it can be drawn from the other, and then
they still hold the same -/
theorem take?_draw? (h : b.Holds q full) (hnow : b.drawn ≤ now) :
    (q.take? full now = none ∧ b.draw? q now = none) ∨
      ∃ full' b', q.take? full now = some full' ∧ b.draw? q now = some b' ∧ b'.Holds q full' ∧ b'.drawn = now := by
  have hiff := one_le_levelAt_iff h hnow
  unfold Quota.take? Bucket.draw?
  by_cases hlack : now + q.period * (q.burst - 1) < full
  · left
    exact ⟨if_pos hlack, if_neg (fun hle => hiff.1 hle hlack)⟩
  · right
    exact ⟨_, _, if_neg hlack, if_pos (hiff.2 hlack), holds_drawn h hnow, rfl⟩

/-- a budget from which nothing has been taken has a token -/
theorem take?_zero (q : Quota) (now : ℕ) : (q.take? 0 now).isSome = true := by
  simp [Quota.take?]

/-! ## Both levels -/

variable {l : Limiter} {buckets : Buckets} {before : ℕ}

/-- the buckets hold what the budgets do, and none has been drawn from after an instant -/
structure Matches (l : Limiter) (b : Buckets) (now : ℕ) : Prop where
  common : b.common.Holds l.globalQuota l.global
  commonDrawn : b.common.drawn ≤ now
  own : ∀ user, (b.own user).Holds l.userQuota (Limiter.fullAt user l.users)
  ownDrawn : ∀ user, (b.own user).drawn ≤ now

/-- the callers who are kept are those who have been served, each once -/
structure Tracks (l : Limiter) (b : Buckets) : Prop where
  once : (l.users.map Prod.fst).Nodup
  served : (l.users.map Prod.fst).toFinset = b.served

/-- budgets of callers who have not been served yet are full, whether they are kept or not -/
theorem matches_full (common own : Quota) {users : List (String × ℕ)} (hfull : ∀ p ∈ users, p.2 = 0) :
    Matches ⟨common, own, 0, users⟩ (.full common own) 0 := by
  have hzero : ∀ user, Limiter.fullAt user users = 0 := by
    intro user
    induction users with
    | nil => rfl
    | cons p rest ih =>
      obtain ⟨hfirst, hrest⟩ := List.forall_mem_cons.1 hfull
      by_cases hu : p.1 = user
      · simpa [Limiter.fullAt, hu] using hfirst
      · simpa [Limiter.fullAt, hu] using ih hrest
  refine ⟨holds_full common, le_refl 0, fun user => ?_, fun _ => le_refl 0⟩
  simp only [hzero]
  exact holds_full own

theorem tracks_full (common own : Quota) : Tracks ⟨common, own, 0, []⟩ (.full common own) := ⟨List.nodup_nil, rfl⟩

theorem Tracks.card (h : Tracks l buckets) : l.trackedCallers = buckets.served.card := by
  rw [← h.served, List.toFinset_card_of_nodup h.once, List.length_map]
  rfl

/-- what a call can do: be refused for want of a common token; spend one and be refused for want of one of its own; be
admitted -/
theorem allow_cases (h : Matches l buckets before) (hnow : before ≤ now) (user : String) :
    (l.allow user now = (false, l) ∧ buckets.allow l.globalQuota l.userQuota user now = (false, buckets)) ∨
    ∃ global common, common.Holds l.globalQuota global ∧ common.drawn = now ∧
      ((l.userQuota.take? (Limiter.fullAt user l.users) now = none ∧
          l.allow user now = (false, { l with global }) ∧
          buckets.allow l.globalQuota l.userQuota user now =
            (false, { buckets with common, served := insert user buckets.served })) ∨
        ∃ full own, own.Holds l.userQuota full ∧ own.drawn = now ∧
          l.allow user now = (true, { l with global, users := Limiter.put user full l.users }) ∧
          buckets.allow l.globalQuota l.userQuota user now =
            (true, ⟨common, Function.update buckets.own user own, insert user buckets.served⟩)) := by
  unfold Limiter.allow Buckets.allow
  rcases take?_draw? h.common (h.commonDrawn.trans hnow) with
    ⟨htake, hdraw⟩ | ⟨global, common, htake, hdraw, hcommon, hdrawn⟩
  · left
    rw [htake, hdraw]
    exact ⟨rfl, rfl⟩
  · right
    refine ⟨global, common, hcommon, hdrawn, ?_⟩
    rw [htake, hdraw]
    rcases take?_draw? (h.own user) ((h.ownDrawn user).trans hnow) with
      ⟨htake, hdraw⟩ | ⟨full, own, htake, hdraw, hown, hdrawn⟩
    · left
      simp only [htake, hdraw, and_self]
    · right
      refine ⟨full, own, hown, hdrawn, ?_⟩
      simp only [htake, hdraw, and_self]

/-- **One call**: the budgets and the buckets answer it alike, and are left alike -/
theorem allow_matches (h : Matches l buckets before) (hnow : before ≤ now) (user : String) :
    (l.allow user now).1 = (buckets.allow l.globalQuota l.userQuota user now).1 ∧
      Matches (l.allow user now).2 (buckets.allow l.globalQuota l.userQuota user now).2 now := by
  have hdrawn : ∀ user, (buckets.own user).drawn ≤ now := fun user => (h.ownDrawn user).trans hnow
  rcases allow_cases h hnow user with
    ⟨hl, hb⟩ | ⟨global, common, hcommon, hnext, ⟨-, hl, hb⟩ | ⟨full, own, hown, hlast, hl, hb⟩⟩ <;> rw [hl, hb]
  · exact ⟨rfl, h.common, h.commonDrawn.trans hnow, h.own, hdrawn⟩
  · exact ⟨rfl, hcommon, hnext.le, h.own, hdrawn⟩
  · refine ⟨rfl, hcommon, hnext.le, fun other => ?_, fun other => ?_⟩
    · simp only [Limiter.fullAt_put]
      by_cases heq : user = other
      · subst heq
        simpa using hown
      · simpa [heq, Function.update_of_ne (Ne.symm heq)] using h.own other
    · by_cases heq : user = other
      · subst heq
        simpa using hlast.le
      · simpa [Function.update_of_ne (Ne.symm heq)] using hdrawn other

/-- a caller is kept from the first call that draws a common token: a budget that is not kept yet does not lack a token
of its own -/
theorem allow_tracks (h : Matches l buckets before) (hnow : before ≤ now) (hkeep : Tracks l buckets) (user : String) :
    Tracks (l.allow user now).2 (buckets.allow l.globalQuota l.userQuota user now).2 := by
  rcases allow_cases h hnow user with
    ⟨hl, hb⟩ | ⟨global, common, -, -, ⟨hlack, hl, hb⟩ | ⟨full, own, -, -, hl, hb⟩⟩ <;> rw [hl, hb]
  · exact hkeep
  · have hkept : user ∈ l.users.map Prod.fst := by
      by_contra hnew
      have hgranted := take?_zero l.userQuota now
      rw [← Limiter.fullAt_of_not_mem hnew, hlack] at hgranted
      exact absurd hgranted Bool.false_ne_true
    refine ⟨hkeep.once, ?_⟩
    rw [← hkeep.served, Finset.insert_eq_of_mem (List.mem_toFinset.2 hkept)]
  · constructor
    · rw [Limiter.keys_put]
      split_ifs with hkept
      · exact hkeep.once
      · refine List.nodup_append.2 ⟨hkeep.once, List.nodup_singleton user, ?_⟩
        rintro u hu u' hu' rfl
        exact hkept (List.mem_singleton.1 hu' ▸ hu)
    · rw [Limiter.keys_put, ← hkeep.served]
      split_ifs with hkept
      · exact (Finset.insert_eq_of_mem (List.mem_toFinset.2 hkept)).symm
      · rw [List.toFinset_append, Finset.union_comm]
        rfl

theorem quotas_allow (l : Limiter) (user : String) (now : ℕ) :
    (l.allow user now).2.globalQuota = l.globalQuota ∧ (l.allow user now).2.userQuota = l.userQuota := by
  unfold Limiter.allow
  split
  · exact ⟨rfl, rfl⟩
  · split <;> exact ⟨rfl, rfl⟩

/-! ## Sequences of calls -/

section Calls

variable {calls : List (String × ℕ)}

/-- calls are admitted alike; and if the callers kept are those served, their numbers are the same all along -/
theorem answers_matches (h : Matches l buckets before) (hlater : ∀ c ∈ calls, before ≤ c.2)
    (hmono : (calls.map Prod.snd).Pairwise (· ≤ ·)) :
    (l.answers calls).map Prod.fst = (buckets.answers l.globalQuota l.userQuota calls).map Prod.fst ∧
      (Tracks l buckets → l.answers calls = buckets.answers l.globalQuota l.userQuota calls) := by
  induction calls generalizing l buckets before with
  | nil => exact ⟨rfl, fun _ => rfl⟩
  | cons c calls ih =>
    obtain ⟨user, now⟩ := c
    obtain ⟨hnow, -⟩ := List.forall_mem_cons.1 hlater
    obtain ⟨hnext, hrest⟩ := List.pairwise_cons.1 hmono
    obtain ⟨hsame, hmatches⟩ := allow_matches h hnow user
    obtain ⟨hadmitted, hanswers⟩ := ih hmatches (fun c hc => hnext c.2 (List.mem_map_of_mem hc)) hrest
    obtain ⟨hglobal, huser⟩ := quotas_allow l user now
    rw [hglobal, huser] at hadmitted hanswers
    constructor
    · simp only [Limiter.answers, Buckets.answers, List.map_cons, hsame, hadmitted]
    · intro hkeep
      have htracks := allow_tracks h hnow hkeep user
      simp only [Limiter.answers, Buckets.answers, hsame, htracks.card, hanswers htracks]

/-- a call leaves the budgets of other callers as they are -/
theorem fullAt_allow (l : Limiter) {user other : String} (hother : other ≠ user) (now : ℕ) :
    Limiter.fullAt other (l.allow user now).2.users = Limiter.fullAt other l.users := by
  unfold Limiter.allow
  split
  · rfl
  · split
    · rfl
    · rw [Limiter.fullAt_put, if_neg (Ne.symm hother)]

/-- a rate limiter behaves like buckets over a sequence of calls: it gives the answers of buckets that are all full at
the start; setting up full budgets before they are needed would change none of its decisions; and what is left to a
caller, the calls of others do not change -/
structure LikeBuckets (l : Limiter) (calls : List (String × ℕ)) : Prop where
  answers : l.answers calls =
    (Buckets.full l.globalQuota l.userQuota).answers l.globalQuota l.userQuota calls
  early : ∀ users, (∀ p ∈ users, p.2 = 0) →
    (({ l with users } : Limiter).answers calls).map Prod.fst = (l.answers calls).map Prod.fst
  apart : ∀ pre, pre <+: calls → ∀ user now other, other ≠ user →
    Limiter.fullAt other ((l.after pre).allow user now).2.users = Limiter.fullAt other (l.after pre).users

theorem likeBuckets_new (common own : Quota) (hmono : (calls.map Prod.snd).Pairwise (· ≤ ·)) :
    LikeBuckets ⟨common, own, 0, []⟩ calls := by
  have hadmitted : ∀ users : List (String × ℕ), (∀ p ∈ users, p.2 = 0) →
      ((⟨common, own, 0, users⟩ : Limiter).answers calls).map Prod.fst =
        ((Buckets.full common own).answers common own calls).map Prod.fst := fun users hfull =>
    (answers_matches (matches_full common own hfull) (fun _ _ => Nat.zero_le _) hmono).1
  have hnone : ∀ p ∈ ([] : List (String × ℕ)), p.2 = 0 := fun _ hp => absurd hp List.not_mem_nil
  refine ⟨?_, fun users hfull => ?_, fun pre _ user now other hother => fullAt_allow _ hother now⟩
  · exact (answers_matches (matches_full common own hnone) (fun _ _ => Nat.zero_le _) hmono).2 (tracks_full common own)
  · exact (hadmitted users hfull).trans (hadmitted [] hnone).symm

end Calls

/-! ## Main result -/

/-- settings that pass their check and have periods make a limiter with those periods and bursts, whose budgets are
full -/
theorem ofSettings_eq {s : RateSettings} {common own : ℕ} (hvalid : s.problems = [])
    (hcommon : Quota.period? s.globalRps = some common) (hown : Quota.period? s.perUserRps = some own)
    (hcommonPos : 0 < common) (hownPos : 0 < own) :
    ∃ (hg : 0 < s.globalBurst) (hu : 0 < s.perUserBurst),
      Limiter.ofSettings s =
        .ok ⟨⟨common, s.globalBurst, hcommonPos, hg⟩, ⟨own, s.perUserBurst, hownPos, hu⟩, 0, []⟩ := by
  obtain ⟨hrates, hburst⟩ := List.append_eq_nil_iff.1 hvalid
  obtain ⟨-, hglobalBurst⟩ := List.append_eq_nil_iff.1 hrates
  have hpos : ∀ {name : String} {burst : ℕ}, RateSettings.burstProblems name burst = [] → 0 < burst := by
    intro name burst h
    unfold RateSettings.burstProblems at h
    split_ifs at h
    omega
  have hg := hpos hglobalBurst
  have hu := hpos hburst
  refine ⟨hg, hu, ?_⟩
  simp only [Limiter.ofSettings, s.check_eq, hvalid, Problem.report, Limiter.quota, Quota.of?, hcommon, hown,
    hcommonPos, hownPos, hg, hu, and_self, dite_true]
  rfl

/-- **A rate limiter is two levels of token buckets.** Settings that pass their check and whose rates have periods of a
nanosecond at least make a limiter with those periods and the bursts of the settings, and over every sequence of calls
at instants that do not go back it behaves like a common bucket and one for every caller. -/
theorem answers_eq_buckets {s : RateSettings} {common own : ℕ} (hvalid : s.problems = [])
    (hcommon : Quota.period? s.globalRps = some common) (hown : Quota.period? s.perUserRps = some own)
    (hcommonPos : 1 ≤ common) (hownPos : 1 ≤ own) {calls : List (String × ℕ)}
    (hmono : (calls.map Prod.snd).Pairwise (· ≤ ·)) :
    ∃ l, Limiter.ofSettings s = .ok l ∧ (l.globalQuota.period = common ∧ l.globalQuota.burst = s.globalBurst) ∧
      (l.userQuota.period = own ∧ l.userQuota.burst = s.perUserBurst) ∧ LikeBuckets l calls := by
  obtain ⟨hg, hu, hbuilt⟩ := ofSettings_eq hvalid hcommon hown hcommonPos hownPos
  exact ⟨_, hbuilt, ⟨rfl, rfl⟩, ⟨rfl, rfl⟩, likeBuckets_new _ _ hmono⟩

/-- three tokens for all callers and two for each, one more of the common ones every half second and one more of each
caller's own every second -/
def twoLevels : RateSettings := ⟨.ofNat 2, 3, .ofNat 1, 2⟩

/-- one caller spends its own budget and with it the common one, another one comes late, and both wait for new tokens -/
def busyCalls : List (String × ℕ) :=
  [("a", 0), ("a", 0), ("a", 0), ("b", 0), ("b", 500000000), ("a", 1000000000), ("a", 1000000000), ("b", 1500000000)]

example : (⟨⟨500000000, 3, by decide, by decide⟩, ⟨1000000000, 2, by decide, by decide⟩, 0, []⟩ : Limiter).answers
    busyCalls =
      [(true, 1), (true, 1), (false, 1), (false, 1), (true, 2), (true, 2), (false, 2), (true, 2)] := by
  decide

theorem answers_eq_buckets_busy :
    twoLevels.problems = [] ∧ Quota.period? twoLevels.globalRps = some 500000000 ∧
      Quota.period? twoLevels.perUserRps = some 1000000000 ∧ (busyCalls.map Prod.snd).Pairwise (· ≤ ·) ∧
      ∃ l, Limiter.ofSettings twoLevels = .ok l ∧
        (l.globalQuota.period = 500000000 ∧ l.globalQuota.burst = twoLevels.globalBurst) ∧
        (l.userQuota.period = 1000000000 ∧ l.userQuota.burst = twoLevels.perUserBurst) ∧ LikeBuckets l busyCalls := by
  have hvalid : twoLevels.problems = [] := by decide +kernel
  have hcommon : Quota.period? twoLevels.globalRps = some 500000000 := by decide +kernel
  have hown : Quota.period? twoLevels.perUserRps = some 1000000000 := by decide +kernel
  have hmono : (busyCalls.map Prod.snd).Pairwise (· ≤ ·) := by decide
  exact ⟨hvalid, hcommon, hown, hmono, answers_eq_buckets hvalid hcommon hown (by decide) (by decide) hmono⟩

end QuorumGateway.RateLimit
