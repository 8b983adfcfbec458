import QuorumGateway.Gateway.Setup
import QuorumGateway.Proofs.Config.Rules
import QuorumGateway.Proofs.Outcome
/-!
When a gateway can be built. Its settings are checked twice: as a document with those of the network, and again in parts
while the gateway is put together. What is left for the second time is an allow-list without a source, and a rate whose
period is too short or too long to be represented (`HasPeriod`).

- `sections_of_parse`: the sections of settings that are accepted pass their own checks. So the contract of the
  allow-list has an address and no burst is zero (`address_of_check`, `bursts_of_check`).
- `limiter?_eq_error_iff`: setting up the budgets fails only for a rate without a period.
- `building_exact`: a gateway is built exactly when each condition is met, in `Condition.inOrder`, and otherwise
  building fails with the problem of the first one that is not.
-/

namespace QuorumGateway

/-! ## Periods -/

namespace Decimal

theorem roundDiv_pos_iff {num den : ℕ} (hden : 0 < den) : 0 < roundDiv num den ↔ den < 2 * num := by
  have hsplit := Nat.div_add_mod num den
  have hrest := Nat.mod_lt num hden
  unfold roundDiv
  rcases Nat.eq_zero_or_pos (num / den) with hzero | hpos
  · rw [hzero, Nat.mul_zero, Nat.zero_add] at hsplit
    simp only [hzero, hsplit]
    split_ifs <;> omega
  · -- a quotient of one or more is not rounded to zero
    have hle : den ≤ den * (num / den) := Nat.le_mul_of_pos_right den hpos
    dsimp only
    split_ifs <;> omega

/-- the magnitude of a finite number -/
def Binary64.value (x : Binary64) : ℚ := x.ratio.1 / x.ratio.2

theorem Binary64.ratio_den_pos (x : Binary64) : 0 < x.ratio.2 := by
  unfold Binary64.ratio
  split_ifs
  · exact Nat.one_pos
  · exact Nat.two_pow_pos _

end Decimal

open Decimal

namespace RateLimit

/-- whether the period of a rate can be represented: a second divided by the rate, which is a number of the format
again, is rounded to one nanosecond at least, half a nanosecond being rounded to none, and is less than `2 ^ 64` seconds
-/
def HasPeriod (rps : Binary64) : Prop :=
  ((Binary64.ofNat 1).div rps).isFinite = true ∧ 1 / 2 < ((Binary64.ofNat 1).div rps).value * 10 ^ 9 ∧
    ((Binary64.ofNat 1).div rps).value < 2 ^ 64

theorem hasPeriod_iff {rps : Binary64} : HasPeriod rps ↔ ∃ period, Quota.period? rps = some period ∧ 0 < period := by
  unfold HasPeriod Quota.period?
  generalize (Binary64.ofNat 1).div rps = seconds
  have hden : 0 < seconds.ratio.2 := seconds.ratio_den_pos
  have hdenQ : (0 : ℚ) < seconds.ratio.2 := by exact_mod_cast hden
  have hlong : seconds.value < 2 ^ 64 ↔ ¬2 ^ 64 * seconds.ratio.2 ≤ seconds.ratio.1 := by
    rw [not_le, Binary64.value, div_lt_iff₀ hdenQ]
    exact_mod_cast Iff.rfl
  have hshort : 1 / 2 < seconds.value * 10 ^ 9 ↔ 0 < roundDiv (seconds.ratio.1 * 1000000000) seconds.ratio.2 := by
    rw [roundDiv_pos_iff hden, Binary64.value, div_mul_eq_mul_div, lt_div_iff₀ hdenQ]
    have hscale : (1 / 2 * (seconds.ratio.2 : ℚ) < seconds.ratio.1 * 10 ^ 9) ↔
        (seconds.ratio.2 : ℚ) < 2 * (seconds.ratio.1 * 1000000000) := by
      constructor <;> intro h <;> linarith
    rw [hscale]
    exact_mod_cast Iff.rfl
  dsimp only
  rw [hshort, hlong]
  cases hfinite : seconds.isFinite with
  | false => simp
  | true =>
    by_cases hfits : 2 ^ 64 * seconds.ratio.2 ≤ seconds.ratio.1
    · simp [hfits]
    · simp [hfits]

/-- a budget with tokens is set up exactly when its rate has a period -/
theorem quota_cases (name : String) (rps : Binary64) {burst : ℕ} (hburst : 0 < burst) :
    (HasPeriod rps ∧ ∃ q, Limiter.quota name rps burst = .ok q) ∨
      (¬HasPeriod rps ∧ Limiter.quota name rps burst = .error (unrepresentable name rps)) := by
  rw [hasPeriod_iff]
  unfold Limiter.quota Quota.of?
  cases hperiod : Quota.period? rps with
  | none => exact .inr ⟨by simp, rfl⟩
  | some period =>
    by_cases hpos : 0 < period
    · exact .inl ⟨⟨period, rfl, hpos⟩, by simp [hpos, hburst]⟩
    · exact .inr ⟨by simpa using hpos, by simp [hpos]⟩

/-- the rates of a limiter without a period: the first of them is the problem -/
inductive NoPeriod (r : RateSettings) : Problem → Prop
  | globalRate (h : ¬HasPeriod r.globalRps) : NoPeriod r (unrepresentable "globalRPS" r.globalRps)
  | userRate (hglobal : HasPeriod r.globalRps) (h : ¬HasPeriod r.perUserRps) :
      NoPeriod r (unrepresentable "perUserRPS" r.perUserRps)

theorem NoPeriod.not_of_periods {r : RateSettings} {p : Problem} (hp : NoPeriod r p)
    (h : HasPeriod r.globalRps ∧ HasPeriod r.perUserRps) : False := by
  cases hp with
  | globalRate hnone => exact hnone h.1
  | userRate _ hnone => exact hnone h.2

theorem NoPeriod.unique {r : RateSettings} {p q : Problem} (hp : NoPeriod r p) (hq : NoPeriod r q) : p = q := by
  cases hp with
  | globalRate hnone =>
    cases hq with
    | globalRate => rfl
    | userRate hhas => exact absurd hhas hnone
  | userRate hhas =>
    cases hq with
    | globalRate hnone => exact absurd hhas hnone
    | userRate => rfl

theorem NoPeriod.exists_of_not {r : RateSettings} (h : ¬(HasPeriod r.globalRps ∧ HasPeriod r.perUserRps)) :
    ∃ p, NoPeriod r p := by
  by_cases hglobal : HasPeriod r.globalRps
  · exact ⟨_, .userRate hglobal fun huser => h ⟨hglobal, huser⟩⟩
  · exact ⟨_, .globalRate hglobal⟩

end RateLimit

/-! ## Settings that have been accepted -/

theorem AllowlistSettings.address_of_check {a : AllowlistSettings} (h : a.check = .ok ()) :
    ∃ contract, Address.parse a.contractAddress = .ok contract := by
  cases hparse : Address.parse a.contractAddress with
  | ok contract => exact ⟨contract, rfl⟩
  | error fault => exact absurd (.contract hparse) (a.check_reports.passes.1 ⟨(), h⟩ _ _)

theorem RateSettings.bursts_of_check {r : RateSettings} (h : r.check = .ok ()) :
    0 < r.globalBurst ∧ 0 < r.perUserBurst := by
  have hkept := r.check_reports.passes.1 ⟨(), h⟩
  exact ⟨Nat.pos_of_ne_zero fun hzero => hkept _ _ (.globalBurst hzero),
    Nat.pos_of_ne_zero fun hzero => hkept _ _ (.perUserBurst hzero)⟩

/-- the sections of settings that are accepted pass their own checks -/
theorem HandlerSettings.sections_of_parse {raw : Json} {s : HandlerSettings} (h : parse raw = .ok s) :
    (∀ a, s.allowlist = some a → a.check = .ok ()) ∧ ∀ r, s.rateLimiter = some r → r.check = .ok () := by
  obtain ⟨hdecode, -⟩ := parse_eq_ok_iff.1 h
  have hkept := (parse_reports raw).passes.1 ⟨s, h⟩
  constructor
  · intro a ha
    obtain ⟨⟨⟩, hcheck⟩ := a.check_reports.passes.2 fun _ _ hp => hkept _ _ (.settings hdecode (.allowlist ha hp))
    exact hcheck
  · intro r hr
    obtain ⟨⟨⟩, hcheck⟩ := r.check_reports.passes.2 fun _ _ hp => hkept _ _ (.settings hdecode (.rateLimiter hr hp))
    exact hcheck

namespace RateLimit

/-- **Setting up budgets fails only for a rate without a period** -/
theorem Limiter.ofSettings_cases {r : RateSettings} (h : r.check = .ok ()) :
    (HasPeriod r.globalRps ∧ HasPeriod r.perUserRps ∧ ∃ l, Limiter.ofSettings r = .ok l) ∨
      ∃ p, NoPeriod r p ∧ Limiter.ofSettings r = .error p := by
  obtain ⟨hglobal, huser⟩ := RateSettings.bursts_of_check h
  unfold Limiter.ofSettings
  rw [h, ok_bind]
  rcases quota_cases "globalRPS" r.globalRps hglobal with ⟨hhas, common, hcommon⟩ | ⟨hnone, hcommon⟩
  · rw [hcommon, ok_bind]
    rcases quota_cases "perUserRPS" r.perUserRps huser with ⟨hhas', own, hown⟩ | ⟨hnone, hown⟩
    · rw [hown, ok_bind]
      exact .inl ⟨hhas, hhas', _, rfl⟩
    · rw [hown]
      exact .inr ⟨_, .userRate hhas hnone, rfl⟩
  · rw [hcommon]
    exact .inr ⟨_, .globalRate hnone, rfl⟩

end RateLimit

namespace Gateway

open RateLimit

variable {raw : Json} {network : Network} {hasSource : Bool} {s : HandlerSettings} {p : Problem}

theorem contract?_eq_error_iff (h : HandlerSettings.parse raw = .ok s) :
    contract? s hasSource = .error p ↔ s.allowlist ≠ none ∧ hasSource = false ∧ p = noSource := by
  unfold contract?
  cases hlist : s.allowlist with
  | none => simp
  | some a =>
    obtain ⟨contract, hcontract⟩ :=
      AllowlistSettings.address_of_check ((HandlerSettings.sections_of_parse h).1 a hlist)
    cases hasSource with
    | false => simp [eq_comm]
    | true => simp [hcontract]

theorem limiter?_eq_error_iff (h : HandlerSettings.parse raw = .ok s) :
    limiter? s = .error p ↔ ∃ r, s.rateLimiter = some r ∧ NoPeriod r p := by
  unfold limiter?
  cases hrates : s.rateLimiter with
  | none => simp
  | some r =>
    rcases Limiter.ofSettings_cases ((HandlerSettings.sections_of_parse h).2 r hrates) with
      ⟨hglobal, huser, l, hl⟩ | ⟨q, hq, hl⟩
    · have hnone : ¬NoPeriod r p := by
        intro hp
        cases hp with
        | globalRate h => exact h hglobal
        | userRate _ h => exact h huser
      simp [hl, hnone, Except.map]
    · have hunique : NoPeriod r p ↔ q = p := by
        constructor
        · intro hp
          cases hq <;> cases hp <;> first | rfl | contradiction
        · rintro rfl
          exact hq
      simp [hl, hunique, Except.map]

/-! ## Conditions -/

/-- what building a gateway depends on -/
inductive Condition where
  | settings
  | network
  | source
  | periods
deriving DecidableEq

def Condition.inOrder : List Condition := [.settings, .network, .source, .periods]

/-- when a condition is not met, and the problem that this is -/
inductive Unmet (raw : Json) (network : Network) (hasSource : Bool) : Condition → Problem → Prop
  | settings {p : Problem} (h : HandlerSettings.parse raw = .error p) : Unmet raw network hasSource .settings p
  | network {p : Problem} (h : network.check = .error p) : Unmet raw network hasSource .network p
  | source {s : HandlerSettings} (h : HandlerSettings.parse raw = .ok s) (hlist : s.allowlist ≠ none)
      (hnone : hasSource = false) : Unmet raw network hasSource .source noSource
  | periods {s : HandlerSettings} {r : RateSettings} {p : Problem} (h : HandlerSettings.parse raw = .ok s)
      (hrates : s.rateLimiter = some r) (hnone : NoPeriod r p) : Unmet raw network hasSource .periods p

/-- the problem of the first of some conditions that is not met -/
def FirstUnmet (raw : Json) (network : Network) (hasSource : Bool) (cs : List Condition) (p : Problem) : Prop :=
  ∃ met c rest, cs = met ++ c :: rest ∧ (∀ c' ∈ met, ∀ q, ¬Unmet raw network hasSource c' q) ∧
    Unmet raw network hasSource c p

/-- a gateway can be built with certain settings -/
structure Buildable (raw : Json) (network : Network) (hasSource : Bool) (s : HandlerSettings) : Prop where
  settings : HandlerSettings.parse raw = .ok s
  network : network.check = .ok ()
  source : s.allowlist ≠ none → hasSource = true
  periods : ∀ r, s.rateLimiter = some r → HasPeriod r.globalRps ∧ HasPeriod r.perUserRps

theorem firstUnmet_cons {c : Condition} {cs : List Condition} :
    FirstUnmet raw network hasSource (c :: cs) p ↔
      Unmet raw network hasSource c p ∨
        (∀ q, ¬Unmet raw network hasSource c q) ∧ FirstUnmet raw network hasSource cs p := by
  constructor
  · rintro ⟨_ | ⟨c', met⟩, d, rest, hcs, hmet, hp⟩
    · cases hcs
      exact .inl hp
    · cases hcs
      obtain ⟨hc, hmet⟩ := List.forall_mem_cons.1 hmet
      exact .inr ⟨hc, met, d, rest, rfl, hmet, hp⟩
  · rintro (hp | ⟨hc, met, d, rest, rfl, hmet, hp⟩)
    · exact ⟨[], c, cs, rfl, by simp, hp⟩
    · exact ⟨c :: met, d, rest, rfl, List.forall_mem_cons.2 ⟨hc, hmet⟩, hp⟩

theorem not_firstUnmet_nil : ¬FirstUnmet raw network hasSource [] p := by
  rintro ⟨met, c, rest, h, -⟩
  simp at h

theorem Unmet.unique {c : Condition} {q : Problem} (hp : Unmet raw network hasSource c p)
    (hq : Unmet raw network hasSource c q) : p = q := by
  cases hp with
  | settings h =>
    cases hq with
    | settings h' => exact Except.error.inj (h.symm.trans h')
  | network h =>
    cases hq with
    | network h' => exact Except.error.inj (h.symm.trans h')
  | source =>
    cases hq
    rfl
  | periods h hrates hnone =>
    cases hq with
    | periods h' hrates' hnone' =>
      obtain rfl := Except.ok.inj (h.symm.trans h')
      obtain rfl := Option.some.inj (hrates.symm.trans hrates')
      exact hnone.unique hnone'

theorem FirstUnmet.unique {cs : List Condition} {q : Problem} (hp : FirstUnmet raw network hasSource cs p)
    (hq : FirstUnmet raw network hasSource cs q) : p = q := by
  induction cs with
  | nil => exact absurd hp not_firstUnmet_nil
  | cons c cs ih =>
    rcases firstUnmet_cons.1 hp with hp | ⟨hmet, hp⟩
    · rcases firstUnmet_cons.1 hq with hq | ⟨hmet, -⟩
      · exact hp.unique hq
      · exact absurd hp (hmet p)
    · rcases firstUnmet_cons.1 hq with hq | ⟨-, hq⟩
      · exact absurd hq (hmet q)
      · exact ih hp hq

/-- what can be built meets every condition -/
theorem Buildable.met (h : Buildable raw network hasSource s) (c : Condition) : ¬Unmet raw network hasSource c p := by
  intro hp
  cases hp with
  | settings hparse =>
    rw [h.settings] at hparse
    cases hparse
  | network hcheck =>
    rw [h.network] at hcheck
    cases hcheck
  | source hparse hlist hnone =>
    obtain rfl := Except.ok.inj (h.settings.symm.trans hparse)
    rw [h.source hlist] at hnone
    cases hnone
  | periods hparse hrates hnone =>
    obtain rfl := Except.ok.inj (h.settings.symm.trans hparse)
    exact hnone.not_of_periods (h.periods _ hrates)

/-- a gateway is built, or the first condition that is not met is the problem -/
theorem build_cases (raw : Json) (network : Network) (hasSource : Bool) :
    (∃ s b, Buildable raw network hasSource s ∧ build raw network hasSource = .ok b) ∨
      ∃ p, FirstUnmet raw network hasSource Condition.inOrder p ∧ build raw network hasSource = .error p := by
  unfold build Condition.inOrder
  cases hparse : HandlerSettings.parse raw with
  | error p => exact .inr ⟨p, firstUnmet_cons.2 (.inl (.settings hparse)), rfl⟩
  | ok s =>
    have hsettings : ∀ q, ¬Unmet raw network hasSource .settings q := by
      intro q hq
      cases hq with
      | settings h =>
        rw [hparse] at h
        cases h
    rw [ok_bind]
    cases hcheck : network.check with
    | error p => exact .inr ⟨p, firstUnmet_cons.2 (.inr ⟨hsettings, firstUnmet_cons.2 (.inl (.network hcheck))⟩), rfl⟩
    | ok u =>
      have hnetwork : ∀ q, ¬Unmet raw network hasSource .network q := by
        intro q hq
        cases hq with
        | network h =>
          rw [hcheck] at h
          cases h
      rw [ok_bind]
      cases hcontract : contract? s hasSource with
      | error p =>
        obtain ⟨hlist, hnone, rfl⟩ := (contract?_eq_error_iff hparse).1 hcontract
        refine .inr ⟨noSource, ?_, rfl⟩
        exact firstUnmet_cons.2 (.inr ⟨hsettings, firstUnmet_cons.2 (.inr ⟨hnetwork,
          firstUnmet_cons.2 (.inl (.source hparse hlist hnone))⟩)⟩)
      | ok contract =>
        have hgiven : s.allowlist ≠ none → hasSource = true := by
          intro hlist
          by_contra hnone
          rw [(contract?_eq_error_iff hparse).2 ⟨hlist, by simpa using hnone, rfl⟩] at hcontract
          cases hcontract
        have hsource : ∀ q, ¬Unmet raw network hasSource .source q := by
          intro q hq
          cases hq with
          | source h hlist hnone =>
            obtain rfl := Except.ok.inj (hparse.symm.trans h)
            rw [hgiven hlist] at hnone
            cases hnone
        rw [ok_bind]
        cases hlimiter : limiter? s with
        | error p =>
          obtain ⟨r, hrates, hnone⟩ := (limiter?_eq_error_iff hparse).1 hlimiter
          refine .inr ⟨p, ?_, rfl⟩
          exact firstUnmet_cons.2 (.inr ⟨hsettings, firstUnmet_cons.2 (.inr ⟨hnetwork, firstUnmet_cons.2 (.inr ⟨hsource,
            firstUnmet_cons.2 (.inl (.periods hparse hrates hnone))⟩)⟩)⟩)
        | ok limiter =>
          refine .inl ⟨s, _, ⟨hparse, hcheck, hgiven, fun r hrates => ?_⟩, rfl⟩
          by_contra hperiods
          obtain ⟨p, hp⟩ := NoPeriod.exists_of_not hperiods
          rw [(limiter?_eq_error_iff hparse).2 ⟨r, hrates, hp⟩] at hlimiter
          cases hlimiter

/-! ## Main result -/

/-- when a gateway is built, and what the problem is otherwise -/
structure BuiltExactly (raw : Json) (network : Network) (hasSource : Bool) : Prop where
  succeeds : (∃ b, build raw network hasSource = .ok b) ↔ ∃ s, Buildable raw network hasSource s
  fails : ∀ p, build raw network hasSource = .error p ↔ FirstUnmet raw network hasSource Condition.inOrder p

theorem builtExactly (raw : Json) (network : Network) (hasSource : Bool) : BuiltExactly raw network hasSource := by
  rcases build_cases raw network hasSource with ⟨s, b, hs, hb⟩ | ⟨p, hp, hb⟩
  · refine ⟨⟨fun _ => ⟨s, hs⟩, fun _ => ⟨b, hb⟩⟩, fun p => ?_⟩
    rw [hb]
    refine ⟨nofun, ?_⟩
    rintro ⟨met, c, rest, -, -, hp⟩
    exact absurd hp (hs.met c)
  · refine ⟨⟨fun ⟨b, h⟩ => ?_, fun ⟨s, hs⟩ => ?_⟩, fun q => ⟨fun h => ?_, fun hq => ?_⟩⟩
    · rw [hb] at h
      cases h
    · obtain ⟨met, c, rest, -, -, hp⟩ := hp
      exact absurd hp (hs.met c)
    · rw [hb] at h
      exact Except.error.inj h ▸ hp
    · rw [hb, hp.unique hq]

/-- **When a gateway can be built**: when the document is accepted as settings, the network passes its check, an
allow-list has a source and the rates have periods, and otherwise the first of these that fails is the problem. Settings
that pass their check as a whole leave the periods only. And of settings that are accepted, the contract of the
allow-list has an address and the bursts are not zero, so that neither is the problem while a gateway is built. -/
theorem building_exact :
    (∀ raw network hasSource, BuiltExactly raw network hasSource) ∧
      (∀ s : Settings, s.check = .ok () → ∀ p, build s.network.handler s.network true = .error p →
        ∃ h r, HandlerSettings.parse s.network.handler = .ok h ∧ h.rateLimiter = some r ∧ NoPeriod r p) ∧
      (∀ raw s, HandlerSettings.parse raw = .ok s →
        (∀ hasSource p, contract? s hasSource = .error p → hasSource = false ∧ p = noSource) ∧
          ∀ a, s.allowlist = some a → ∃ contract, Address.parse a.contractAddress = .ok contract) ∧
      ∀ r : RateSettings, r.check = .ok () →
        (0 < r.globalBurst ∧ 0 < r.perUserBurst) ∧ ∀ p, Limiter.ofSettings r = .error p → NoPeriod r p := by
  refine ⟨builtExactly, fun s hcheck p hp => ?_, fun raw s hparse => ⟨fun hasSource p hp => ?_, fun a ha => ?_⟩,
    fun r hcheck => ⟨RateSettings.bursts_of_check hcheck, fun p hp => ?_⟩⟩
  · obtain ⟨hnetwork, settings, hsettings⟩ := s.parts_of_check hcheck
    obtain ⟨met, c, rest, -, -, hunmet⟩ := ((builtExactly _ _ _).fails p).1 hp
    cases hunmet with
    | settings h =>
      rw [hsettings] at h
      cases h
    | network h =>
      rw [hnetwork] at h
      cases h
    | source _ _ hnone => cases hnone
    | periods h hrates hnone => exact ⟨_, _, h, hrates, hnone⟩
  · obtain ⟨-, hnone, hsource⟩ := (contract?_eq_error_iff hparse).1 hp
    exact ⟨hnone, hsource⟩
  · exact AllowlistSettings.address_of_check ((HandlerSettings.sections_of_parse hparse).1 a ha)
  · rcases Limiter.ofSettings_cases hcheck with ⟨-, -, l, hl⟩ | ⟨q, hq, hl⟩
    · rw [hl] at hp
      cases hp
    · rw [hl] at hp
      exact Except.error.inj hp ▸ hq

/-- ten thousand million requests per second, for a tenth of a nanosecond each -/
def hurried : HandlerSettings := ⟨none, some ⟨.ofNat 10000000000, 1, .ofNat 1, 1⟩, 0, 0, 1000⟩

def hurriedNetwork : Settings := ⟨.standard, { Network.local4 with handler := hurried.toJson }⟩

/-- settings that pass their check and make no gateway -/
theorem building_exact_hurried :
    hurriedNetwork.check = .ok () ∧
      ∃ p, build hurriedNetwork.network.handler hurriedNetwork.network true = .error p ∧
        ∃ h r, HandlerSettings.parse hurriedNetwork.network.handler = .ok h ∧ h.rateLimiter = some r ∧
          NoPeriod r p := by
  have hcheck : hurriedNetwork.check = .ok () := by
    rw [Settings.check_eq, Problem.report_eq_ok_iff]
    decide +kernel
  have hfails : (build hurriedNetwork.network.handler hurriedNetwork.network true).isOk = false := by decide +kernel
  cases hbuild : build hurriedNetwork.network.handler hurriedNetwork.network true with
  | ok b =>
    rw [hbuild] at hfails
    cases hfails
  | error p => exact ⟨hcheck, p, rfl, building_exact.2.1 hurriedNetwork hcheck p hbuild⟩

end Gateway

end QuorumGateway
