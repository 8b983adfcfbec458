import QuorumGateway.Decimal.Shortest
import QuorumGateway.Proofs.Decimal.Neighbours
/-!
The shortest decimal of a number rounds to the number (`rounds_shortest`). Whatever the search hits does, as it lies in
the number's interval (`has_iff`). The search starts at a power of ten that is not above the number
(`leading_le`), so that the grid of its eighteenth try is finer than the distance to the next midpoint, and there it has
a hit at the latest (`isSome_onGrid_of_fine`).
-/

namespace QuorumGateway.Decimal

/-- what a decimal stands for -/
def Digits.value (d : Digits) : ℚ := d.digits * 10 ^ d.exponent

namespace Shortest

variable {x : Binary64}

theorem ten_zpow_mul (e : Int) : (10 : ℚ) ^ e * (10 ^ (-e).toNat : ℕ) = (10 ^ e.toNat : ℕ) := by
  push_cast
  rw [← zpow_natCast (10 : ℚ) (-e).toNat, ← zpow_natCast (10 : ℚ) e.toNat, ← zpow_add₀ (by norm_num)]
  congr 1
  omega

/-! ## The interval of a number -/

theorem significand_eq (x : Binary64) : x.significand = coefficient x.magnitude := by
  unfold Binary64.significand coefficient
  rw [x.exponentField_eq, x.fractionField_eq]

theorem two_pow_scale (x : Binary64) : 2 ^ x.scale = gap x.magnitude := by
  unfold Binary64.scale gap
  rw [x.exponentField_eq]

/-- the interval counts in units of the least positive number or in greater ones -/
theorem up_mul (s : Nat) : 2 ^ (s - 1074) * perOne = 2 ^ s * 2 ^ (1074 - s) := by
  have hpow : ∀ k, 2 ^ (s - k) * 2 ^ k = 2 ^ s * 2 ^ (k - s) := by
    intro k
    rw [← pow_add, ← pow_add]
    congr 1
    omega
  rw [perOne, hpow 1074]

theorem den_pos (x : Binary64) : 0 < (interval x).den := Nat.mul_pos (by decide) (Nat.two_pow_pos _)

theorem value_interval (x : Binary64) : (interval x).value * perOne = units x.magnitude * (interval x).den := by
  calc (interval x).value * perOne = 4 * x.significand * (2 ^ (x.scale - 1074) * perOne) := by
        simp only [interval]
        ring
    _ = 4 * x.significand * (2 ^ x.scale * 2 ^ (1074 - x.scale)) := by rw [up_mul]
    _ = units x.magnitude * (interval x).den := by
        simp only [interval, units, significand_eq, two_pow_scale]
        ring

theorem high_interval (x : Binary64) :
    2 * ((interval x).high * perOne) = midpoint x.magnitude * (interval x).den := by
  calc 2 * ((interval x).high * perOne) = (4 * x.significand + 2) * 2 * (2 ^ (x.scale - 1074) * perOne) := by
        simp only [interval]
        ring
    _ = (4 * x.significand + 2) * 2 * (2 ^ x.scale * 2 ^ (1074 - x.scale)) := by rw [up_mul]
    _ = midpoint x.magnitude * (interval x).den := by
        simp only [interval, midpoint_eq, units, significand_eq, two_pow_scale]
        ring

/-- the distance to the number before is that to the number after, or half of it below a power of two -/
theorem gap_pred (n : Nat) :
    gap n = if n % 2 ^ 52 = 0 ∧ 1 < n / 2 ^ 52 then 2 * gap (n - 1) else gap (n - 1) := by
  unfold gap
  split_ifs with hclose
  · rw [← pow_succ']
    congr 1
    omega
  · congr 1
    omega

theorem midpoint_pred {n : Nat} (hn : n ≠ 0) : midpoint (n - 1) + gap (n - 1) = 2 * units n := by
  obtain ⟨k, rfl⟩ := Nat.exists_eq_succ_of_ne_zero hn
  rw [Nat.succ_sub_one, midpoint, Nat.succ_eq_add_one, units_succ]
  ring

theorem low_interval (hx : x.magnitude ≠ 0) :
    2 * ((interval x).low * perOne) = midpoint (x.magnitude - 1) * (interval x).den := by
  have hunits := midpoint_pred hx
  have hpos : 0 < coefficient x.magnitude := by
    unfold coefficient
    split_ifs <;> omega
  have hgap := gap_pred x.magnitude
  have hup := up_mul x.scale
  set t := 2 ^ (1074 - x.scale) with ht
  set u := 2 ^ (x.scale - 1074) with hu
  rw [two_pow_scale] at hup
  simp only [interval, significand_eq, Binary64.fractionField_eq, Binary64.exponentField_eq]
  rw [← ht, ← hu]
  unfold units at hunits
  split_ifs at hgap ⊢ with hclose
  · obtain ⟨c, hc⟩ : ∃ c, 4 * coefficient x.magnitude = c + 1 := ⟨4 * coefficient x.magnitude - 1, by omega⟩
    rw [hc, Nat.add_sub_cancel]
    zify at *
    linear_combination 2 * c * hup - 4 * t * hunits - 2 * t * gap x.magnitude * hc - 2 * t * hgap
  · obtain ⟨c, hc⟩ : ∃ c, 4 * coefficient x.magnitude = c + 2 := ⟨4 * coefficient x.magnitude - 2, by omega⟩
    rw [hc, Nat.add_sub_cancel]
    zify at *
    linear_combination 2 * c * hup - 4 * t * hunits - 2 * t * gap x.magnitude * hc - 4 * t * hgap

theorem closed_interval (x : Binary64) : (interval x).closed = true ↔ x.magnitude % 2 = 0 := by
  simp only [interval, significand_eq, coefficient, decide_eq_true_eq]
  split_ifs <;> omega

/-- **The interval of a number** holds what rounds to the number -/
theorem has_iff (hx : x.magnitude ≠ 0) (d : Nat) (e : Int) :
    (interval x).has d (10 ^ e.toNat) (10 ^ (-e).toNat) = true ↔ Rounds x.magnitude (d * 10 ^ e) := by
  have hone : (0 : ℚ) < perOne := by exact_mod_cast perOne_pos
  have hden : (0 : ℚ) < (interval x).den := by exact_mod_cast den_pos x
  have hscale : (0 : ℚ) < (interval x).den * (10 ^ (-e).toNat : ℕ) := mul_pos hden (by positivity)
  -- both sides of a comparison are multiplied by the two denominators
  have hpoint : 2 * (((d * 10 ^ e.toNat * (interval x).den : ℕ) : ℚ) * perOne) =
      2 * (d * 10 ^ e * perOne) * ((interval x).den * (10 ^ (-e).toNat : ℕ)) := by
    rw [Nat.cast_mul, Nat.cast_mul, ← ten_zpow_mul]
    ring
  have hbound : ∀ bound n : Nat, 2 * (bound * perOne) = n * (interval x).den →
      2 * (((bound * 10 ^ (-e).toNat : ℕ) : ℚ) * perOne) = n * ((interval x).den * (10 ^ (-e).toNat : ℕ)) := by
    intro bound n h
    have h : 2 * ((bound : ℚ) * perOne) = n * (interval x).den := by exact_mod_cast h
    rw [Nat.cast_mul]
    linear_combination (10 ^ (-e).toNat : ℕ) * h
  have hlow := hbound _ _ (low_interval hx)
  have hhigh := hbound _ _ (high_interval x)
  have hle : ∀ a b : Nat, a ≤ b ↔ 2 * ((a : ℚ) * perOne) ≤ 2 * (b * perOne) := fun a b => by
    rw [mul_le_mul_iff_right₀ two_pos, mul_le_mul_iff_left₀ hone, Nat.cast_le]
  have hleLow : (interval x).low * 10 ^ (-e).toNat ≤ d * 10 ^ e.toNat * (interval x).den ↔
      (midpoint (x.magnitude - 1) : ℚ) ≤ 2 * (d * 10 ^ e * perOne) := by
    rw [hle, hlow, hpoint, mul_le_mul_iff_left₀ hscale]
  have hleHigh : d * 10 ^ e.toNat * (interval x).den ≤ (interval x).high * 10 ^ (-e).toNat ↔
      2 * ((d : ℚ) * 10 ^ e * perOne) ≤ midpoint x.magnitude := by
    rw [hle, hhigh, hpoint, mul_le_mul_iff_left₀ hscale]
  have hltLow : (interval x).low * 10 ^ (-e).toNat < d * 10 ^ e.toNat * (interval x).den ↔
      (midpoint (x.magnitude - 1) : ℚ) < 2 * (d * 10 ^ e * perOne) := by
    rw [← not_le, ← not_le, hle, hlow, hpoint, mul_le_mul_iff_left₀ hscale]
  have hltHigh : d * 10 ^ e.toNat * (interval x).den < (interval x).high * 10 ^ (-e).toNat ↔
      2 * ((d : ℚ) * 10 ^ e * perOne) < midpoint x.magnitude := by
    rw [← not_le, ← not_le, hle, hhigh, hpoint, mul_le_mul_iff_left₀ hscale]
  unfold Interval.has Rounds
  rcases Nat.mod_two_eq_zero_or_one x.magnitude with heven | hodd
  · rw [if_pos ((closed_interval x).2 heven)]
    simp only [Bool.and_eq_true, decide_eq_true_eq, hleLow, hleHigh]
    exact ⟨fun h => ⟨h.1, h.2, fun hodd => absurd (heven.symm.trans hodd) (by decide)⟩, fun h => ⟨h.1, h.2.1⟩⟩
  · rw [if_neg fun h => absurd ((closed_interval x).1 h) (by omega)]
    simp only [Bool.and_eq_true, decide_eq_true_eq, hltLow, hltHigh]
    constructor
    · rintro ⟨h1, h2⟩
      exact ⟨h1.le, h2.le, fun _ => ⟨h1.ne, h2.ne⟩⟩
    · rintro ⟨h1, h2, hne⟩
      exact ⟨lt_of_le_of_ne h1 (hne hodd).1, lt_of_le_of_ne h2 (hne hodd).2⟩

/-! ## The start of the search -/

/-- a power of ten below a power of two; `10 ^ 3` is a little below `2 ^ 10`, and `10 ^ 28` a little above `2 ^ 93` -/
theorem ten_zpow_le_two_zpow {j k : Int} (hpos : 0 ≤ j → 10 * j ≤ 3 * k) (hneg : j < 0 → 93 * j ≤ 28 * k) :
    (10 : ℚ) ^ j ≤ 2 ^ k := by
  rcases le_or_gt 0 j with hj | hj
  · obtain ⟨n, rfl⟩ := Int.eq_ofNat_of_zero_le hj
    refine le_of_pow_le_pow_left₀ three_ne_zero (by positivity) ?_
    calc ((10 : ℚ) ^ (n : Int)) ^ 3 = (10 ^ 3) ^ n := by rw [zpow_natCast, ← pow_mul, ← pow_mul, mul_comm]
      _ ≤ (2 ^ 10) ^ n := pow_le_pow_left₀ (by norm_num) (by norm_num) n
      _ = 2 ^ (10 * n : Int) := by rw [← pow_mul, ← zpow_natCast]; rfl
      _ ≤ 2 ^ (k * 3) := zpow_le_zpow_right₀ one_le_two (by have := hpos hj; omega)
      _ = ((2 : ℚ) ^ k) ^ 3 := by rw [zpow_mul]; rfl
  · obtain ⟨n, hn⟩ := Int.eq_ofNat_of_zero_le (by omega : 0 ≤ -j)
    refine le_of_pow_le_pow_left₀ (n := 28) (by norm_num) (by positivity) ?_
    calc ((10 : ℚ) ^ j) ^ 28 = ((10 ^ 28) ^ n)⁻¹ := by
          rw [show j = -(n : Int) by omega, zpow_neg, zpow_natCast, inv_pow, ← pow_mul, ← pow_mul, mul_comm]
      _ ≤ ((2 ^ 93) ^ n)⁻¹ := inv_anti₀ (by positivity) (pow_le_pow_left₀ (by norm_num) (by norm_num) n)
      _ = 2 ^ (-(93 * n) : Int) := by rw [zpow_neg, ← pow_mul, ← zpow_natCast]; rfl
      _ ≤ 2 ^ (k * 28) := zpow_le_zpow_right₀ one_le_two (by have := hneg hj; omega)
      _ = ((2 : ℚ) ^ k) ^ 28 := by rw [zpow_mul]; rfl

/-- the search for the leading digit ends at a power of ten that is not above the quotient -/
theorem ten_zpow_leading {num den : Nat} (hden : 0 < den) (steps : Nat) (e : Int)
    (h : (10 : ℚ) ^ (e - steps) ≤ num / den) : (10 : ℚ) ^ leading num den steps e ≤ num / den := by
  have hden' : (0 : ℚ) < den := by exact_mod_cast hden
  induction steps generalizing e with
  | zero => simpa [leading] using h
  | succ steps ih =>
    rw [leading]
    split_ifs with hle
    · have hten : (0 : ℚ) < (10 ^ (-e).toNat : ℕ) := by positivity
      have hle : (den : ℚ) * (10 ^ e.toNat : ℕ) ≤ num * (10 ^ (-e).toNat : ℕ) := by exact_mod_cast hle
      rw [← ten_zpow_mul, ← mul_assoc] at hle
      rw [le_div_iff₀ hden', mul_comm]
      exact le_of_mul_le_mul_right hle hten
    · exact ih (e - 1) (by rw [show e - 1 - (steps : Int) = e - ((steps + 1 : ℕ) : Int) by push_cast; ring]; exact h)

theorem ratio_mul (x : Binary64) : x.ratio.1 * perOne = units x.magnitude * x.ratio.2 := by
  have hup := up_mul x.scale
  rw [two_pow_scale] at hup
  unfold Binary64.ratio units
  split_ifs with hscale
  · have hdown : 1074 - x.scale = 0 := by omega
    simp only [hdown, pow_zero, mul_one] at hup ⊢
    rw [significand_eq, mul_assoc, hup]
  · have hdown : x.scale - 1074 = 0 := by omega
    simp only [hdown, pow_zero, one_mul] at hup ⊢
    rw [significand_eq, hup, mul_assoc]

theorem ratio_pos (hx : x.magnitude ≠ 0) : 0 < x.ratio.1 ∧ 0 < x.ratio.2 := by
  have hpos : 0 < x.significand := by
    rw [significand_eq, coefficient]
    split_ifs <;> omega
  unfold Binary64.ratio
  split_ifs
  · exact ⟨Nat.mul_pos hpos (Nat.two_pow_pos _), Nat.one_pos⟩
  · exact ⟨hpos, Nat.two_pow_pos _⟩

/-- the sizes of the two parts of a quotient lie within the range of the format -/
theorem log2_ratio (hx : x.magnitude ≠ 0) :
    (x.ratio.1.log2 : Int) - x.ratio.2.log2 ≤ 1025 ∧ -1074 ≤ (x.ratio.1.log2 : Int) - x.ratio.2.log2 := by
  have hcoefficient : x.significand < 2 ^ 53 := significand_eq x ▸ coefficient_lt _
  have hscale : x.scale ≤ 2046 := by
    unfold Binary64.scale Binary64.exponentField
    omega
  have hpos := (ratio_pos hx).1
  unfold Binary64.ratio at hpos ⊢
  split_ifs at hpos ⊢ with hbig <;> dsimp only at hpos ⊢
  · have hlt : x.significand * 2 ^ (x.scale - 1074) < 2 ^ (53 + (x.scale - 1074)) := by
      rw [pow_add]
      exact Nat.mul_lt_mul_of_pos_right hcoefficient (Nat.two_pow_pos _)
    have hlog := (Nat.log2_lt hpos.ne').2 hlt
    have hone : Nat.log2 1 = 0 := rfl
    rw [hone]
    omega
  · have hlog := (Nat.log2_lt hpos.ne').2 hcoefficient
    rw [Nat.log2_two_pow]
    omega

/-- a quotient is above the power of two that the sizes of its parts give -/
theorem two_zpow_le_ratio (hx : x.magnitude ≠ 0) :
    (2 : ℚ) ^ ((x.ratio.1.log2 : Int) - x.ratio.2.log2 - 1) ≤ x.ratio.1 / x.ratio.2 := by
  obtain ⟨hnum, hden⟩ := ratio_pos hx
  have hlow : ((2 ^ x.ratio.1.log2 : ℕ) : ℚ) ≤ x.ratio.1 := by exact_mod_cast Nat.log2_self_le hnum.ne'
  have hhigh : (x.ratio.2 : ℚ) ≤ (2 ^ (x.ratio.2.log2 + 1) : ℕ) := by exact_mod_cast Nat.lt_log2_self.le
  have hden' : (0 : ℚ) < x.ratio.2 := by exact_mod_cast hden
  push_cast at hlow hhigh
  calc (2 : ℚ) ^ ((x.ratio.1.log2 : Int) - x.ratio.2.log2 - 1)
      = 2 ^ x.ratio.1.log2 / 2 ^ (x.ratio.2.log2 + 1) := by
        rw [← zpow_natCast, ← zpow_natCast, ← zpow_sub₀ two_ne_zero]
        congr 1
        push_cast
        ring
    _ ≤ x.ratio.1 / x.ratio.2 := div_le_div₀ (by positivity) hlow hden' hhigh

/-- the position from which the search for the leading digit goes downward -/
def guess (x : Binary64) : Int := ((x.ratio.1.log2 : Int) - x.ratio.2.log2 + 1) * 30103 / 100000 + 1

/-- **The search starts low enough** -/
theorem leading_le (hx : x.magnitude ≠ 0) :
    (10 : ℚ) ^ leading (interval x).value (interval x).den 4 (guess x) * perOne ≤ units x.magnitude := by
  have hone : (0 : ℚ) < perOne := by exact_mod_cast perOne_pos
  have hden : (0 : ℚ) < (interval x).den := by exact_mod_cast den_pos x
  have hden' : (0 : ℚ) < x.ratio.2 := by exact_mod_cast (ratio_pos hx).2
  have hvalue : ((interval x).value : ℚ) * perOne = units x.magnitude * (interval x).den := by
    exact_mod_cast value_interval x
  have hratio : (x.ratio.1 : ℚ) * perOne = units x.magnitude * x.ratio.2 := by exact_mod_cast ratio_mul x
  have hsame : ((interval x).value : ℚ) / (interval x).den = x.ratio.1 / x.ratio.2 := by
    rw [div_eq_div_iff hden.ne' hden'.ne']
    refine mul_right_cancel₀ hone.ne' ?_
    linear_combination x.ratio.2 * hvalue - (interval x).den * hratio
  obtain ⟨hupper, hlower⟩ := log2_ratio hx
  have hstart : (10 : ℚ) ^ (guess x - (4 : ℕ)) ≤ (interval x).value / (interval x).den := by
    rw [hsame]
    refine (ten_zpow_le_two_zpow (fun _ => ?_) fun _ => ?_).trans (two_zpow_le_ratio hx) <;>
    · unfold guess
      omega
  have hle := ten_zpow_leading (den_pos x) 4 (guess x) hstart
  rw [le_div_iff₀ hden] at hle
  refine le_of_mul_le_mul_right ?_ hden
  rw [← hvalue]
  linarith [mul_le_mul_of_nonneg_right hle hone.le]

/-! ## Hits -/

/-- a hit on a grid lies in the interval -/
theorem has_of_onGrid {i : Interval} {e : Int} {d : Digits} (h : onGrid i e = some d) :
    d.exponent = e ∧ i.has d.digits (10 ^ e.toNat) (10 ^ (-e).toNat) = true := by
  unfold onGrid at h
  simp only at h
  split at h
  · rename_i hdown hup
    split_ifs at h <;> obtain rfl := Option.some.inj h
    · exact ⟨rfl, hdown⟩
    · exact ⟨rfl, hup⟩
    · -- the even one of two neighbours
      rcases Nat.mod_two_eq_zero_or_one (i.value * 10 ^ (-e).toNat / (10 ^ e.toNat * i.den)) with heven | hodd
      · exact ⟨rfl, by rw [heven]; exact hdown⟩
      · exact ⟨rfl, by rw [hodd]; exact hup⟩
  · rename_i hdown hup
    obtain rfl := Option.some.inj h
    exact ⟨rfl, hdown⟩
  · rename_i hdown hup
    obtain rfl := Option.some.inj h
    exact ⟨rfl, hup⟩
  · exact absurd h (by simp)

/-- there is a hit on a grid when the value's upper neighbour is one -/
theorem isSome_onGrid {i : Interval} {e : Int}
    (h : i.has (i.value * 10 ^ (-e).toNat / (10 ^ e.toNat * i.den) + 1) (10 ^ e.toNat) (10 ^ (-e).toNat) = true) :
    (onGrid i e).isSome = true := by
  unfold onGrid
  simp only [h]
  split
  · split_ifs <;> rfl
  · rfl
  · rfl
  · simp_all

/-- what the search finds is a hit on a grid -/
theorem onGrid_of_search {i : Interval} {top : Int} {tries n : Nat} {d : Digits} (h : search i top tries n = some d) :
    ∃ e, onGrid i e = some d := by
  induction tries generalizing n with
  | zero => simp [search] at h
  | succ tries ih =>
    rw [search] at h
    cases hgrid : onGrid i (top - n + 1) with
    | some d' =>
      rw [hgrid] at h
      exact ⟨_, hgrid.trans h⟩
    | none =>
      rw [hgrid] at h
      exact ih h

/-- the search ends with a hit when one of its grids has one -/
theorem isSome_search {i : Interval} {top : Int} {tries n k : Nat} (hk : k < tries)
    (h : (onGrid i (top - (n + k : ℕ) + 1)).isSome = true) : (search i top tries n).isSome = true := by
  induction tries generalizing n k with
  | zero => omega
  | succ tries ih =>
    rw [search]
    cases hgrid : onGrid i (top - n + 1) with
    | some d => rfl
    | none =>
      cases k with
      | zero =>
        rw [Nat.add_zero, hgrid] at h
        simp at h
      | succ k =>
        refine ih (k := k) (by omega) ?_
        rw [show n + 1 + k = n + (k + 1) by omega]
        exact h

/-- the multiples of a power of ten around a number -/
theorem down_bounds (x : Binary64) (e : Int) :
    let down := (interval x).value * 10 ^ (-e).toNat / (10 ^ e.toNat * (interval x).den)
    (down : ℚ) * 10 ^ e * perOne ≤ units x.magnitude ∧ units x.magnitude < (down + 1) * (10 : ℚ) ^ e * perOne := by
  intro down
  have hone : (0 : ℚ) < perOne := by exact_mod_cast perOne_pos
  have hden : (0 : ℚ) < (interval x).den := by exact_mod_cast den_pos x
  have hten : (0 : ℚ) < (10 ^ (-e).toNat : ℕ) := by positivity
  have hunit : 0 < 10 ^ e.toNat * (interval x).den := Nat.mul_pos (by positivity) (den_pos x)
  have hvalue : ((interval x).value : ℚ) * perOne = units x.magnitude * (interval x).den := by
    exact_mod_cast value_interval x
  have hle : (down : ℚ) * ((10 ^ e.toNat : ℕ) * (interval x).den) ≤ (interval x).value * (10 ^ (-e).toNat : ℕ) := by
    exact_mod_cast Nat.div_mul_le_self _ _
  have hlt : ((interval x).value : ℚ) * (10 ^ (-e).toNat : ℕ) <
      (down + 1) * ((10 ^ e.toNat : ℕ) * (interval x).den) := by
    exact_mod_cast Nat.lt_mul_of_div_lt (Nat.lt_succ_self _) hunit
  rw [← ten_zpow_mul e] at hle hlt
  have hscale : 0 < (interval x).den * ((10 ^ (-e).toNat : ℕ) : ℚ) := mul_pos hden hten
  constructor
  · refine le_of_mul_le_mul_right ?_ hscale
    calc (down : ℚ) * 10 ^ e * perOne * ((interval x).den * (10 ^ (-e).toNat : ℕ))
        = down * (10 ^ e * (10 ^ (-e).toNat : ℕ) * (interval x).den) * perOne := by ring
      _ ≤ (interval x).value * (10 ^ (-e).toNat : ℕ) * perOne := mul_le_mul_of_nonneg_right hle hone.le
      _ = units x.magnitude * ((interval x).den * (10 ^ (-e).toNat : ℕ)) := by
        linear_combination (10 ^ (-e).toNat : ℕ) * hvalue
  · refine lt_of_mul_lt_mul_right ?_ hscale.le
    calc (units x.magnitude : ℚ) * ((interval x).den * (10 ^ (-e).toNat : ℕ))
        = (interval x).value * (10 ^ (-e).toNat : ℕ) * perOne := by
          linear_combination -((10 ^ (-e).toNat : ℕ) : ℚ) * hvalue
      _ < (down + 1) * (10 ^ e * (10 ^ (-e).toNat : ℕ) * (interval x).den) * perOne :=
        mul_lt_mul_of_pos_right hlt hone
      _ = (down + 1) * (10 : ℚ) ^ e * perOne * ((interval x).den * (10 ^ (-e).toNat : ℕ)) := by ring

/-- a grid that is finer than the distance to the next midpoint has a hit -/
theorem isSome_onGrid_of_fine (hx : x.magnitude ≠ 0) {e : Int} (hfine : 2 * ((10 : ℚ) ^ e * perOne) < gap x.magnitude) :
    (onGrid (interval x) e).isSome = true := by
  obtain ⟨hle, hlt⟩ := down_bounds x e
  set down := (interval x).value * 10 ^ (-e).toNat / (10 ^ e.toNat * (interval x).den)
  have hpred : (midpoint (x.magnitude - 1) : ℚ) + gap (x.magnitude - 1) = 2 * units x.magnitude := by
    exact_mod_cast midpoint_pred hx
  have hpos : (0 : ℚ) < gap (x.magnitude - 1) := by exact_mod_cast gap_pos _
  have hnext : (midpoint x.magnitude : ℚ) = 2 * units x.magnitude + gap x.magnitude := by
    exact_mod_cast midpoint_eq _
  have hupper : ((down + 1 : ℕ) : ℚ) * 10 ^ e * perOne = down * 10 ^ e * perOne + 10 ^ e * perOne := by
    push_cast
    ring
  have hlt : (units x.magnitude : ℚ) < ((down + 1 : ℕ) : ℚ) * 10 ^ e * perOne := by exact_mod_cast hlt
  have habove : (midpoint (x.magnitude - 1) : ℚ) < 2 * (((down + 1 : ℕ) : ℚ) * 10 ^ e * perOne) := by linarith
  have hbelow : 2 * (((down + 1 : ℕ) : ℚ) * 10 ^ e * perOne) < midpoint x.magnitude := by linarith
  exact isSome_onGrid ((has_iff hx (down + 1) e).2 ⟨habove.le, hbelow.le, fun _ => ⟨habove.ne, hbelow.ne⟩⟩)

theorem value_strip (fuel : Nat) (d : Digits) : (strip fuel d).value = d.value := by
  induction fuel generalizing d with
  | zero => rfl
  | succ fuel ih =>
    rw [strip]
    split_ifs with hzero
    · have hdigits : d.digits = 10 * (d.digits / 10) := by omega
      have hcast : (d.digits : ℚ) = 10 * (d.digits / 10 : ℕ) := by exact_mod_cast hdigits
      rw [ih, Digits.value, Digits.value, zpow_add_one₀ (by norm_num), hcast]
      ring
    · rfl

theorem shortest_of_search {d : Digits}
    (h : search (interval x) (leading (interval x).value (interval x).den 4 (guess x)) 18 1 = some d) :
    shortest x = strip 20 d := by
  unfold guess at h
  unfold shortest
  simp only [h]

end Shortest

open Shortest in
/-- **The shortest decimal of a number rounds to the number** -/
theorem rounds_shortest {x : Binary64} (hx : x.magnitude ≠ 0) : Rounds x.magnitude (shortest x).value := by
  have hstart := leading_le hx
  set top := leading (interval x).value (interval x).den 4 (guess x) with htop
  have hgap : (0 : ℚ) < gap x.magnitude := by exact_mod_cast gap_pos _
  have hunits : (units x.magnitude : ℚ) ≤ 2 ^ 53 * gap x.magnitude := by
    rw [units, Nat.cast_mul]
    exact mul_le_mul_of_nonneg_right (by exact_mod_cast (coefficient_lt _).le) hgap.le
  -- the grid with eighteen digits is fine enough
  have hfine : 2 * ((10 : ℚ) ^ (top - (1 + 17 : ℕ) + 1) * perOne) < gap x.magnitude := by
    have hten : (10 : ℚ) ^ (17 : Int) = 10 ^ 17 := rfl
    calc 2 * ((10 : ℚ) ^ (top - (1 + 17 : ℕ) + 1) * perOne) = 2 * (10 ^ top * perOne / 10 ^ 17) := by
          rw [show top - ((1 + 17 : ℕ) : Int) + 1 = top - 17 by push_cast; ring, zpow_sub₀ (by norm_num), hten]
          ring
      _ ≤ 2 * (2 ^ 53 * gap x.magnitude / 10 ^ 17) := by
          have hle := hstart.trans hunits
          gcongr
      _ < gap x.magnitude := by linarith
  have hfound : (search (interval x) top 18 1).isSome = true :=
    isSome_search (by omega) (isSome_onGrid_of_fine hx hfine)
  obtain ⟨d, hd⟩ := Option.isSome_iff_exists.1 hfound
  obtain ⟨e, hgrid⟩ := onGrid_of_search hd
  obtain ⟨rfl, hhas⟩ := has_of_onGrid hgrid
  rw [shortest_of_search hd, value_strip]
  exact (has_iff hx d.digits d.exponent).1 hhas

end QuorumGateway.Decimal
