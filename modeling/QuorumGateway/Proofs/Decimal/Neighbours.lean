import Mathlib.Tactic
import QuorumGateway.Decimal.Binary64
/-!
The finite numbers of the binary format in their order. Without its sign bit, a number is a natural number
(`magnitude`), and what it stands for grows with that: it is a multiple of the least positive number of the format
(`units`), and the next number is a power of two of those away (`gap`). What rounds to a number lies between the
midpoints to its neighbours (`Rounds`), and nothing rounds to two numbers (`Rounds.unique`): a midpoint belongs to the
one of its two neighbours that is even.
-/

namespace QuorumGateway.Decimal

namespace Binary64

/-- the bits of a number without the sign -/
def magnitude (x : Binary64) : Nat := x.bits.toNat % 2 ^ 63

theorem exponentField_eq (x : Binary64) : x.exponentField = x.magnitude / 2 ^ 52 := by
  unfold exponentField magnitude
  omega

theorem fractionField_eq (x : Binary64) : x.fractionField = x.magnitude % 2 ^ 52 := by
  unfold fractionField magnitude
  omega

theorem isZero_iff (x : Binary64) : x.isZero = true ↔ x.magnitude = 0 := by
  simp only [isZero, exponentField_eq, fractionField_eq, Bool.and_eq_true, beq_iff_eq]
  omega

/-- a number is its sign and its magnitude -/
theorem eq_of_magnitude {x y : Binary64} (hsign : x.negative = y.negative) (h : x.magnitude = y.magnitude) : x = y := by
  have hx := x.bits.toNat_lt
  have hy := y.bits.toNat_lt
  unfold negative at hsign
  rw [Bool.eq_iff_iff, beq_iff_eq, beq_iff_eq] at hsign
  have hbits : x.bits.toNat = y.bits.toNat := by
    unfold magnitude at h
    omega
  cases x
  cases y
  exact congrArg Binary64.mk (UInt64.toNat_inj.1 hbits)

end Binary64

/-! ## Magnitudes in order -/

/-- the distance from a magnitude to the next, in least positive numbers -/
def gap (n : Nat) : Nat := 2 ^ (n / 2 ^ 52 - 1)

/-- the significand of a magnitude -/
def coefficient (n : Nat) : Nat := if n / 2 ^ 52 = 0 then n % 2 ^ 52 else 2 ^ 52 + n % 2 ^ 52

/-- how many least positive numbers make one -/
def perOne : Nat := 2 ^ 1074

/-- what a magnitude stands for, in least positive numbers -/
def units (n : Nat) : Nat := coefficient n * gap n

/-- twice the midpoint between a magnitude and the next, in least positive numbers -/
def midpoint (n : Nat) : Nat := units n + units (n + 1)

theorem perOne_pos : 0 < perOne := by
  unfold perOne
  positivity

theorem gap_pos (n : Nat) : 0 < gap n := Nat.two_pow_pos _

theorem coefficient_lt (n : Nat) : coefficient n < 2 ^ 53 := by
  unfold coefficient
  split_ifs <;> omega

theorem units_succ (n : Nat) : units (n + 1) = units n + gap n := by
  unfold units coefficient gap
  by_cases hcarry : n % 2 ^ 52 + 1 = 2 ^ 52
  · -- the next number has the next exponent and no fraction
    have hexponent : (n + 1) / 2 ^ 52 = n / 2 ^ 52 + 1 := by omega
    have hfraction : (n + 1) % 2 ^ 52 = 0 := by omega
    have hlast : n % 2 ^ 52 = 2 ^ 52 - 1 := by omega
    rw [hexponent, hfraction, hlast]
    rcases hzero : n / 2 ^ 52 with _ | e
    · simp
    · simp only [Nat.add_sub_cancel, Nat.add_eq_zero_iff, one_ne_zero, and_false, if_false]
      ring
  · have hexponent : (n + 1) / 2 ^ 52 = n / 2 ^ 52 := by omega
    have hfraction : (n + 1) % 2 ^ 52 = n % 2 ^ 52 + 1 := by omega
    rw [hexponent, hfraction]
    split_ifs <;> ring

theorem midpoint_eq (n : Nat) : midpoint n = 2 * units n + gap n := by
  rw [midpoint, units_succ]
  ring

theorem units_strictMono : StrictMono units :=
  strictMono_nat_of_lt_succ fun n => by
    rw [units_succ]
    exact Nat.lt_add_of_pos_right (gap_pos n)

theorem midpoint_strictMono : StrictMono midpoint :=
  strictMono_nat_of_lt_succ fun n =>
    Nat.add_lt_add (units_strictMono n.lt_succ_self) (units_strictMono (n + 1).lt_succ_self)

theorem midpoint_pos (n : Nat) : 0 < midpoint n :=
  Nat.lt_of_lt_of_le (by decide) (midpoint_strictMono.monotone n.zero_le)

/-! ## Rounding -/

/-- whether a value rounds to a magnitude other than zero: it lies between the midpoints to the neighbours, which belong
to the even magnitudes -/
def Rounds (n : Nat) (r : ℚ) : Prop :=
  (midpoint (n - 1) : ℚ) ≤ 2 * (r * perOne) ∧ 2 * (r * perOne) ≤ midpoint n ∧
    (n % 2 = 1 → (midpoint (n - 1) : ℚ) ≠ 2 * (r * perOne) ∧ 2 * (r * perOne) ≠ midpoint n)

theorem Rounds.pos {n : Nat} {r : ℚ} (h : Rounds n r) : 0 < r := by
  have hmid : (0 : ℚ) < midpoint (n - 1) := by exact_mod_cast midpoint_pos (n - 1)
  have hone : (0 : ℚ) < perOne := by exact_mod_cast perOne_pos
  have hscaled : 0 < r * perOne := (mul_pos_iff_of_pos_left two_pos).1 (hmid.trans_le h.1)
  exact (mul_pos_iff_of_pos_right hone).1 hscaled

theorem Rounds.le {n n' : Nat} {r : ℚ} (h : Rounds n r) (h' : Rounds n' r) : n' ≤ n := by
  by_contra hlt
  -- the upper midpoint of the lesser magnitude is not above the lower one of the greater
  have hle : midpoint n ≤ midpoint (n' - 1) := midpoint_strictMono.monotone (by omega)
  have heq : midpoint n = midpoint (n' - 1) :=
    le_antisymm hle (by exact_mod_cast h'.1.trans h.2.1)
  have hnext : n = n' - 1 := midpoint_strictMono.injective heq
  have hupper : 2 * (r * perOne) = midpoint n := le_antisymm h.2.1 (heq ▸ h'.1)
  -- one of two neighbours is odd, and the midpoint is not its own
  rcases Nat.mod_two_eq_zero_or_one n with heven | hodd
  · exact (h'.2.2 (by omega)).1 (heq ▸ hupper.symm)
  · exact (h.2.2 hodd).2 hupper

/-- **Nothing rounds to two numbers** -/
theorem Rounds.unique {n n' : Nat} {r : ℚ} (h : Rounds n r) (h' : Rounds n' r) : n = n' :=
  le_antisymm (h'.le h) (h.le h')

end QuorumGateway.Decimal
