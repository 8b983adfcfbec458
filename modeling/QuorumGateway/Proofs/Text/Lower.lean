import Mathlib.Tactic
import QuorumGateway.Text.Ascii
import QuorumGateway.Text.Blank
/-!
Small letters and blanks. As no letter is a blank, a text may be turned into small letters before or after blanks are
taken from its ends (`trim_lower`).
-/

namespace QuorumGateway.Text

/-- a character is its own small letter, or it is an ASCII capital and comes 32 places before it -/
theorem toLower_cases (c : Char) :
    (c.toLower = c ∧ ¬ (65 ≤ c.toNat ∧ c.toNat ≤ 90)) ∨
      (65 ≤ c.toNat ∧ c.toNat ≤ 90 ∧ c.toLower.toNat = c.toNat + 32) := by
  unfold Char.toLower
  split
  · rename_i hcapital
    obtain ⟨hlow, hhigh⟩ := hcapital
    have hlow : 65 ≤ c.toNat := hlow
    have hhigh : c.toNat ≤ 90 := hhigh
    refine .inr ⟨hlow, hhigh, ?_⟩
    have hsum : (c.val + ('a'.val - 'A'.val)).toNat = (c.toNat + 32) % 2 ^ 32 := rfl
    exact hsum.trans (Nat.mod_eq_of_lt (by omega))
  · rename_i hother
    exact .inl ⟨rfl, fun h => hother h⟩

theorem toLower_toLower (c : Char) : c.toLower.toLower = c.toLower := by
  rcases toLower_cases c with ⟨hsame, -⟩ | ⟨hlow, -, hshift⟩
  · rw [hsame, hsame]
  · rcases toLower_cases c.toLower with ⟨hsame, -⟩ | ⟨-, hhigh, -⟩
    · exact hsame
    · omega

theorem isBlank_toLower (c : Char) : isBlank c.toLower = isBlank c := by
  rcases toLower_cases c with ⟨hsame, -⟩ | ⟨hlow, hhigh, hshift⟩
  · rw [hsame]
  · -- neither a capital nor its small letter is a blank
    rw [Bool.eq_iff_iff]
    simp only [isBlank, hshift, Bool.or_eq_true, Bool.and_eq_true, decide_eq_true_eq, beq_iff_eq]
    omega

theorem trimEnd_map_toLower (cs : List Char) : trimEnd (cs.map Char.toLower) = (trimEnd cs).map Char.toLower := by
  induction cs with
  | nil => rfl
  | cons c cs ih =>
    simp only [List.map_cons, trimEnd, ih, isBlank_toLower]
    cases trimEnd cs with
    | nil => by_cases hblank : isBlank c = true <;> simp [hblank]
    | cons c' rest => rfl

theorem trim_lower (s : String) : trim (lower s) = lower (trim s) := by
  have hblank : isBlank ∘ Char.toLower = isBlank := funext isBlank_toLower
  simp only [trim, lower, trimChars, String.toList_ofList, List.dropWhile_map, hblank, trimEnd_map_toLower]

end QuorumGateway.Text
