import QuorumGateway.Decimal.Reader
import QuorumGateway.Proofs.Text.Lower
/-!
What the different readers of numbers make of one text. A text that is a whole number for one of them is a decimal for
the others, with the same value (`float?_of_digits`, `int?_of_word?`, `ofInt_of_int?`): which reader comes first decides
only how the number is kept.
-/

namespace QuorumGateway.Decimal

variable {cs : List Char} {s : String} {n : Nat}

/-! ## Digits -/

theorem exists_takeDigits (h : digits? cs = some n) : ∃ count, 0 < count ∧ takeDigits 0 cs = (n, count, []) := by
  unfold digits? at h
  split at h
  · next v count heq =>
    split_ifs at h with hcount
    cases h
    exact ⟨count, hcount, heq⟩
  · cases h

theorem exists_digit (h : digits? cs = some n) : ∃ c rest d, cs = c :: rest ∧ Text.digit? c = some d := by
  obtain ⟨count, hcount, heq⟩ := exists_takeDigits h
  cases cs with
  | nil =>
    cases heq
    cases hcount
  | cons c rest =>
    rw [takeDigits] at heq
    cases hd : Text.digit? c with
    | none =>
      rw [hd] at heq
      cases heq
    | some d => exact ⟨c, rest, d, rfl, hd⟩

theorem digit?_eq_none_of_lt {c : Char} (h : 57 < c.toNat) : Text.digit? c = none := by
  unfold Text.digit?
  rw [if_neg]
  rintro ⟨-, hhigh⟩
  have hhigh : c.toNat ≤ 57 := hhigh
  omega

theorem toNat_le_of_digit {c : Char} {d : Nat} (h : Text.digit? c = some d) : c.toNat ≤ 57 := by
  by_contra hlt
  rw [digit?_eq_none_of_lt (not_le.1 hlt)] at h
  cases h

/-- a character whose small letter comes after the digits comes after them itself -/
theorem lt_of_lt_toLower {c : Char} (h : 57 < c.toLower.toNat) : 57 < c.toNat := by
  rcases Text.toLower_cases c with ⟨hsame, -⟩ | ⟨hcapital, -, -⟩
  · rwa [hsame] at h
  · omega

/-! ## Decimals -/

theorem decimal?_of_digits (h : digits? cs = some n) (negative : Bool) :
    decimal? negative cs = some (Binary64.ofRatio negative n 1) := by
  obtain ⟨count, hcount, heq⟩ := exists_takeDigits h
  have hclamp : clampExponent count 0 = 0 := by
    unfold clampExponent
    rw [if_neg (by omega), if_neg (by omega)]
  simp [decimal?, heq, exponent?, hclamp, Binary64.ofDecimal, hcount.ne']

/-- the words that are read as numbers start with two letters -/
theorem float?_eq_decimal? (hword : ∀ rest, (Text.lower (String.ofList (takeSign s.toList).2)).toList ≠ 'i' :: rest ∧
      (Text.lower (String.ofList (takeSign s.toList).2)).toList ≠ 'n' :: rest) :
    float? s = decimal? (takeSign s.toList).1 (takeSign s.toList).2 := by
  have hne : ∀ w : String, (∃ rest, w.toList = 'i' :: rest ∨ w.toList = 'n' :: rest) →
      Text.lower (String.ofList (takeSign s.toList).2) ≠ w := by
    rintro w ⟨rest, hw⟩ rfl
    exact hw.elim (hword rest).1 (hword rest).2
  have hinf := hne "inf" ⟨['n', 'f'], .inl rfl⟩
  have hinfinity := hne "infinity" ⟨['n', 'f', 'i', 'n', 'i', 't', 'y'], .inl rfl⟩
  have hnan := hne "nan" ⟨['a', 'n'], .inr rfl⟩
  exact (if_neg (not_or.2 ⟨hinf, hinfinity⟩)).trans (if_neg hnan)

/-- **A whole number, of any size, is the decimal nearest to it** -/
theorem float?_of_digits (h : digits? (takeSign s.toList).2 = some n) :
    float? s = some (Binary64.ofRatio (takeSign s.toList).1 n 1) := by
  rw [float?_eq_decimal?, decimal?_of_digits h]
  obtain ⟨c, rest', d, hcs, hd⟩ := exists_digit h
  have hhigh : ¬57 < c.toLower.toNat := fun hlt => absurd (lt_of_lt_toLower hlt) (not_lt.2 (toNat_le_of_digit hd))
  intro rest
  simp only [hcs, Text.lower, String.toList_ofList, List.map_cons, ne_eq, List.cons.injEq, not_and]
  exact ⟨fun heq => absurd (by rw [heq]; decide) hhigh, fun heq => absurd (by rw [heq]; decide) hhigh⟩

/-- a word that starts with neither a digit, a sign nor the letters of the words for numbers is no number -/
theorem float?_of_word {c : Char} {rest : List Char} (hc : 57 < c.toNat) (hi : c ≠ 'i') (hn : c ≠ 'n')
    (h : (Text.lower s).toList = c :: rest) : float? s = none := by
  simp only [Text.lower, String.toList_ofList] at h
  obtain ⟨first, others, hs, hfirst, -⟩ := List.map_eq_cons_iff.1 h
  have hlow : 57 < first.toNat := lt_of_lt_toLower (hfirst ▸ hc)
  have hne : ∀ other : Char, other.toNat ≤ 57 → first ≠ other := by
    rintro other hother rfl
    omega
  have hsign : takeSign s.toList = (false, s.toList) := by
    rw [hs]
    unfold takeSign
    split
    · next heq => exact absurd (List.cons.inj heq).1 (hne '-' (by decide))
    · next heq => exact absurd (List.cons.inj heq).1 (hne '+' (by decide))
    · rfl
  rw [float?_eq_decimal?]
  · have hdigits : takeDigits 0 s.toList = (0, 0, s.toList) := by
      rw [hs, takeDigits, digit?_eq_none_of_lt hlow]
    simp only [hsign, decimal?, hdigits]
    split
    · next heq => exact absurd (List.cons.inj (hs.symm.trans heq)).1 (hne '.' (by decide))
    · rfl
  · intro rest'
    simp only [hsign, Text.lower, String.toList_ofList, h, ne_eq, List.cons.injEq, not_and]
    exact ⟨fun heq => absurd heq hi, fun heq => absurd heq hn⟩

/-! ## Whole numbers -/

theorem int?_eq (s : String) :
    int? s = (digits? (takeSign s.toList).2).bind fun n =>
      if (takeSign s.toList).1 then (if n ≤ 2 ^ 63 then some (-(n : Int)) else none)
      else (if n < 2 ^ 63 then some (n : Int) else none) := by
  unfold int?
  obtain ⟨negative, cs⟩ := takeSign s.toList
  dsimp only
  cases digits? cs <;> rfl

theorem word?_eq (s : String) :
    word? s = if (takeSign s.toList).1 then none else
      (digits? (takeSign s.toList).2).bind fun n => if n < 2 ^ 64 then some n else none := by
  unfold takeSign
  split
  · next rest heq =>
    unfold word?
    rw [heq]
    rfl
  · next rest heq =>
    unfold word?
    rw [heq]
    cases hdigits : digits? rest <;> simp [hdigits]
  · next hminus hplus =>
    unfold word?
    split
    · next rest heq => exact (hplus rest heq).elim
    · dsimp only
      cases digits? s.toList <;> rfl

theorem word?_eq_some_iff :
    word? s = some n ↔ (takeSign s.toList).1 = false ∧ digits? (takeSign s.toList).2 = some n ∧ n < 2 ^ 64 := by
  rw [word?_eq]
  cases (takeSign s.toList).1 with
  | true => simp
  | false =>
    cases digits? (takeSign s.toList).2 with
    | none => simp
    | some m =>
      simp only [Bool.false_eq_true, if_false, Option.bind_some, Option.ite_none_right_eq_some, Option.some.injEq,
        true_and]
      exact ⟨fun ⟨hlt, heq⟩ => ⟨heq, heq ▸ hlt⟩, fun ⟨heq, hlt⟩ => ⟨heq ▸ hlt, heq⟩⟩

theorem int?_of_word? (h : word? s = some n) : int? s = if n < 2 ^ 63 then some (n : Int) else none := by
  obtain ⟨hsign, hdigits, -⟩ := word?_eq_some_iff.1 h
  rw [int?_eq, hdigits, hsign]
  rfl

theorem float?_of_word? (h : word? s = some n) : float? s = some (Binary64.ofNat n) := by
  obtain ⟨hsign, hdigits, -⟩ := word?_eq_some_iff.1 h
  rw [float?_of_digits hdigits, hsign]
  rfl

theorem Binary64.ofInt_natCast (n : Nat) : Binary64.ofInt n = Binary64.ofNat n := by
  have hneg : ¬(n : Int) < 0 := by omega
  simp [Binary64.ofInt, Binary64.ofNat, hneg]

/-- a whole number is the same number as a decimal, but for `-0`, which keeps its sign as a decimal -/
theorem ofInt_of_int? {i : Int} {x : Binary64} (hi : int? s = some i) (hx : float? s = some x) :
    Binary64.ofInt i = x ∨ x = Binary64.ofRatio true 0 1 := by
  rw [int?_eq] at hi
  obtain ⟨m, hdigits, hi⟩ := Option.bind_eq_some_iff.1 hi
  rw [float?_of_digits hdigits] at hx
  cases hx
  cases hsign : (takeSign s.toList).1 with
  | false =>
    rw [hsign] at hi
    obtain ⟨-, hi⟩ := Option.ite_none_right_eq_some.1 hi
    cases hi
    exact .inl (Binary64.ofInt_natCast m)
  | true =>
    rw [hsign] at hi
    obtain ⟨-, hi⟩ := Option.ite_none_right_eq_some.1 hi
    cases hi
    rcases Nat.eq_zero_or_pos m with rfl | hm
    · exact .inr rfl
    · refine .inl ?_
      have hneg : -(m : Int) < 0 := by omega
      simp [Binary64.ofInt, hm]

end QuorumGateway.Decimal
