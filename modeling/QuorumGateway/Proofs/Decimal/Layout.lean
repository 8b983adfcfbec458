import Mathlib.Data.List.TakeWhile
import QuorumGateway.Decimal.Layout
import QuorumGateway.Proofs.Decimal.Shortest
/-!
The text of a number in a payload determines the number. Read back as a decimal (`spelled`), the text of a number other
than zero is the number's shortest decimal, wherever the layout puts the point; that decimal rounds to the number, and
nothing rounds to two numbers (`payload_text_injective`). The text of a finite number consists of digits, signs, a point
and the mark of an exponent (`isNumeral_of_mem_text`), and it has a point or an exponent (`mark_mem_text`).
-/

namespace QuorumGateway.Decimal

/-! ## Digits -/

theorem ne_of_isDigit {c : Char} (h : c.isDigit = true) : c ≠ '.' ∧ c ≠ 'e' ∧ c ≠ '-' ∧ c ≠ '+' := by
  refine ⟨?_, ?_, ?_, ?_⟩ <;>
  · rintro rfl
    exact absurd h (by decide)

theorem isDigit_toDigits {n : Nat} {c : Char} (h : c ∈ Nat.toDigits 10 n) : c.isDigit = true :=
  Nat.isDigit_of_mem_toDigits (by decide) (by decide) h

theorem isDigit_replicate {n : Nat} {c : Char} (h : c ∈ List.replicate n '0') : c.isDigit = true := by
  rw [List.eq_of_mem_replicate h]
  rfl

/-! ## Reading decimals -/

/-- the number that digits with a point spell -/
def pointed (cs : List Char) : ℚ :=
  let whole := cs.takeWhile (· ≠ '.')
  let fraction := (cs.dropWhile (· ≠ '.')).drop 1
  Nat.ofDigitChars 10 (whole ++ fraction) 0 / 10 ^ fraction.length

/-- the number that a decimal without a sign spells -/
def spelled (cs : List Char) : ℚ :=
  let front := cs.takeWhile (· ≠ 'e')
  match cs.dropWhile (· ≠ 'e') with
  | 'e' :: '-' :: ds => pointed front * 10 ^ (-(Nat.ofDigitChars 10 ds 0 : Int))
  | 'e' :: '+' :: ds => pointed front * 10 ^ (Nat.ofDigitChars 10 ds 0 : Int)
  | _ => pointed front

theorem pointed_of_digits {whole : List Char} (h : ∀ c ∈ whole, c.isDigit = true) :
    pointed whole = Nat.ofDigitChars 10 whole 0 := by
  have hpoint : ∀ c ∈ whole, decide (c ≠ '.') = true := fun c hc => by simpa using (ne_of_isDigit (h c hc)).1
  have htake : whole.takeWhile (· ≠ '.') = whole := List.takeWhile_eq_self_iff.2 hpoint
  have hdrop : whole.dropWhile (· ≠ '.') = [] := List.dropWhile_eq_nil_iff.2 hpoint
  simp only [pointed, htake, hdrop]
  simp

theorem pointed_append {whole fraction : List Char} (h : ∀ c ∈ whole, c.isDigit = true) :
    pointed (whole ++ '.' :: fraction) = Nat.ofDigitChars 10 (whole ++ fraction) 0 / 10 ^ fraction.length := by
  have hpoint : ∀ c ∈ whole, decide (c ≠ '.') = true := fun c hc => by simpa using (ne_of_isDigit (h c hc)).1
  unfold pointed
  rw [List.takeWhile_append_of_pos hpoint, List.dropWhile_append_of_pos hpoint]
  simp

/-- a decimal without an exponent -/
theorem spelled_of_no_exponent {cs : List Char} (h : ∀ c ∈ cs, c ≠ 'e') : spelled cs = pointed cs := by
  have hmark : ∀ c ∈ cs, decide (c ≠ 'e') = true := fun c hc => by simpa using h c hc
  have htake : cs.takeWhile (· ≠ 'e') = cs := List.takeWhile_eq_self_iff.2 hmark
  have hdrop : cs.dropWhile (· ≠ 'e') = [] := List.dropWhile_eq_nil_iff.2 hmark
  simp only [spelled, htake, hdrop]

/-- a decimal with an exponent -/
theorem spelled_exponent {front : List Char} (h : ∀ c ∈ front, c ≠ 'e') (e : Int) :
    spelled (front ++ 'e' :: (if e < 0 then '-' else '+') :: Nat.toDigits 10 e.natAbs) = pointed front * 10 ^ e := by
  have hmark : ∀ c ∈ front, decide (c ≠ 'e') = true := fun c hc => by simpa using h c hc
  unfold spelled
  rw [List.takeWhile_append_of_pos hmark, List.dropWhile_append_of_pos hmark]
  split_ifs with hneg
  · obtain ⟨n, rfl⟩ : ∃ n : Nat, e = -(n : Int) := ⟨e.natAbs, by omega⟩
    simp
  · obtain ⟨n, rfl⟩ := Int.eq_ofNat_of_zero_le (not_lt.1 hneg)
    simp

/-! ## Layouts -/

theorem toList_zeros (n : Nat) : (Layout.zeros n).toList = List.replicate n '0' := String.toList_ofList

theorem toList_plain (d : Digits) :
    (Layout.payload.plain d).toList =
      if 0 ≤ d.exponent then Nat.toDigits 10 d.digits ++ List.replicate d.exponent.toNat '0' ++ ['.', '0']
      else if (-d.exponent).toNat < (Nat.toDigits 10 d.digits).length then
        (Nat.toDigits 10 d.digits).take ((Nat.toDigits 10 d.digits).length - (-d.exponent).toNat) ++
          '.' :: (Nat.toDigits 10 d.digits).drop ((Nat.toDigits 10 d.digits).length - (-d.exponent).toNat)
      else
        '0' :: '.' :: (List.replicate ((-d.exponent).toNat - (Nat.toDigits 10 d.digits).length) '0' ++
          Nat.toDigits 10 d.digits) := by
  unfold Layout.plain Layout.payload
  dsimp only
  split_ifs <;> simp [toList_zeros]

theorem toList_scientific (d : Digits) :
    ∃ c rest, Nat.toDigits 10 d.digits = c :: rest ∧
      (Layout.scientific d).toList =
        (c :: if rest = [] then [] else '.' :: rest) ++
          'e' :: (if d.exponent + rest.length < 0 then '-' else '+') ::
            Nat.toDigits 10 (d.exponent + rest.length).natAbs := by
  have hne : Nat.toDigits 10 d.digits ≠ [] := Nat.toDigits_ne_nil
  obtain ⟨c, rest, hdigits⟩ := List.exists_cons_of_ne_nil hne
  refine ⟨c, rest, hdigits, ?_⟩
  unfold Layout.scientific
  have htop : d.exponent + ((c :: rest).length : Int) - 1 = d.exponent + rest.length := by
    simp only [List.length_cons]
    push_cast
    ring
  simp only [hdigits, htop]
  cases rest with
  | nil => split_ifs <;> simp_all [Text.ofNat]
  | cons c' rest => split_ifs <;> simp_all [Text.ofNat]

/-- **A positional decimal** reads back as the decimal -/
theorem spelled_plain (d : Digits) : spelled (Layout.payload.plain d).toList = d.value := by
  have hds : ∀ c ∈ Nat.toDigits 10 d.digits, c.isDigit = true := fun c hc => isDigit_toDigits hc
  have hexponent : ∀ whole fraction : List Char, (∀ c ∈ whole, c.isDigit = true) → (∀ c ∈ fraction, c.isDigit = true) →
      spelled (whole ++ '.' :: fraction) = Nat.ofDigitChars 10 (whole ++ fraction) 0 / 10 ^ fraction.length := by
    intro whole fraction hwhole hfraction
    rw [spelled_of_no_exponent, pointed_append hwhole]
    intro c hc
    rcases List.mem_append.1 hc with hc | hc
    · exact (ne_of_isDigit (hwhole c hc)).2.1
    · rcases List.mem_cons.1 hc with rfl | hc
      · decide
      · exact (ne_of_isDigit (hfraction c hc)).2.1
  rw [toList_plain]
  unfold Digits.value
  split_ifs with hwhole hplaces
  · obtain ⟨n, hn⟩ := Int.eq_ofNat_of_zero_le hwhole
    rw [hexponent]
    · simp [hn, Nat.ofDigitChars_append, Nat.ofDigitChars_cons]
      ring
    · intro c hc
      rcases List.mem_append.1 hc with hc | hc
      · exact hds c hc
      · exact isDigit_replicate hc
    · intro c hc
      rw [List.mem_singleton.1 hc]
      rfl
  · obtain ⟨n, hn⟩ := Int.eq_ofNat_of_zero_le (by omega : 0 ≤ -d.exponent)
    have hplaces' : (-d.exponent).toNat = n := by omega
    rw [hplaces'] at hplaces ⊢
    rw [hexponent _ _ (fun c hc => hds c (List.mem_of_mem_take hc)) fun c hc => hds c (List.mem_of_mem_drop hc),
      List.take_append_drop, Nat.ofDigitChars_ten_toDigits, List.length_drop,
      show (Nat.toDigits 10 d.digits).length - ((Nat.toDigits 10 d.digits).length - n) = n by omega,
      show d.exponent = -(n : Int) by omega, zpow_neg, zpow_natCast, div_eq_mul_inv]
  · obtain ⟨n, hn⟩ := Int.eq_ofNat_of_zero_le (by omega : 0 ≤ -d.exponent)
    have hplaces' : (-d.exponent).toNat = n := by omega
    rw [hplaces'] at hplaces ⊢
    rw [← List.singleton_append, ← List.singleton_append (x := '.'), List.singleton_append (x := '.'), hexponent]
    · rw [List.length_append, List.length_replicate,
        show n - (Nat.toDigits 10 d.digits).length + (Nat.toDigits 10 d.digits).length = n by omega,
        show d.exponent = -(n : Int) by omega, zpow_neg, zpow_natCast, div_eq_mul_inv]
      simp [Nat.ofDigitChars_append, Nat.ofDigitChars_cons]
    · intro c hc
      rw [List.mem_singleton.1 hc]
      rfl
    · intro c hc
      rcases List.mem_append.1 hc with hc | hc
      · exact isDigit_replicate hc
      · exact hds c hc

/-- **A decimal with an exponent** reads back as the decimal -/
theorem spelled_scientific (d : Digits) : spelled (Layout.scientific d).toList = d.value := by
  obtain ⟨c, rest, hdigits, htext⟩ := toList_scientific d
  have hds : ∀ c' ∈ c :: rest, c'.isDigit = true := fun c' hc' => isDigit_toDigits (hdigits ▸ hc')
  have hvalue : Nat.ofDigitChars 10 (c :: rest) 0 = d.digits := by
    rw [← hdigits]
    exact Nat.ofDigitChars_ten_toDigits
  have hc : ∀ c' ∈ [c], c'.isDigit = true := fun c' hc' => hds c' (List.mem_singleton.1 hc' ▸ List.mem_cons_self)
  rw [htext, spelled_exponent]
  · unfold Digits.value
    split_ifs with hrest
    · subst hrest
      rw [pointed_of_digits hc, hvalue]
      simp
    · rw [← List.singleton_append, pointed_append hc, List.singleton_append, hvalue, zpow_add₀ (by norm_num),
        zpow_natCast]
      field_simp
  · intro c' hc'
    split_ifs at hc' with hrest
    · exact (ne_of_isDigit (hc c' hc')).2.1
    · rcases List.mem_cons.1 hc' with rfl | hc'
      · exact (ne_of_isDigit (hds _ List.mem_cons_self)).2.1
      · rcases List.mem_cons.1 hc' with rfl | hc'
        · decide
        · exact (ne_of_isDigit (hds c' (List.mem_cons_of_mem c hc'))).2.1

/-! ## The text of a number -/

/-- the characters of a number in a payload -/
def isNumeral (c : Char) : Bool := c.isDigit || c == '.' || c == 'e' || c == '+' || c == '-'

/-- the text of a finite number without its sign -/
def unsignedText (x : Binary64) : List Char :=
  if x.isZero then ['0', '.', '0']
  else if Layout.payload.positional ((shortest x).exponent + (Nat.toDigits 10 (shortest x).digits).length - 1) then
    (Layout.payload.plain (shortest x)).toList
  else (Layout.scientific (shortest x)).toList

variable {x y : Binary64}

theorem toList_text (hx : x.isFinite = true) :
    (Layout.payload.text x).toList = (if x.negative then ['-'] else []) ++ unsignedText x := by
  have hnan : x.isNaN = false := by
    simp only [Binary64.isFinite, bne_iff_ne, ne_eq] at hx
    simp [Binary64.isNaN, hx]
  unfold Layout.text unsignedText
  simp only [hnan, hx, Bool.false_eq_true, if_false, Bool.not_true]
  split_ifs <;> simp [Layout.payload]

theorem spelled_unsignedText (x : Binary64) :
    spelled (unsignedText x) = if x.isZero then 0 else (shortest x).value := by
  unfold unsignedText
  split_ifs with hzero
  · have hmark : ∀ c ∈ ['0', '.', '0'], c ≠ 'e' := by simp
    have hdigit : ∀ c ∈ ['0'], c.isDigit = true := fun c hc => List.mem_singleton.1 hc ▸ rfl
    rw [spelled_of_no_exponent hmark, ← List.singleton_append, pointed_append hdigit]
    simp [Nat.ofDigitChars_cons]
  · exact spelled_plain _
  · exact spelled_scientific _

theorem magnitude_eq_of_spelled (h : spelled (unsignedText x) = spelled (unsignedText y)) :
    x.magnitude = y.magnitude := by
  have hpos : ∀ z : Binary64, ¬ z.isZero = true → Rounds z.magnitude (shortest z).value := fun z hz =>
    rounds_shortest (hz ∘ z.isZero_iff.2)
  rw [spelled_unsignedText, spelled_unsignedText] at h
  split_ifs at h with hx hy hy
  · rw [x.isZero_iff.1 hx, y.isZero_iff.1 hy]
  · exact absurd h (hpos y hy).pos.ne
  · exact absurd h (hpos x hx).pos.ne'
  · have hrounds := hpos y hy
    rw [← h] at hrounds
    exact (hpos x hx).unique hrounds

theorem exists_digit_unsignedText (x : Binary64) : ∃ c rest, unsignedText x = c :: rest ∧ c.isDigit = true := by
  have hdigits : ∀ l : List Char, l ≠ [] → (∀ c ∈ l, c.isDigit = true) → ∀ more,
      ∃ c rest, l ++ more = c :: rest ∧ c.isDigit = true := by
    intro l hne hl more
    obtain ⟨c, rest, rfl⟩ := List.exists_cons_of_ne_nil hne
    exact ⟨c, rest ++ more, rfl, hl c List.mem_cons_self⟩
  unfold unsignedText
  split_ifs with hzero hplain
  · exact ⟨'0', ['.', '0'], rfl, rfl⟩
  · rw [toList_plain]
    split_ifs with hwhole hplaces
    · rw [List.append_assoc]
      exact hdigits _ Nat.toDigits_ne_nil (fun c hc => isDigit_toDigits hc) _
    · refine hdigits _ (fun hnil => ?_) (fun c hc => isDigit_toDigits (List.mem_of_mem_take hc)) _
      have hlength := congrArg List.length hnil
      rw [List.length_take, List.length_nil] at hlength
      omega
    · exact ⟨'0', _, rfl, rfl⟩
  · obtain ⟨c, rest, hds, htext⟩ := toList_scientific (shortest x)
    exact ⟨c, _, by rw [htext]; rfl, isDigit_toDigits (hds ▸ List.mem_cons_self)⟩

/-- **The text of a number determines the number** -/
theorem payload_text_injective (hx : x.isFinite = true) (hy : y.isFinite = true)
    (h : Layout.payload.text x = Layout.payload.text y) : x = y := by
  have htext := congrArg String.toList h
  rw [toList_text hx, toList_text hy] at htext
  -- a minus sign is not a digit
  have hsign : ∀ z z' : Binary64, '-' :: unsignedText z ≠ unsignedText z' := by
    intro z z' heq
    obtain ⟨c, rest, htext', hdigit⟩ := exists_digit_unsignedText z'
    rw [htext'] at heq
    rw [← (List.cons.inj heq).1] at hdigit
    exact absurd hdigit (by decide)
  cases hnx : x.negative <;> cases hny : y.negative <;> simp only [hnx, hny] at htext
  · exact Binary64.eq_of_magnitude (hnx.trans hny.symm) (magnitude_eq_of_spelled (congrArg spelled htext))
  · exact absurd htext.symm (hsign y x)
  · exact absurd htext (hsign x y)
  · exact Binary64.eq_of_magnitude (hnx.trans hny.symm)
      (magnitude_eq_of_spelled (congrArg spelled (List.cons.inj htext).2))

/-! ## The characters of a number -/

theorem isNumeral_of_isDigit {c : Char} (h : c.isDigit = true) : isNumeral c = true := by simp [isNumeral, h]

theorem isNumeral_of_mem_text (hx : x.isFinite = true) {c : Char} (hc : c ∈ (Layout.payload.text x).toList) :
    isNumeral c = true := by
  have hdigits : ∀ n, ∀ c ∈ Nat.toDigits 10 n, isNumeral c = true := fun n c hc =>
    isNumeral_of_isDigit (isDigit_toDigits hc)
  have hzeros : ∀ n, ∀ c ∈ List.replicate n '0', isNumeral c = true := fun n c hc =>
    isNumeral_of_isDigit (isDigit_replicate hc)
  rw [toList_text hx] at hc
  rcases List.mem_append.1 hc with hc | hc
  · split_ifs at hc
    · rw [List.mem_singleton.1 hc]
      rfl
    · exact absurd hc List.not_mem_nil
  · unfold unsignedText at hc
    split_ifs at hc with hzero hplain
    · have hzeroText : ['0', '.', '0'].all isNumeral = true := rfl
      exact List.all_eq_true.1 hzeroText c hc
    · rw [toList_plain] at hc
      split_ifs at hc with hwhole hplaces
      · simp only [List.mem_append, List.mem_cons, List.not_mem_nil, or_false] at hc
        rcases hc with (hc | hc) | rfl | rfl
        · exact hdigits _ c hc
        · exact hzeros _ c hc
        · rfl
        · rfl
      · simp only [List.mem_append, List.mem_cons] at hc
        rcases hc with hc | rfl | hc
        · exact hdigits _ c (List.mem_of_mem_take hc)
        · rfl
        · exact hdigits _ c (List.mem_of_mem_drop hc)
      · simp only [List.mem_append, List.mem_cons] at hc
        rcases hc with rfl | rfl | hc | hc
        · rfl
        · rfl
        · exact hzeros _ c hc
        · exact hdigits _ c hc
    · obtain ⟨first, rest, hds, htext⟩ := toList_scientific (shortest x)
      have hfirst : ∀ c ∈ first :: rest, isNumeral c = true := fun c hc => hdigits _ c (hds ▸ hc)
      rw [htext] at hc
      simp only [List.cons_append, List.mem_cons, List.mem_append] at hc
      rcases hc with rfl | hc | rfl | rfl | hc
      · exact hfirst c List.mem_cons_self
      · split_ifs at hc
        · exact absurd hc List.not_mem_nil
        · rcases List.mem_cons.1 hc with rfl | hc
          · rfl
          · exact hfirst c (List.mem_cons_of_mem _ hc)
      · rfl
      · split_ifs <;> rfl
      · exact hdigits _ c hc

/-- a number that is not whole is told from one that is by its point or its exponent -/
theorem mark_mem_text (hx : x.isFinite = true) :
    '.' ∈ (Layout.payload.text x).toList ∨ 'e' ∈ (Layout.payload.text x).toList := by
  rw [toList_text hx]
  unfold unsignedText
  split_ifs with hsign hzero hplain hzero hplain
  · simp
  · left
    rw [toList_plain]
    split_ifs <;> simp
  · right
    obtain ⟨first, rest, -, htext⟩ := toList_scientific (shortest x)
    simp [htext]
  · simp
  · left
    rw [toList_plain]
    split_ifs <;> simp
  · right
    obtain ⟨first, rest, -, htext⟩ := toList_scientific (shortest x)
    simp [htext]

/-- the words for what is not finite -/
theorem text_of_not_finite (hx : x.isFinite = false) :
    Layout.payload.text x = "NaN" ∨ Layout.payload.text x = "inf" ∨ Layout.payload.text x = "-inf" := by
  unfold Layout.text
  split_ifs with hnan <;> simp_all

end QuorumGateway.Decimal
