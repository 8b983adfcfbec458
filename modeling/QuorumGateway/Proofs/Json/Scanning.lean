import QuorumGateway.Json.Decode
import QuorumGateway.Proofs.Json.Canonical
/-!
The compact text of a document is scanned as the document. A string is read back unit by unit, whatever it holds
(`stringBody_escaped`). A whole number in range is read back from its digits; for any other number it has to be known
that the text of the number alone is read back (`ReadsBack`), and what stands behind it in a document changes nothing,
as it cannot go on a number (`lexeme_append`). The length of the text bounds the work (`scan_compact`).
-/

namespace QuorumGateway

namespace Draft

open Json (escape quote Ends)

/-! ## Strings -/

theorem hexValue?_digitChar : ∀ n < 16, hexValue? (Nat.digitChar n) = some n := by decide

theorem utf8Size_digitChar : ∀ n < 16, (Nat.digitChar n).utf8Size = 1 := by decide

/-- the digits of a character below U+0020 spell it -/
theorem codeUnit_codeEscape {n : Nat} (hn : n < 32) (rest : List Char) :
    codeUnit ('0' :: '0' :: Nat.digitChar (n / 16) :: Nat.digitChar (n % 16) :: rest) = .ok (n, rest) := by
  have hzero : hexValue? '0' = some 0 := rfl
  have hcode : n / 16 * 16 + n % 16 = n := Nat.div_add_mod' n 16
  have hholds : holdsBytes 4 ('0' :: '0' :: Nat.digitChar (n / 16) :: Nat.digitChar (n % 16) :: rest) = true := by
    have hone : ('0' : Char).utf8Size = 1 := rfl
    simp [holdsBytes, hone, utf8Size_digitChar (n / 16) (by omega), utf8Size_digitChar (n % 16) (by omega)]
  simp [codeUnit, hholds, hzero, hexValue?_digitChar (n / 16) (by omega), hexValue?_digitChar (n % 16) (by omega),
    hcode]

/-- what stands for a character in a string is one unit, and it spells the character -/
theorem exists_piece (c : Char) :
    ∃ p, p ≠ .close ∧ (∀ ps, spell (p :: ps) = (spell ps).cons c) ∧
      ∀ rest, piece (escape c ++ rest) = .ok (p, rest) := by
  unfold escape
  split_ifs with h1 h2 h3 h4 h5 h6 h7 h8
  · exact ⟨.char c, by simp, fun _ => rfl, fun _ => by subst h1; rfl⟩
  · exact ⟨.char c, by simp, fun _ => rfl, fun _ => by subst h2; rfl⟩
  · exact ⟨.char c, by simp, fun _ => rfl, fun _ => by subst h3; rfl⟩
  · exact ⟨.char c, by simp, fun _ => rfl, fun _ => by subst h4; rfl⟩
  · exact ⟨.char c, by simp, fun _ => rfl, fun _ => by subst h5; rfl⟩
  · exact ⟨.char c, by simp, fun _ => rfl, fun _ => by subst h6; rfl⟩
  · exact ⟨.char c, by simp, fun _ => rfl, fun _ => by subst h7; rfl⟩
  · have hlow : c.toNat < 32 := h8
    refine ⟨.unit c.toNat, by simp, fun ps => ?_, fun rest => ?_⟩
    · have hsingle : ∀ n < 32, isLow n = false ∧ isHigh n = false := by decide
      rw [spell.eq_def]
      simp [hsingle c.toNat hlow]
    · have hcode := codeUnit_codeEscape hlow rest
      simp [Json.codeEscape, piece, hcode]
  · refine ⟨.char c, by simp, fun _ => rfl, fun rest => ?_⟩
    simp [piece, h2, h8]

/-- the units of a string that is written out, up to its closing quote -/
theorem exists_pieces (cs : List Char) : ∃ ps, spell ps = .whole cs ∧
    ∀ fuel rest, cs.length < fuel → pieces fuel (cs.flatMap escape ++ '"' :: rest) = (ps, .ok rest) := by
  induction cs with
  | nil =>
    refine ⟨[], rfl, fun fuel rest hfuel => ?_⟩
    obtain ⟨fuel, rfl⟩ : ∃ n, fuel = n + 1 := ⟨fuel - 1, by simp at hfuel; omega⟩
    rfl
  | cons c cs ih =>
    obtain ⟨p, hopen, hspell, hpiece⟩ := exists_piece c
    obtain ⟨ps, hspells, hpieces⟩ := ih
    refine ⟨p :: ps, by rw [hspell, hspells]; rfl, fun fuel rest hfuel => ?_⟩
    rw [List.length_cons] at hfuel
    obtain ⟨fuel, rfl⟩ : ∃ n, fuel = n + 1 := ⟨fuel - 1, by omega⟩
    rw [List.flatMap_cons, List.append_assoc, pieces, hpiece]
    cases p with
    | close => exact absurd rfl hopen
    | char c => simp [hpieces fuel rest (by omega)]
    | unit n => simp [hpieces fuel rest (by omega)]

theorem length_le_escaped (cs : List Char) : cs.length ≤ (cs.flatMap escape).length := by
  induction cs with
  | nil => exact le_rfl
  | cons c cs ih =>
    have hone : 1 ≤ (escape c).length := by
      unfold escape
      split_ifs <;> simp [Json.codeEscape]
    rw [List.flatMap_cons, List.length_append, List.length_cons]
    omega

/-- **A string is read back**, whatever it holds -/
theorem stringBody_escaped (s : String) (rest : List Char) :
    stringBody (s.toList.flatMap escape ++ '"' :: rest) = .ok (some s, rest) := by
  obtain ⟨ps, hspell, hpieces⟩ := exists_pieces s.toList
  have hlength := length_le_escaped s.toList
  have hread := hpieces ((s.toList.flatMap escape ++ '"' :: rest).length + 1) rest
    (by rw [List.length_append]; omega)
  rw [stringBody, hread]
  simp [hspell]

/-! ## Numbers -/

/-- what ends a value does not go on a number -/
theorem Ends.cases {r : List Char} (h : Ends r) :
    r = [] ∨ ∃ c rest, r = c :: rest ∧ (c = ',' ∨ c = ']' ∨ c = '\x7d') := by
  cases r with
  | nil => exact .inl rfl
  | cons c rest =>
    have hstop := h c rfl
    simp only [Json.isStop, Bool.or_eq_true, beq_iff_eq] at hstop
    exact .inr ⟨c, rest, rfl, by tauto⟩

variable {cs r : List Char}

theorem digits_ends (hr : Ends r) : digits r = ([], r) := by
  rcases Ends.cases hr with rfl | ⟨c, rest, rfl, rfl | rfl | rfl⟩ <;> rfl

theorem digits_append (hr : Ends r) (cs : List Char) : digits (cs ++ r) = ((digits cs).1, (digits cs).2 ++ r) := by
  induction cs with
  | nil => exact digits_ends hr
  | cons c cs ih =>
    rw [List.cons_append, digits, digits]
    cases Text.digit? c with
    | none => rfl
    | some d => simp [ih]

theorem wholePart_append (hr : Ends r) {ds : List Nat} {after : List Char} (h : wholePart cs = .ok (ds, after)) :
    wholePart (cs ++ r) = .ok (ds, after ++ r) := by
  unfold wholePart at h ⊢
  rw [digits_append hr]
  generalize digits cs = found at h ⊢
  split at h <;> simp_all

theorem fractionPart_append (hr : Ends r) {ds : Option (List Nat)} {after : List Char}
    (h : fractionPart cs = .ok (ds, after)) : fractionPart (cs ++ r) = .ok (ds, after ++ r) := by
  have hnone : ∀ c rest, c ≠ '.' → fractionPart (c :: rest) = .ok (none, c :: rest) := by
    intro c rest hc
    simp [fractionPart, hc]
  cases cs with
  | nil =>
    obtain ⟨rfl, rfl⟩ : none = ds ∧ [] = after := by simpa [fractionPart] using h
    rcases Ends.cases hr with rfl | ⟨c, rest, rfl, rfl | rfl | rfl⟩ <;> rfl
  | cons c cs =>
    by_cases hc : c = '.'
    · subst hc
      rw [List.cons_append]
      simp only [fractionPart] at h ⊢
      rw [digits_append hr]
      generalize digits cs = found at h ⊢
      split at h <;> simp_all
    · rw [hnone c cs hc] at h
      obtain ⟨rfl, rfl⟩ : none = ds ∧ c :: cs = after := by simpa using h
      exact hnone c (cs ++ r) hc

theorem exponentSign_append (hr : Ends r) (cs : List Char) :
    exponentSign (cs ++ r) = ((exponentSign cs).1, (exponentSign cs).2 ++ r) := by
  cases cs with
  | nil => rcases Ends.cases hr with rfl | ⟨c, rest, rfl, rfl | rfl | rfl⟩ <;> rfl
  | cons c cs =>
    rw [List.cons_append, exponentSign.eq_def, exponentSign.eq_def]
    split <;> simp_all

theorem exponentPart_append (hr : Ends r) {e : Option (Bool × List Nat)} {after : List Char}
    (h : exponentPart cs = .ok (e, after)) : exponentPart (cs ++ r) = .ok (e, after ++ r) := by
  cases cs with
  | nil =>
    obtain ⟨rfl, rfl⟩ : none = e ∧ [] = after := by simpa [exponentPart] using h
    rcases Ends.cases hr with rfl | ⟨c, rest, rfl, rfl | rfl | rfl⟩ <;> rfl
  | cons c cs =>
    rw [List.cons_append]
    by_cases hc : c = 'e' ∨ c = 'E'
    · simp only [exponentPart, if_pos hc] at h ⊢
      rw [exponentSign_append hr, digits_append hr]
      generalize digits (exponentSign cs).2 = found at h ⊢
      split at h <;> simp_all
    · simp only [exponentPart, if_neg hc] at h ⊢
      obtain ⟨rfl, rfl⟩ : none = e ∧ c :: cs = after := by simpa using h
      rfl

/-- the sign of a number, and what follows it -/
def signPart : List Char → Bool × List Char
  | '-' :: rest => (true, rest)
  | cs => (false, cs)

theorem signPart_append (hr : Ends r) (cs : List Char) :
    signPart (cs ++ r) = ((signPart cs).1, (signPart cs).2 ++ r) := by
  cases cs with
  | nil => rcases Ends.cases hr with rfl | ⟨c, rest, rfl, rfl | rfl | rfl⟩ <;> rfl
  | cons c cs =>
    rw [List.cons_append, signPart.eq_def, signPart.eq_def]
    split <;> simp_all

/-- a number is its parts one after the other -/
theorem lexeme_eq_ok_iff {l : Lexeme} {after : List Char} :
    lexeme cs = .ok (l, after) ↔
      l.negative = (signPart cs).1 ∧ ∃ rest rest', wholePart (signPart cs).2 = .ok (l.whole, rest) ∧
        fractionPart rest = .ok (l.fraction, rest') ∧ exponentPart rest' = .ok (l.exponent, after) := by
  obtain ⟨negative, whole, fraction, exponent⟩ := l
  unfold lexeme
  split
  next sign body hparts =>
    have hsign : signPart cs = (sign, body) := hparts
    rw [hsign]
    constructor
    · intro h
      split at h
      · cases h
      next whole' rest hwhole =>
        split at h
        · cases h
        next fraction' rest' hfraction =>
          split at h
          · cases h
          next exponent' rest'' hexponent =>
            simp only [Except.ok.injEq, Prod.mk.injEq, Lexeme.mk.injEq] at h
            obtain ⟨⟨rfl, rfl, rfl, rfl⟩, rfl⟩ := h
            exact ⟨rfl, rest, rest', hwhole, hfraction, hexponent⟩
    · rintro ⟨rfl, rest, rest', hwhole, hfraction, hexponent⟩
      simp only [hwhole, hfraction, hexponent]

/-- **What ends a value does not go on a number** -/
theorem lexeme_append (hr : Ends r) {l : Lexeme} {after : List Char} (h : lexeme cs = .ok (l, after)) :
    lexeme (cs ++ r) = .ok (l, after ++ r) := by
  obtain ⟨hnegative, rest, rest', hwhole, hfraction, hexponent⟩ := lexeme_eq_ok_iff.1 h
  refine lexeme_eq_ok_iff.2 ⟨?_, rest ++ r, rest' ++ r, ?_, fractionPart_append hr hfraction,
    exponentPart_append hr hexponent⟩
  · rw [signPart_append hr, hnegative]
  · rw [signPart_append hr]
    exact wholePart_append hr hwhole

theorem digits_suffix (cs : List Char) : (digits cs).2 <:+ cs := by
  induction cs with
  | nil => exact List.suffix_refl []
  | cons c cs ih =>
    rw [digits]
    cases Text.digit? c with
    | none => exact List.suffix_refl _
    | some d => exact ih.trans (List.suffix_cons c cs)

theorem wholePart_suffix {ds : List Nat} {after : List Char} (h : wholePart cs = .ok (ds, after)) : after <:+ cs := by
  have hdigits := digits_suffix cs
  unfold wholePart at h
  split at h <;> simp_all

theorem fractionPart_suffix {ds : Option (List Nat)} {after : List Char} (h : fractionPart cs = .ok (ds, after)) :
    after <:+ cs := by
  unfold fractionPart at h
  split at h
  · next cs' =>
    apply List.IsSuffix.trans _ (List.suffix_cons '.' cs')
    have hdigits := digits_suffix cs'
    split at h <;> simp_all
  · simp_all

theorem exponentPart_suffix {e : Option (Bool × List Nat)} {after : List Char} (h : exponentPart cs = .ok (e, after)) :
    after <:+ cs := by
  unfold exponentPart at h
  split at h
  · simp_all
  · next c cs' =>
    have hsign : (exponentSign cs').2 <:+ cs' := by
      rw [exponentSign.eq_def]
      split
      · exact List.suffix_cons _ _
      · exact List.suffix_cons _ _
      · exact List.suffix_refl _
    split_ifs at h
    · apply List.IsSuffix.trans _ (hsign.trans (List.suffix_cons c cs'))
      have hdigits := digits_suffix (exponentSign cs').2
      split at h <;> simp_all
    · simp_all

/-- what follows a number stands at the end of the text -/
theorem lexeme_suffix {l : Lexeme} {after : List Char} (h : lexeme cs = .ok (l, after)) : after <:+ cs := by
  obtain ⟨-, rest, rest', hwhole, hfraction, hexponent⟩ := lexeme_eq_ok_iff.1 h
  have hsign : (signPart cs).2 <:+ cs := by
    rw [signPart.eq_def]
    split
    · exact List.suffix_cons _ _
    · exact List.suffix_refl _
  calc after <:+ rest' := exponentPart_suffix hexponent
    _ <:+ rest := fractionPart_suffix hfraction
    _ <:+ (signPart cs).2 := wholePart_suffix hwhole
    _ <:+ cs := hsign

/-! ## Whole numbers -/

/-- the value of a digit -/
def digitValue (c : Char) : Nat := c.toNat - '0'.toNat

theorem digits_of_isDigit (h : ∀ c ∈ cs, c.isDigit = true) : digits cs = (cs.map digitValue, []) := by
  induction cs with
  | nil => rfl
  | cons c cs ih =>
    have hc : '0' ≤ c ∧ c ≤ '9' := by
      have hdigit := h c List.mem_cons_self
      simp only [Char.isDigit, Bool.and_eq_true, decide_eq_true_eq] at hdigit
      exact hdigit
    rw [digits, Text.digit?, if_pos hc, ih fun c hmem => h c (List.mem_cons_of_mem _ hmem)]
    rfl

/-- a number other than zero does not begin with a zero -/
theorem toDigits_head {n : Nat} (hn : 0 < n) : ∃ d rest, Nat.toDigits 10 n = Nat.digitChar (d + 1) :: rest ∧ d < 9 := by
  induction n using Nat.strong_induction_on with
  | h n ih =>
    rcases Nat.lt_or_ge n 10 with hsmall | hlarge
    · exact ⟨n - 1, [], by rw [Nat.toDigits_of_lt_base hsmall, Nat.sub_add_cancel hn], by omega⟩
    · obtain ⟨d, rest, htext, hd⟩ := ih (n / 10) (by omega) (by omega)
      exact ⟨d, rest ++ [Nat.digitChar (n % 10)],
        by rw [Nat.toDigits_of_base_le (by decide) hlarge, htext, List.cons_append], hd⟩

/-- the digits of a number -/
def digitsOf (n : Nat) : List Nat := (Nat.toDigits 10 n).map digitValue

theorem wholePart_toDigits (n : Nat) : wholePart (Nat.toDigits 10 n) = .ok (digitsOf n, []) := by
  have hdigits : digits (Nat.toDigits 10 n) = (digitsOf n, []) :=
    digits_of_isDigit fun c hc => Nat.isDigit_of_mem_toDigits (by decide) (by decide) hc
  rcases Nat.eq_zero_or_pos n with rfl | hn
  · rfl
  · obtain ⟨d, rest, htext, hd⟩ := toDigits_head hn
    have hvalue : ∀ d < 9, digitValue (Nat.digitChar (d + 1)) = d + 1 := by decide
    have hhead : digitsOf n = (d + 1) :: rest.map digitValue := by
      rw [digitsOf, htext, List.map_cons, hvalue d hd]
    rw [hhead] at hdigits ⊢
    simp [wholePart, hdigits]

theorem signPart_toDigits (n : Nat) : signPart (Nat.toDigits 10 n) = (false, Nat.toDigits 10 n) := by
  rw [signPart.eq_def]
  split
  · next rest htext =>
    have hminus : '-' ∈ Nat.toDigits 10 n := htext ▸ List.mem_cons_self
    exact absurd (Nat.isDigit_of_mem_toDigits (by decide) (by decide) hminus) (by decide)
  · rfl

end Draft

namespace Lexeme

/-- digits of a number that fits are gathered into it -/
theorem gather_of_lt {ds : List Nat} {s : Nat} (h : ds.foldl (fun n d => 10 * n + d) s < 2 ^ 64) :
    gather s ds = (ds.foldl (fun n d => 10 * n + d) s, 0) := by
  have hle : ∀ (ds : List Nat) (s : Nat), s ≤ ds.foldl (fun n d => 10 * n + d) s := by
    intro ds
    induction ds with
    | nil => exact fun s => le_rfl
    | cons d ds ih =>
      intro s
      exact le_trans (by omega) (ih (10 * s + d))
  induction ds generalizing s with
  | nil => rfl
  | cons d ds ih =>
    rw [List.foldl_cons] at h ⊢
    rw [gather, if_pos (lt_of_le_of_lt (hle ds _) h)]
    exact ih h

theorem gather_digitsOf {n : Nat} (hn : n < 2 ^ 64) : gather 0 (Draft.digitsOf n) = (n, 0) := by
  have hvalue : (Draft.digitsOf n).foldl (fun n d => 10 * n + d) 0 = n := by
    rw [Draft.digitsOf, List.foldl_map]
    exact Nat.ofDigitChars_ten_toDigits
  rw [gather_of_lt (by rwa [hvalue]), hvalue]

end Lexeme

namespace Number

/-- whole numbers are the ones that stay exact -/
def InRange : Number → Prop
  | .int i => -(2 ^ 63) ≤ i ∧ i < 2 ^ 64
  | .float _ => True

/-- the text of the number alone is read as the number -/
def ReadsBack (n : Number) : Prop := ∃ l, Draft.lexeme n.text.toList = .ok (l, []) ∧ l.number? = some n

/-- **A whole number in range is read back** -/
theorem readsBack_int {i : Int} (hi : InRange (.int i)) : ReadsBack (.int i) := by
  obtain ⟨hlow, hhigh⟩ := hi
  cases i with
  | ofNat n =>
    have hgather : Lexeme.gather 0 (Draft.digitsOf n) = (n, 0) := Lexeme.gather_digitsOf (by simpa using hhigh)
    refine ⟨⟨false, Draft.digitsOf n, none, none⟩, Draft.lexeme_eq_ok_iff.2 ?_, by simp [Lexeme.number?, hgather]⟩
    have htext : (text (.int (.ofNat n))).toList = Nat.toDigits 10 n := by simp [text, Text.ofInt, Text.ofNat]
    rw [htext, Draft.signPart_toDigits]
    exact ⟨rfl, [], [], Draft.wholePart_toDigits n, rfl, rfl⟩
  | negSucc n =>
    have hn : n + 1 ≤ 2 ^ 63 := by omega
    have hgather : Lexeme.gather 0 (Draft.digitsOf (n + 1)) = (n + 1, 0) := Lexeme.gather_digitsOf (by omega)
    refine ⟨⟨true, Draft.digitsOf (n + 1), none, none⟩, Draft.lexeme_eq_ok_iff.2 ?_, ?_⟩
    · have htext : (text (.int (.negSucc n))).toList = '-' :: Nat.toDigits 10 (n + 1) := by
        simp [text, Text.ofInt, Text.ofNat]
      rw [htext]
      exact ⟨rfl, [], [], Draft.wholePart_toDigits (n + 1), rfl, rfl⟩
    · simp only [Lexeme.number?, hgather]
      simp [hn, Int.negSucc_eq]

end Number

/-! ## Documents -/

namespace Json

mutual

/-- the numbers of a document -/
def numbers : Json → List Number
  | .null | .bool _ | .string _ => []
  | .number n => [n]
  | .array items => numbersOfItems items
  | .object members => numbersOfMembers members

def numbersOfItems : List Json → List Number
  | [] => []
  | v :: rest => numbers v ++ numbersOfItems rest

def numbersOfMembers : List (String × Json) → List Number
  | [] => []
  | (_, v) :: rest => numbers v ++ numbersOfMembers rest

end

theorem isGap_of_mem_text {n : Number} {c : Char} (hc : c ∈ n.text.toList) : Draft.isGap c = false := by
  have hnumeral : ∀ c, Decimal.isNumeral c = true → (!Draft.isGap c) = true := by
    intro c hc
    by_contra hgap
    simp only [Draft.isGap, Bool.not_eq_true', Bool.not_eq_false, Bool.or_eq_true, decide_eq_true_eq] at hgap
    rcases hgap with ((rfl | rfl) | rfl) | rfl <;> exact absurd hc (by decide)
  simpa using Number.forall_mem_text hnumeral (by decide) hc

/-- the text of a document does not begin with a blank, nor with what ends a container -/
theorem compact_head (v : Json) :
    ∃ c rest, (compact v).toList = c :: rest ∧ Draft.isGap c = false ∧ isStop c = false := by
  obtain ⟨c, rest, htext, hkind⟩ := kind_of_head v
  refine ⟨c, rest, htext, ?_, ?_⟩
  · by_contra hgap
    have hnumber : kindOf c = some .number := by
      simp only [Draft.isGap, Bool.or_eq_true, decide_eq_true_eq, Bool.not_eq_false] at hgap
      rcases hgap with ((rfl | rfl) | rfl) | rfl <;> rfl
    rw [hnumber] at hkind
    cases v with
    | number n =>
      rw [compact] at htext
      exact hgap (isGap_of_mem_text (htext ▸ List.mem_cons_self))
    | _ => cases hkind
  · by_contra hstop
    simp [kindOf, hstop] at hkind

end Json

namespace Draft

open Json (escape quote Ends compact compactItems compactMembers following numbers numbersOfItems numbersOfMembers)

variable {r : List Char}

/-- a number begins with a sign or a digit -/
theorem head_of_lexeme {c : Char} {rest : List Char} {found : Lexeme × List Char}
    (h : lexeme (c :: rest) = .ok found) : c = '-' ∨ (Text.digit? c).isSome = true := by
  obtain ⟨-, after, -, hwhole, -⟩ := lexeme_eq_ok_iff.1 h
  by_contra hhead
  obtain ⟨hminus, hdigit⟩ := not_or.1 hhead
  rw [Option.not_isSome_iff_eq_none] at hdigit
  simp [signPart, hminus, wholePart, digits, hdigit] at hwhole

theorem skipGaps_cons {c : Char} (hc : isGap c = false) (rest : List Char) : skipGaps (c :: rest) = c :: rest := by
  simp [skipGaps, hc]

/-- one step of scanning, at a scalar -/
theorem scan_scalar {c : Char} {rest : List Char} {found : Draft} (hgap : isGap c = false)
    (hopen : c ≠ '[' ∧ c ≠ '\x7b') (h : scalar c rest = .ok (found, r)) (fuel : Nat) :
    scan (fuel + 1) (c :: rest) = (found, some r) := by
  rw [scan, skipGaps_cons hgap]
  simp [hopen, h]

theorem scalar_of_scan {c : Char} {rest : List Char} {found : Draft} {fuel : Nat} (hgap : isGap c = false)
    (hopen : c ≠ '[' ∧ c ≠ '\x7b') (h : scan (fuel + 1) (c :: rest) = (found, some r)) :
    scalar c rest = .ok (found, r) := by
  cases hscalar : scalar c rest with
  | error place =>
    rw [scan, skipGaps_cons hgap] at h
    simp [hopen, hscalar] at h
  | ok read =>
    rw [scan_scalar hgap hopen hscalar fuel] at h
    cases h
    rfl

theorem scan_number {n : Number} (hn : n.ReadsBack) (hr : Ends r) (fuel : Nat) :
    scan (fuel + 1) (n.text.toList ++ r) = (.number (some n), some r) := by
  obtain ⟨l, hlexeme, hvalue⟩ := hn
  obtain ⟨c, rest, htext⟩ := List.exists_cons_of_ne_nil n.text_ne_nil
  have hgap : isGap c = false := Json.isGap_of_mem_text (htext ▸ List.mem_cons_self)
  have hread := lexeme_append hr hlexeme
  rw [htext] at hlexeme hread ⊢
  have hhead := head_of_lexeme hlexeme
  have hother : c ≠ 'n' ∧ c ≠ 't' ∧ c ≠ 'f' ∧ c ≠ '"' ∧ c ≠ '[' ∧ c ≠ '\x7b' := by
    refine ⟨?_, ?_, ?_, ?_, ?_, ?_⟩ <;>
    · rintro rfl
      exact absurd hhead (by decide)
  rw [List.cons_append, List.nil_append] at hread
  exact scan_scalar hgap (by simp [hother]) (by simp [scalar, hother, hhead, hread, hvalue]) fuel

theorem scan_string (s : String) (r : List Char) (fuel : Nat) :
    scan (fuel + 1) ((quote s).toList ++ r) = (.string (some s), some r) := by
  have htext : (quote s).toList ++ r = '"' :: (s.toList.flatMap escape ++ '"' :: r) := by simp [quote]
  rw [htext]
  exact scan_scalar rfl (by decide) (by simp [scalar, stringBody_escaped]) fuel

/-- one step of scanning, at an array that is not empty -/
theorem scan_array {c : Char} {rest : List Char} {items : List Draft} {fuel : Nat} (hgap : isGap c = false)
    (hopen : c ≠ ']') (h : scanItems fuel (c :: rest) = (items, none, some r)) :
    scan (fuel + 1) ('[' :: c :: rest) = (.array items none, some r) := by
  rw [scan, skipGaps_cons rfl]
  simp [skipGaps_cons hgap, hopen, h]

/-- one step of scanning, at an object that is not empty -/
theorem scan_object {rest : List Char} {members : List (Option String × Draft)} {fuel : Nat}
    (h : scanMembers fuel ('"' :: rest) = (members, none, some r)) :
    scan (fuel + 1) ('\x7b' :: '"' :: rest) = (.object members none, some r) := by
  rw [scan, skipGaps_cons rfl]
  simp [skipGaps_cons (show isGap '"' = false from rfl), h]

variable {cs after : List Char} {d : Draft} {fuel : Nat}

theorem scanItems_last (h : scan fuel cs = (d, some (']' :: r))) : scanItems (fuel + 1) cs = ([d], none, some r) := by
  rw [scanItems, h]
  simp [skipGaps_cons (show isGap ']' = false from rfl)]

theorem scanItems_next (h : scan fuel cs = (d, some (',' :: after))) {ds : List Draft}
    (hrest : scanItems fuel after = (ds, none, some r)) : scanItems (fuel + 1) cs = (d :: ds, none, some r) := by
  rw [scanItems, h]
  simp [skipGaps_cons (show isGap ',' = false from rfl), hrest]

/-- a member of an object before what follows it -/
theorem member_append (name : String) (v : Json) (r : List Char) :
    (quote name ++ ":" ++ compact v).toList ++ r =
      '"' :: (name.toList.flatMap escape ++ '"' :: ':' :: ((compact v).toList ++ r)) := by
  simp [quote]

theorem scanMembers_last (name : String) (h : scan fuel cs = (d, some ('\x7d' :: r))) :
    scanMembers (fuel + 1) ('"' :: (name.toList.flatMap escape ++ '"' :: ':' :: cs)) =
      ([(some name, d)], none, some r) := by
  rw [scanMembers, skipGaps_cons rfl]
  simp [stringBody_escaped, skipGaps_cons (show isGap ':' = false from rfl), h,
    skipGaps_cons (show isGap '\x7d' = false from rfl)]

theorem scanMembers_next (name : String) (h : scan fuel cs = (d, some (',' :: after)))
    {members : List (Option String × Draft)} (hrest : scanMembers fuel after = (members, none, some r)) :
    scanMembers (fuel + 1) ('"' :: (name.toList.flatMap escape ++ '"' :: ':' :: cs)) =
      ((some name, d) :: members, none, some r) := by
  rw [scanMembers, skipGaps_cons rfl]
  simp [stringBody_escaped, skipGaps_cons (show isGap ':' = false from rfl), h,
    skipGaps_cons (show isGap ',' = false from rfl), hrest]

/-- no text is empty, so there is a step left for it -/
theorem exists_fuel {v : Json} (h : 2 * (compact v).toList.length ≤ fuel) : ∃ n, fuel = n + 1 := by
  obtain ⟨c, rest, htext, -⟩ := Json.compact_head v
  rw [htext, List.length_cons] at h
  exact ⟨fuel - 1, by omega⟩

mutual

/-- **The compact text of a document is scanned as the document** -/
theorem scan_compact : ∀ (v : Json) (fuel : Nat) (r : List Char), 2 * (compact v).toList.length ≤ fuel →
    (∀ n ∈ v.numbers, n.ReadsBack) → Ends r → scan fuel ((compact v).toList ++ r) = (ofJson v, some r)
  | .null => by
    intro fuel r hfuel hv hr
    obtain ⟨fuel, rfl⟩ := exists_fuel hfuel
    exact scan_scalar rfl (by decide) rfl fuel
  | .bool b => by
    intro fuel r hfuel hv hr
    obtain ⟨fuel, rfl⟩ := exists_fuel hfuel
    cases b with
    | false => exact scan_scalar rfl (by decide) rfl fuel
    | true => exact scan_scalar rfl (by decide) rfl fuel
  | .number n => by
    intro fuel r hfuel hv hr
    obtain ⟨fuel, rfl⟩ := exists_fuel hfuel
    rw [compact, ofJson]
    exact scan_number (hv n (by simp [numbers])) hr fuel
  | .string s => by
    intro fuel r hfuel hv hr
    obtain ⟨fuel, rfl⟩ := exists_fuel hfuel
    rw [compact, ofJson]
    exact scan_string s r fuel
  -- an empty container is closed before its first part is looked for
  | .array [] => by
    intro fuel r hfuel hv hr
    obtain ⟨fuel, rfl⟩ := exists_fuel hfuel
    simp [compact, compactItems, Text.join, scan, skipGaps, isGap, ofJson, ofItems]
  | .array (v :: vs) => by
    intro fuel r hfuel hv hr
    obtain ⟨fuel, rfl⟩ := exists_fuel hfuel
    obtain ⟨c, rest, htext, hgap, hstop⟩ := Json.compact_head v
    have hitems := scanItems_compact (v :: vs) fuel r (by simp [compact] at hfuel ⊢; omega) (by simp)
      (by simpa [numbers] using hv)
    have hopen : c ≠ ']' := by
      rintro rfl
      exact absurd hstop (by decide)
    have hsplit : (compact (.array (v :: vs))).toList ++ r =
        '[' :: ((Text.join "," (compactItems (v :: vs))).toList ++ ']' :: r) := by simp [compact]
    rw [hsplit, ofJson]
    rw [compactItems, Json.join_append, htext, List.cons_append] at hitems ⊢
    exact scan_array hgap hopen hitems
  | .object [] => by
    intro fuel r hfuel hv hr
    obtain ⟨fuel, rfl⟩ := exists_fuel hfuel
    simp [compact, compactMembers, Text.join, scan, skipGaps, isGap, ofJson, ofMembers]
  | .object ((name, v) :: members) => by
    intro fuel r hfuel hv hr
    obtain ⟨fuel, rfl⟩ := exists_fuel hfuel
    have hmembers := scanMembers_compact ((name, v) :: members) fuel r (by simp [compact] at hfuel ⊢; omega) (by simp)
      (by simpa [numbers] using hv)
    have hsplit : (compact (.object ((name, v) :: members))).toList ++ r =
        '\x7b' :: ((Text.join "," (compactMembers ((name, v) :: members))).toList ++ '\x7d' :: r) := by simp [compact]
    rw [hsplit, ofJson]
    rw [compactMembers, Json.join_append, member_append] at hmembers ⊢
    exact scan_object hmembers

theorem scanItems_compact : ∀ (vs : List Json) (fuel : Nat) (r : List Char),
    2 * (Text.join "," (compactItems vs)).toList.length + 1 ≤ fuel → vs ≠ [] →
      (∀ n ∈ numbersOfItems vs, n.ReadsBack) →
        scanItems fuel ((Text.join "," (compactItems vs)).toList ++ ']' :: r) = (ofItems vs, none, some r)
  | [] => by
    intro fuel r hfuel hne hvs
    exact absurd rfl hne
  | [v] => by
    intro fuel r hfuel hne hvs
    obtain ⟨fuel, rfl⟩ : ∃ n, fuel = n + 1 := ⟨fuel - 1, by omega⟩
    simp only [compactItems, Text.join, numbersOfItems, List.append_nil] at hfuel hvs ⊢
    exact scanItems_last (scan_compact v fuel _ (by omega) hvs (by simp [Ends, Json.isStop]))
  | v :: w :: vs => by
    intro fuel r hfuel hne hvs
    obtain ⟨fuel, rfl⟩ : ∃ n, fuel = n + 1 := ⟨fuel - 1, by omega⟩
    rw [compactItems, Json.join_append]
    have hlength : (Text.join "," (compactItems (v :: w :: vs))).toList.length =
        (compact v).toList.length + 1 + (Text.join "," (compactItems (w :: vs))).toList.length := by
      simp [compactItems, Text.join]
      omega
    rw [numbersOfItems] at hvs
    have hrest := scanItems_compact (w :: vs) fuel r (by omega) (by simp)
      (fun n hn => hvs n (List.mem_append_right _ hn))
    have hvalue := scan_compact v fuel (following ']' r (compactItems (w :: vs))) (by omega)
      (fun n hn => hvs n (List.mem_append_left _ hn)) (Json.ends_following rfl _ _)
    exact scanItems_next hvalue hrest

theorem scanMembers_compact : ∀ (ps : List (String × Json)) (fuel : Nat) (r : List Char),
    2 * (Text.join "," (compactMembers ps)).toList.length + 1 ≤ fuel → ps ≠ [] →
      (∀ n ∈ numbersOfMembers ps, n.ReadsBack) →
        scanMembers fuel ((Text.join "," (compactMembers ps)).toList ++ '\x7d' :: r) = (ofMembers ps, none, some r)
  | [] => by
    intro fuel r hfuel hne hps
    exact absurd rfl hne
  | [(name, v)] => by
    intro fuel r hfuel hne hps
    obtain ⟨fuel, rfl⟩ : ∃ n, fuel = n + 1 := ⟨fuel - 1, by omega⟩
    simp only [compactMembers, Text.join, numbersOfMembers, List.append_nil] at hfuel hps ⊢
    rw [member_append]
    exact scanMembers_last name (scan_compact v fuel _ (by simp at hfuel; omega) hps (by simp [Ends, Json.isStop]))
  | (name, v) :: q :: ps => by
    intro fuel r hfuel hne hps
    obtain ⟨fuel, rfl⟩ : ∃ n, fuel = n + 1 := ⟨fuel - 1, by omega⟩
    rw [compactMembers, Json.join_append, member_append]
    have hlength : (compact v).toList.length + 1 + (Text.join "," (compactMembers (q :: ps))).toList.length ≤
        (Text.join "," (compactMembers ((name, v) :: q :: ps))).toList.length := by
      simp [compactMembers, Text.join]
      omega
    rw [numbersOfMembers] at hps
    have hrest := scanMembers_compact (q :: ps) fuel r (by omega) (by simp)
      (fun n hn => hps n (List.mem_append_right _ hn))
    have hvalue := scan_compact v fuel (following '\x7d' r (compactMembers (q :: ps))) (by omega)
      (fun n hn => hps n (List.mem_append_left _ hn)) (Json.ends_following rfl _ _)
    exact scanMembers_next name hvalue hrest

end

end Draft

end QuorumGateway
