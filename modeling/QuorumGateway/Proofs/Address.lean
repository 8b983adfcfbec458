import QuorumGateway.Address
import QuorumGateway.Proofs.Text.Bytes
/-!
Spellings of an address. Turning a text into small letters changes neither whether it is read as an address nor as which
one (`parse_lower`): blanks and the mark in front are recognised in either form, and a digit has the value of its small
letter.
-/

namespace QuorumGateway

namespace Text.Hex

/-- a digit has the value of its small letter -/
theorem value?_lowerByte (b : UInt8) : value? (lowerByte b) = value? b := by
  have hall : ∀ n < 256, value? (lowerByte (UInt8.ofNat n)) = value? (UInt8.ofNat n) := by decide +kernel
  have hb := hall b.toNat b.toNat_lt_size
  rwa [UInt8.ofNat_toNat] at hb

theorem toOption_decodePairs (index : Nat) (a b : UInt8) (rest : List UInt8) :
    (decodePairs index (a :: b :: rest)).toOption =
      (value? a).bind fun x => (value? b).bind fun y =>
        (decodePairs (index + 2) rest).toOption.map fun bs => (x * 16 + y) :: bs := by
  rw [decodePairs]
  cases value? a <;> cases value? b <;> cases decodePairs (index + 2) rest <;> rfl

/-- what digits spell, they spell in small letters -/
theorem decodePairs_lower (index : Nat) : ∀ bs : List UInt8,
    (decodePairs index (bs.map lowerByte)).toOption = (decodePairs index bs).toOption
  | [] => rfl
  | [_] => rfl
  | a :: b :: rest => by
    rw [List.map_cons, List.map_cons, toOption_decodePairs, toOption_decodePairs, value?_lowerByte, value?_lowerByte,
      decodePairs_lower (index + 2) rest]

theorem decode_lower (s : String) : (decode (lower s)).toOption = (decode s).toOption := by
  unfold decode
  rw [bytes_lower, List.length_map]
  split_ifs
  · rfl
  · exact decodePairs_lower 0 (bytes s)

end Text.Hex

namespace Address

theorem trimChars_lower (cs : List Char) :
    Text.trimChars (cs.map Char.toLower) = (Text.trimChars cs).map Char.toLower := by
  have hblank : Text.isBlank ∘ Char.toLower = Text.isBlank := funext Text.isBlank_toLower
  rw [Text.trimChars, Text.trimChars, List.dropWhile_map, hblank, Text.trimEnd_map_toLower]

/-- letters whose small letters are the same as an `x` -/
theorem toLower_eq_x {c : Char} : c.toLower = 'x' ↔ c = 'x' ∨ c = 'X' := by
  constructor
  · intro h
    rcases Text.toLower_cases c with ⟨hsame, -⟩ | ⟨-, -, hshift⟩
    · exact .inl (hsame ▸ h)
    · rw [h] at hshift
      have hnat : c.toNat = 'X'.toNat := (Nat.add_right_cancel (m := 32) hshift).symm
      exact .inr (Char.toNat_inj.1 hnat)
  · rintro (rfl | rfl) <;> rfl

theorem toLower_eq_zero {c : Char} : c.toLower = '0' ↔ c = '0' := by
  constructor
  · intro h
    rcases Text.toLower_cases c with ⟨hsame, -⟩ | ⟨hlow, -, hshift⟩
    · exact hsame ▸ h
    · rw [h] at hshift
      have : ('0' : Char).toNat = 48 := rfl
      omega
  · rintro rfl
    rfl

theorem stripMark_cons_cons (c d : Char) (rest : List Char) :
    stripMark (c :: d :: rest) = if c.toLower = '0' ∧ d.toLower = 'x' then rest else c :: d :: rest := by
  simp only [toLower_eq_zero, toLower_eq_x]
  by_cases hmark : c = '0' ∧ (d = 'x' ∨ d = 'X')
  · rw [if_pos hmark]
    obtain ⟨rfl, rfl | rfl⟩ := hmark <;> rfl
  · rw [if_neg hmark]
    unfold stripMark
    split
    · rename_i heq
      cases heq
      exact absurd ⟨rfl, .inl rfl⟩ hmark
    · rename_i heq
      cases heq
      exact absurd ⟨rfl, .inr rfl⟩ hmark
    · rfl

theorem stripMark_lower (cs : List Char) : stripMark (cs.map Char.toLower) = (stripMark cs).map Char.toLower := by
  rcases cs with _ | ⟨c, _ | ⟨d, rest⟩⟩
  · rfl
  · have hone : ∀ c : Char, stripMark [c] = [c] := fun c => by simp [stripMark]
    rw [List.map_singleton, hone, hone, List.map_singleton]
  · rw [List.map_cons, List.map_cons, stripMark_cons_cons, stripMark_cons_cons, Text.toLower_toLower,
      Text.toLower_toLower]
    split_ifs <;> rfl

/-- the digits of a text that is read as an address -/
def digits (s : String) : String := String.ofList (stripMark (Text.trimChars s.toList))

theorem digits_lower (s : String) : digits (Text.lower s) = Text.lower (digits s) := by
  rw [digits, digits, Text.lower, Text.lower, String.toList_ofList, String.toList_ofList, trimChars_lower,
    stripMark_lower]

/-- an address is read off the digits of a text; why they are no digits does not matter -/
theorem parse_eq (s : String) :
    parse s =
      if Text.byteLength (digits s) ≠ 40 then .error .wrongLength
      else
        match (Text.Hex.decode (digits s)).toOption with
        | some bytes => if h : bytes.length = 20 then .ok ⟨bytes, h⟩ else .error .wrongLength
        | none => .error .notHex := by
  by_cases hlength : Text.byteLength (digits s) ≠ 40
  · rw [if_pos hlength]
    exact if_pos hlength
  · rw [if_neg hlength]
    refine (if_neg hlength).trans ?_
    rw [digits]
    cases Text.Hex.decode (String.ofList (stripMark (Text.trimChars s.toList))) <;> rfl

/-- **Letter case does not matter**: a text is read as the address that it is read as in small letters -/
theorem parse_lower (s : String) : parse (Text.lower s) = parse s := by
  rw [parse_eq, parse_eq, digits_lower, Text.byteLength_lower, Text.Hex.decode_lower]

end Address

end QuorumGateway
