import Mathlib.Tactic
import QuorumGateway.Text.Ascii
/-!
Texts that say all there is to say: a text is determined by its bytes (`bytes_injective`), and a whole number by its
digits and its sign (`ofInt_injective`).
-/

namespace QuorumGateway.Text

/-! ## Bytes -/

theorem toList_loop (b : ByteArray) (i : Nat) (before : List UInt8) :
    ByteArray.toList.loop b i before = before.reverse ++ b.data.toList.drop i := by
  fun_induction ByteArray.toList.loop b i before with
  | case1 i before hlt ih =>
    have hlength : i < b.data.toList.length := by simpa using hlt
    have hget : b.get! i = b.data.toList[i] := by
      cases b
      exact getElem!_pos _ i hlt
    rw [ih, List.drop_eq_getElem_cons hlength, hget, List.reverse_cons, List.append_assoc, List.singleton_append]
  | case2 i before hge =>
    rw [List.drop_eq_nil_of_le (by simpa using hge), List.append_nil]

theorem toList_data (b : ByteArray) : b.toList = b.data.toList := by
  rw [ByteArray.toList, toList_loop]
  rfl

theorem bytes_injective {s s' : String} (h : bytes s = bytes s') : s = s' := by
  unfold bytes at h
  rw [toList_data, toList_data] at h
  exact String.toByteArray_inj.1 (ByteArray.ext (Array.toList_inj.1 h))

/-! ## Whole numbers -/

theorem isDigit_of_mem_ofNat {n : Nat} {c : Char} (h : c ∈ (ofNat n).toList) : c.isDigit = true := by
  rw [ofNat, String.toList_ofList] at h
  exact Nat.isDigit_of_mem_toDigits (by decide) (by decide) h

theorem ofNat_injective {n n' : Nat} (h : ofNat n = ofNat n') : n = n' := by
  have hdigits := congrArg (fun s => Nat.ofDigitChars 10 s.toList 0) h
  simpa [ofNat] using hdigits

/-- a minus sign is not a digit -/
theorem minus_ofNat_ne (n n' : Nat) : "-" ++ ofNat n ≠ ofNat n' := by
  intro h
  have hmem : '-' ∈ (ofNat n').toList := by
    rw [← h]
    simp
  exact absurd (isDigit_of_mem_ofNat hmem) (by decide)

theorem ofInt_injective {n n' : Int} (h : ofInt n = ofInt n') : n = n' := by
  cases n <;> cases n' <;> simp only [ofInt] at h
  · rw [ofNat_injective h]
  · exact absurd h.symm (minus_ofNat_ne _ _)
  · exact absurd h (minus_ofNat_ne _ _)
  · have hdigits := congrArg String.toList h
    simp only [String.toList_append, List.append_cancel_left_eq, String.toList_inj] at hdigits
    have := ofNat_injective hdigits
    rw [Nat.succ.inj this]

theorem ofInt_ne_nil (n : Int) : (ofInt n).toList ≠ [] := by
  cases n <;> simp [ofInt, ofNat, Nat.toDigits_ne_nil]

theorem mem_ofInt {n : Int} {c : Char} (h : c ∈ (ofInt n).toList) : c.isDigit = true ∨ c = '-' := by
  cases n with
  | ofNat n => exact .inl (isDigit_of_mem_ofNat h)
  | negSucc n =>
    simp only [ofInt, String.toList_append, List.mem_append] at h
    rcases h with h | h
    · exact .inr (by simpa using h)
    · exact .inl (isDigit_of_mem_ofNat h)

end QuorumGateway.Text
