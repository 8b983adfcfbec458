import Mathlib.Data.List.DropRight
import Mathlib.Tactic
import QuorumGateway.Proofs.Text.Lower
import QuorumGateway.Proofs.Text.Spelling
/-!
The bytes of a text, character by character. An ASCII character is one byte, its number, and no byte of any other
character is below 128 (`encoded_cases`). So what is done to the ASCII characters of a text can be done to its bytes:
turning capitals into small letters (`bytes_lower`), and dropping NULs from its end (`bytes_withoutNuls`).
-/

namespace QuorumGateway.Text

/-- the bytes of a text are those of its characters -/
theorem bytes_eq_flatMap (s : String) : bytes s = s.toList.flatMap String.utf8EncodeChar := by
  have hlist : s.toByteArray = s.toList.utf8Encode := by
    rw [← String.toByteArray_ofList, String.ofList_toList]
  have hdata : s.toUTF8.data.toList = s.toList.flatMap String.utf8EncodeChar := by
    rw [String.toUTF8_eq_toByteArray, hlist, List.utf8Encode, List.toList_data_toByteArray]
  rw [bytes, toList_data, hdata]

theorem length_bytes (s : String) : (bytes s).length = byteLength s := by
  rw [bytes, toList_data, Array.length_toList, String.toUTF8_eq_toByteArray]
  rfl

/-- an ASCII character is one byte, its number; the bytes of any other character are 128 or more -/
theorem encoded_cases (c : Char) :
    (c.toNat < 128 ∧ String.utf8EncodeChar c = [UInt8.ofNat c.toNat]) ∨
      (128 ≤ c.toNat ∧ ∀ b ∈ String.utf8EncodeChar c, 128 ≤ b.toNat) := by
  simp only [Char.toNat, String.utf8EncodeChar]
  split_ifs with h1 h2 h3
  · exact .inl ⟨by omega, rfl⟩
  all_goals
    refine .inr ⟨by omega, fun b hb => ?_⟩
    simp only [List.mem_cons, List.not_mem_nil, or_false] at hb
  · rcases hb with rfl | rfl <;> rw [UInt8.toNat_ofNat'] <;> omega
  · rcases hb with rfl | rfl | rfl <;> rw [UInt8.toNat_ofNat'] <;> omega
  · rcases hb with rfl | rfl | rfl | rfl <;> rw [UInt8.toNat_ofNat'] <;> omega

theorem encoded_of_ascii {c : Char} (h : c.toNat < 128) : String.utf8EncodeChar c = [UInt8.ofNat c.toNat] := by
  rcases encoded_cases c with ⟨-, henc⟩ | ⟨hlarge, -⟩
  · exact henc
  · omega

/-! ## Small letters -/

/-- a byte that stands for an ASCII capital turned into that of the small letter -/
def lowerByte (b : UInt8) : UInt8 := if 65 ≤ b.toNat ∧ b.toNat ≤ 90 then b + 32 else b

theorem encoded_toLower (c : Char) : String.utf8EncodeChar c.toLower = (String.utf8EncodeChar c).map lowerByte := by
  rcases toLower_cases c with ⟨hsame, hother⟩ | ⟨h65, h90, hshift⟩
  · -- no byte of the character is that of a capital
    have hkeep : ∀ b ∈ String.utf8EncodeChar c, lowerByte b = b := by
      intro b hb
      refine if_neg ?_
      rcases encoded_cases c with ⟨hascii, henc⟩ | ⟨-, hbytes⟩
      · rw [henc, List.mem_singleton] at hb
        rw [hb, UInt8.toNat_ofNat', Nat.mod_eq_of_lt (by omega)]
        exact hother
      · have := hbytes b hb
        omega
    rw [hsame, List.map_congr_left hkeep, List.map_id']
  · have hcapital : 65 ≤ (UInt8.ofNat c.toNat).toNat ∧ (UInt8.ofNat c.toNat).toNat ≤ 90 := by
      rw [UInt8.toNat_ofNat', Nat.mod_eq_of_lt (by omega)]
      exact ⟨h65, h90⟩
    have henc : String.utf8EncodeChar c = [UInt8.ofNat c.toNat] := encoded_of_ascii (by omega)
    have hlower : String.utf8EncodeChar c.toLower = [UInt8.ofNat c.toLower.toNat] := encoded_of_ascii (by omega)
    rw [henc, hlower, List.map_singleton, lowerByte, if_pos hcapital, hshift, UInt8.ofNat_add]
    rfl

/-- a text in small letters is its bytes in small letters -/
theorem bytes_lower (s : String) : bytes (lower s) = (bytes s).map lowerByte := by
  rw [bytes_eq_flatMap, bytes_eq_flatMap, lower, String.toList_ofList, List.flatMap_map, List.map_flatMap]
  exact List.flatMap_congr fun c _ => encoded_toLower c

theorem byteLength_lower (s : String) : byteLength (lower s) = byteLength s := by
  rw [← length_bytes, ← length_bytes, bytes_lower, List.length_map]

/-! ## NULs at the end -/

/-- a text without the NULs at its end -/
def withoutNuls (s : String) : String := String.ofList (s.toList.rdropWhile (· = '\x00'))

/-- only the NUL has a byte that is zero -/
theorem zero_mem_encoded {c : Char} (h : 0 ∈ String.utf8EncodeChar c) : c = '\x00' := by
  rcases encoded_cases c with ⟨hascii, henc⟩ | ⟨-, hbytes⟩
  · rw [henc, List.mem_singleton] at h
    have hnat := congrArg UInt8.toNat h
    rw [UInt8.toNat_ofNat', Nat.mod_eq_of_lt (by omega)] at hnat
    exact Char.ext (UInt32.toNat_inj.1 hnat.symm)
  · exact absurd (hbytes 0 h) (by decide)

/-- **The NULs at the end of a text are the zeros at the end of its bytes** -/
theorem bytes_withoutNuls (s : String) : bytes (withoutNuls s) = (bytes s).rdropWhile (· = 0) := by
  rw [bytes_eq_flatMap, bytes_eq_flatMap, withoutNuls, String.toList_ofList]
  induction s.toList using List.reverseRecOn with
  | nil => rfl
  | append_singleton cs c ih =>
    rw [List.flatMap_append, List.flatMap_singleton]
    by_cases hc : c = '\x00'
    · have hzero : String.utf8EncodeChar '\x00' = [0] := rfl
      rw [hc, List.rdropWhile_concat_pos _ _ _ (by simp), ih, hzero, List.rdropWhile_concat_pos _ _ _ (by simp)]
    · rw [List.rdropWhile_concat_neg _ _ _ (by simpa using hc), List.flatMap_append, List.flatMap_singleton, eq_comm,
        List.rdropWhile_eq_self_iff]
      intro hne hlast
      have hlength : 0 < (String.utf8EncodeChar c).length := by
        rw [String.length_utf8EncodeChar]
        exact c.utf8Size_pos
      rw [List.getLast_append_of_ne_nil _ (List.length_pos_iff.1 hlength), decide_eq_true_eq] at hlast
      exact hc (zero_mem_encoded (hlast ▸ List.getLast_mem _))

end QuorumGateway.Text
