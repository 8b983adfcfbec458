import QuorumGateway.Message.Signed
import QuorumGateway.Proofs.Json.Canonical
import QuorumGateway.Proofs.Text.Bytes
/-!
What the signed bytes of a message say about it. Fields that are not too long stand in the layout in full, each at its
own place, and the payload can be read off what follows them. What the padding forgets is where a field ends: zeros that
fill a field up cannot be told from NULs that belong to it.

- `rawBytes_eq_iff`: two messages with fields in order are laid out as the same bytes exactly when they have the same
  payload and the same fields up to NULs at their ends.
- `trailing_nul_unsigned`: so a signature does not tell a message id from the one with a NUL more.
-/

namespace QuorumGateway

open Text (withoutNuls)

/-! ## Padding -/

namespace Body

variable {width : Nat} {field field' : String} {l l' : List UInt8}

theorem rdropWhile_append_zeros (l : List UInt8) (k : Nat) :
    (l ++ List.replicate k 0).rdropWhile (· = 0) = l.rdropWhile (· = 0) := by
  induction k with
  | zero => rw [List.replicate_zero, List.append_nil]
  | succ k ih => rw [List.replicate_succ', ← List.append_assoc, List.rdropWhile_concat_pos _ _ _ (by simp), ih]

/-- bytes are what is left of them without the zeros at their end, and zeros -/
theorem exists_append_zeros (l : List UInt8) : ∃ k, l = l.rdropWhile (· = 0) ++ List.replicate k 0 := by
  refine ⟨(l.rtakeWhile (· = 0)).length, ?_⟩
  have hzeros : l.rtakeWhile (· = 0) = List.replicate (l.rtakeWhile (· = 0)).length 0 :=
    List.eq_replicate_iff.2 ⟨rfl, fun b hb => by simpa using List.mem_rtakeWhile_imp hb⟩
  rw [← hzeros, List.rdropWhile_append_rtakeWhile]

/-- bytes of one length that differ in the zeros at their ends only do not differ -/
theorem eq_of_rdropWhile (hlength : l.length = l'.length) (h : l.rdropWhile (· = 0) = l'.rdropWhile (· = 0)) :
    l = l' := by
  obtain ⟨k, hk⟩ := exists_append_zeros l
  obtain ⟨k', hk'⟩ := exists_append_zeros l'
  have hsum := congrArg List.length hk
  have hsum' := congrArg List.length hk'
  rw [List.length_append, List.length_replicate] at hsum hsum'
  rw [h] at hsum
  rw [hk, hk', h, show k = k' by omega]

theorem padded_of_le (h : Text.byteLength field ≤ width) :
    padded width field = Text.bytes field ++ List.replicate (width - Text.byteLength field) 0 := by
  rw [← Text.length_bytes] at h ⊢
  simp only [padded, List.take_of_length_le h]

theorem length_padded (width : Nat) (field : String) : (padded width field).length = width := by
  simp only [padded, List.length_append, List.length_take, List.length_replicate]
  omega

/-- **What padding keeps of a field**: all but the NULs at its end -/
theorem padded_eq_iff (h : Text.byteLength field ≤ width) (h' : Text.byteLength field' ≤ width) :
    padded width field = padded width field' ↔ withoutNuls field = withoutNuls field' := by
  have hkept : ∀ {f : String}, Text.byteLength f ≤ width →
      (padded width f).rdropWhile (· = 0) = Text.bytes (withoutNuls f) := by
    intro f hf
    rw [padded_of_le hf, rdropWhile_append_zeros, Text.bytes_withoutNuls]
  constructor
  · intro heq
    exact Text.bytes_injective (by rw [← hkept h, ← hkept h', heq])
  · intro heq
    refine eq_of_rdropWhile ((length_padded _ _).trans (length_padded _ _).symm) ?_
    rw [hkept h, hkept h', heq]

/-! ## The payload -/

theorem encoding_ne_nil (p : Json) : p.encoding ≠ [] := by
  obtain ⟨c, rest, hhead, -⟩ := Json.kind_of_head p
  rw [Json.encoding, Text.bytes_eq_flatMap, hhead, List.flatMap_cons]
  intro hnil
  have hlength := congrArg List.length (List.append_eq_nil_iff.1 hnil).1
  rw [String.length_utf8EncodeChar, List.length_nil] at hlength
  exact absurd hlength c.utf8Size_pos.ne'

/-- the bytes behind the fields determine the payload -/
theorem payload_eq_of_payloadBytes {b b' : Body} (hproper : b.payload.Proper) (h : b.payloadBytes = b'.payloadBytes) :
    b.payload = b'.payload := by
  have hnull : ∀ {p : Json}, p.isNull = true → p = .null := by
    intro p hp
    cases p <;> first | rfl | exact absurd hp Bool.false_ne_true
  unfold payloadBytes at h
  split_ifs at h with h1 h2 h2
  · rw [hnull h1, hnull h2]
  · exact absurd h.symm (encoding_ne_nil _)
  · exact absurd h (encoding_ne_nil _)
  · exact (Json.encoding_injective hproper h.symm).symm

/-- two bodies with the same payload and, up to NULs at their ends, the same signed fields -/
structure SameUpToNuls (b b' : Body) : Prop where
  messageId : withoutNuls b.messageId = withoutNuls b'.messageId
  method : withoutNuls b.method = withoutNuls b'.method
  donId : withoutNuls b.donId = withoutNuls b'.donId
  payload : b.payload = b'.payload

end Body

namespace Message

/-! ## Fields in order -/

/-- **What the check of the fields says** -/
theorem checkFields_eq_ok_iff {m : Message} :
    m.checkFields = .ok () ↔
      (0 < Text.byteLength m.body.messageId ∧ Text.byteLength m.body.messageId ≤ Body.idWidth) ∧
        (0 < Text.byteLength m.body.method ∧ Text.byteLength m.body.method ≤ Body.methodWidth) ∧
        Text.byteLength m.body.donId ≤ Body.donIdWidth ∧ 0 < Text.byteLength m.body.sender := by
  simp only [checkFields]
  split_ifs <;> simp only [false_iff, true_iff] <;> omega

/-! ## The signed bytes -/

/-- **What is signed of a message.** Two messages whose fields are in order have the same signed bytes exactly when
they have the same payload and, up to NULs at their ends, the same message id, method and don id. -/
theorem rawBytes_eq_iff {m m' : Message} (hm : m.checkFields = .ok ()) (hm' : m'.checkFields = .ok ())
    (hproper : m.body.payload.Proper) :
    m.body.rawBytes = m'.body.rawBytes ↔ Body.SameUpToNuls m.body m'.body := by
  obtain ⟨⟨-, hid⟩, ⟨-, hmethod⟩, hdon, -⟩ := checkFields_eq_ok_iff.1 hm
  obtain ⟨⟨-, hid'⟩, ⟨-, hmethod'⟩, hdon', -⟩ := checkFields_eq_ok_iff.1 hm'
  unfold Body.rawBytes
  constructor
  · intro heq
    have hlength : ∀ width (f f' : String), (Body.padded width f).length = (Body.padded width f').length :=
      fun width f f' => (Body.length_padded _ _).trans (Body.length_padded _ _).symm
    rw [List.append_assoc, List.append_assoc, List.append_assoc, List.append_assoc] at heq
    obtain ⟨h1, heq⟩ := List.append_inj heq (hlength _ _ _)
    obtain ⟨h2, heq⟩ := List.append_inj heq (hlength _ _ _)
    obtain ⟨h3, h4⟩ := List.append_inj heq (hlength _ _ _)
    exact ⟨(Body.padded_eq_iff hid hid').1 h1, (Body.padded_eq_iff hmethod hmethod').1 h2,
      (Body.padded_eq_iff hdon hdon').1 h3, Body.payload_eq_of_payloadBytes hproper h4⟩
  · rintro ⟨h1, h2, h3, h4⟩
    rw [(Body.padded_eq_iff hid hid').2 h1, (Body.padded_eq_iff hmethod hmethod').2 h2,
      (Body.padded_eq_iff hdon hdon').2 h3, Body.payloadBytes, Body.payloadBytes, h4]

/-- the check of a signature reads nothing of a message but its signed bytes, its sender and its signature -/
theorem checkSignature_congr (S : Crypto.Scheme) {m m' : Message} (hbytes : m.body.rawBytes = m'.body.rawBytes)
    (hsender : m.body.sender = m'.body.sender) (hsignature : m.signature = m'.signature) :
    m.checkSignature S = m'.checkSignature S := by
  simp only [checkSignature, declaredSender, recoverSigner, readSignature, Body.digest, Body.signingBytes, hbytes,
    hsender, hsignature]

/-- a request of a sender under a message id -/
def listing (messageId : String) : Message :=
  ⟨⟨messageId, "secrets_list", "don", "0xaaaaaaaaaaaaaaaaaaaaaaaaaaaaaaaaaaaaaaaa", .null⟩, "0x"⟩

theorem rawBytes_eq_iff_listing :
    (listing "m").checkFields = .ok () ∧ (listing "m\x00\x00").checkFields = .ok () ∧ Json.null.Proper ∧
      ((listing "m").body.rawBytes = (listing "m\x00\x00").body.rawBytes ↔
        Body.SameUpToNuls (listing "m").body (listing "m\x00\x00").body) :=
  ⟨rfl, rfl, trivial, rawBytes_eq_iff rfl rfl trivial⟩

/-- **A NUL at the end of a field is not signed.** A message id with a NUL more is another one, its message passes the
check of the fields as well, and whatever is a signature for the one is a signature for the other. -/
theorem trailing_nul_unsigned :
    (listing "m").checkFields = .ok () ∧ (listing "m\x00").checkFields = .ok () ∧
      (listing "m").body.rawBytes = (listing "m\x00").body.rawBytes ∧
      (listing "m").body.messageId ≠ (listing "m\x00").body.messageId ∧
      ∀ S : Crypto.Scheme, (listing "m").checkSignature S = (listing "m\x00").checkSignature S := by
  have hbytes : (listing "m").body.rawBytes = (listing "m\x00").body.rawBytes := by decide +kernel
  exact ⟨rfl, rfl, hbytes, by decide, fun S => checkSignature_congr S hbytes rfl rfl⟩

end Message

end QuorumGateway
