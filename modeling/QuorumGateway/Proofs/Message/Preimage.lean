import QuorumGateway.Error
import QuorumGateway.Proofs.Json.Writing
import QuorumGateway.Proofs.Message.Layout
import QuorumGateway.Proofs.Quorum
/-!
What can be read off bytes that are compared. Responses are grouped by the bytes of their payloads, and a signature is
for the bytes in which a body ends up; both are as good as the payload itself. The key of a group is always the bytes of
a payload, never those that stand for one that cannot be written (`Quorum.groupKey_eq`), nor is a body refused because
of its payload (`Body.layOut_eq`).

What is hashed has a length in front, with nothing between it and the bytes it counts, and these may begin with digits
themselves. They can be told apart all the same: of two lengths the greater one has no fewer digits, so it makes the
whole longer (`eq_of_length_in_front`).

- `payload_identified`: messages with the same bytes in a group, or under a signature, have the same payload.
-/

namespace QuorumGateway

/-! ## A length in front -/

namespace Text

/-- a digit is one byte -/
theorem length_bytes_ofNat (n : Nat) : (bytes (ofNat n)).length = (Nat.toDigits 10 n).length := by
  have hone : ∀ c ∈ (ofNat n).toList, String.utf8EncodeChar c = [UInt8.ofNat c.toNat] := by
    intro c hc
    have hdigit := isDigit_of_mem_ofNat hc
    simp only [Char.isDigit, Bool.and_eq_true, decide_eq_true_eq] at hdigit
    have hsmall : c.toNat ≤ 57 := hdigit.2
    exact encoded_of_ascii (by omega)
  rw [bytes_eq_flatMap, List.flatMap_congr hone, ← List.map_eq_flatMap, List.length_map, ofNat, String.toList_ofList]

/-- a greater number has no fewer digits -/
theorem length_bytes_ofNat_le {n n' : Nat} (h : n ≤ n') : (bytes (ofNat n)).length ≤ (bytes (ofNat n')).length := by
  rw [length_bytes_ofNat, length_bytes_ofNat, Nat.length_toDigits_le_iff (by decide) Nat.length_toDigits_pos]
  exact h.trans_lt ((Nat.length_toDigits_le_iff (by decide) Nat.length_toDigits_pos).1 le_rfl)

/-- **Bytes behind their length can be told apart**, though there is nothing between the two -/
theorem eq_of_length_in_front {raw raw' : List UInt8}
    (h : bytes (ofNat raw.length) ++ raw = bytes (ofNat raw'.length) ++ raw') : raw = raw' := by
  have htotal := congrArg List.length h
  rw [List.length_append, List.length_append] at htotal
  have hlength : raw.length = raw'.length := by
    rcases lt_trichotomy raw.length raw'.length with hless | hsame | hmore
    · have := length_bytes_ofNat_le hless.le
      omega
    · exact hsame
    · have := length_bytes_ofNat_le hmore.le
      omega
  rw [hlength] at h
  exact List.append_cancel_left h

end Text

/-! ## Payloads -/

namespace Json

variable {p q : Json}

theorem encoding_eq_iff (hp : p.Proper) : p.encoding = q.encoding ↔ p = q :=
  ⟨fun h => (encoding_injective hp h.symm).symm, fun h => h ▸ rfl⟩

/-- objects have the same bytes when each name stands for the same value in both -/
theorem encoding_object_eq_iff {ms ms' : SortedMap Json} (hproper : (object ms).Proper) (hms : ms.Ascending)
    (hms' : ms'.Ascending) :
    (object ms).encoding = (object ms').encoding ↔ ∀ name, ms.get? name = ms'.get? name := by
  rw [encoding_eq_iff hproper, object.injEq]
  exact ⟨fun h name => h ▸ rfl, hms.ext hms'⟩

end Json

/-! ## Groups -/

namespace Quorum

variable {m m' : Message} {rs : Responses} {node : String} {b : List UInt8}

/-- the key of the group that a response belongs to; a payload that cannot be written has the empty one -/
def groupKey (m : Message) : List UInt8 := m.body.payload.written.toOption.getD []

theorem groupKey_eq (hm : m.body.payload.Proper) : groupKey m = ballot m := by
  rw [groupKey, Json.written_eq hm]
  rfl

/-- the group of a ballot has a node when its response has that ballot -/
theorem mem_voters_iff (hrs : rs.Ascending) (hnode : rs.get? node = some m) : node ∈ voters rs b ↔ ballot m = b := by
  rw [mem_voters]
  constructor
  · rintro ⟨r, hr, hballot, rfl⟩
    rw [(SortedMap.get?_eq_some_iff hrs).2 hr] at hnode
    rw [← Option.some.inj hnode, hballot]
  · intro hballot
    exact ⟨(node, m), (SortedMap.get?_eq_some_iff hrs).1 hnode, hballot, rfl⟩

end Quorum

/-! ## Bodies -/

namespace Body

variable {b b' : Body}

/-- the layout of a body with a payload that may not be written -/
def layOut (b : Body) : Except GatewayError (List UInt8) :=
  let fields := padded idWidth b.messageId ++ padded methodWidth b.method ++ padded donIdWidth b.donId
  if b.payload.isNull then .ok fields
  else
    match b.payload.written with
    | .ok payload => .ok (fields ++ payload)
    | .error fault => .error (.invalidMessage ("unencodable payload: " ++ fault.text))

theorem layOut_eq (hproper : b.payload.Proper) : b.layOut = .ok b.rawBytes := by
  rw [layOut, Json.written_eq hproper, rawBytes, payloadBytes]
  split_ifs
  · rw [List.append_nil]
  · rfl

/-- the payload stands behind three fields of fixed widths -/
theorem drop_rawBytes (b : Body) : b.rawBytes.drop (idWidth + methodWidth + donIdWidth) = b.payloadBytes := by
  apply List.drop_left'
  rw [List.length_append, List.length_append, length_padded, length_padded, length_padded]

/-- the layout determines the payload, also where a field is cut off -/
theorem payload_eq_of_rawBytes (hproper : b.payload.Proper) (h : b.rawBytes = b'.rawBytes) :
    b.payload = b'.payload := by
  apply payload_eq_of_payloadBytes hproper
  rw [← drop_rawBytes, h, drop_rawBytes]

/-- what is hashed determines the layout, and the other way round -/
theorem signingBytes_eq_iff : b.signingBytes = b'.signingBytes ↔ b.rawBytes = b'.rawBytes := by
  unfold signingBytes
  constructor
  · intro h
    rw [List.append_assoc, List.append_assoc] at h
    exact Text.eq_of_length_in_front (List.append_cancel_left h)
  · intro h
    rw [h]

end Body

/-! ## Main result -/

namespace Message

open Quorum (ballot groupKey voters)

variable {m : Message}

/-- what the bytes of two messages tell about their payloads -/
structure Identified (m m' : Message) : Prop where
  /-- payloads have the same bytes exactly when they are the same: in kind, whole or not, bit by bit, item by item -/
  encoded : m.body.payload.encoding = m'.body.payload.encoding ↔ m.body.payload = m'.body.payload
  /-- objects are the same when each name stands for the same value -/
  object : ∀ ms ms' : SortedMap Json, m.body.payload = .object ms → m'.body.payload = .object ms' → ms.Ascending →
    ms'.Ascending → (m.body.payload.encoding = m'.body.payload.encoding ↔ ∀ name, ms.get? name = ms'.get? name)
  /-- two nodes are in one group exactly when they have sent the same payload -/
  grouped : ∀ (rs : Responses) (node node' : String), rs.Ascending → rs.get? node = some m → rs.get? node' = some m' →
    (node' ∈ voters rs (ballot m) ↔ m.body.payload = m'.body.payload)
  /-- the payload can be written, so that the key of the group is no makeshift and the body is not refused -/
  written : m.body.payload.written = .ok m.body.payload.encoding ∧ groupKey m = ballot m ∧
    m.body.layOut = .ok m.body.rawBytes
  /-- what is hashed of two bodies is the same exactly when their layouts are -/
  hashed : m.body.signingBytes = m'.body.signingBytes ↔ m.body.rawBytes = m'.body.rawBytes
  /-- bodies of which the same is hashed have the same payload -/
  payload : m.body.signingBytes = m'.body.signingBytes → m.body.payload = m'.body.payload
  /-- only a body without a payload is hashed like one without -/
  null : m.body.signingBytes = m'.body.signingBytes → (m.body.payload = .null ↔ m'.body.payload = .null)

/-- **Bytes identify a payload.** Whatever another message is, a message with a payload all of whose numbers have a
place in a document has the bytes of its payload in common only with messages of the same payload, is grouped with those
and no others, and is hashed like those at most. -/
theorem payload_identified (m' : Message) (hm : m.body.payload.Proper) : Identified m m' where
  encoded := Json.encoding_eq_iff hm
  object := by
    intro ms ms' hobject hobject' hms hms'
    rw [hobject] at hm ⊢
    rw [hobject']
    exact Json.encoding_object_eq_iff hm hms hms'
  grouped := by
    intro rs node node' hrs hnode hnode'
    rw [Quorum.mem_voters_iff hrs hnode', eq_comm]
    exact Json.encoding_eq_iff hm
  written := ⟨Json.written_eq hm, Quorum.groupKey_eq hm, Body.layOut_eq hm⟩
  hashed := Body.signingBytes_eq_iff
  payload := fun h => Body.payload_eq_of_rawBytes hm (Body.signingBytes_eq_iff.1 h)
  null := by
    intro h
    rw [Body.payload_eq_of_rawBytes hm (Body.signingBytes_eq_iff.1 h)]

/-- a response under a message id that is a digit -/
def response (payload : Json) : Message := .unsigned "7" "secrets_list" "don" payload

/-- the whole number one, and the number one of the binary format, under the same name -/
def wholeOne : Json := .object [("n", .int 1)]

def floatOne : Json := .object [("n", .float ⟨0x3FF0000000000000⟩)]

theorem payload_identified_one :
    wholeOne.Proper ∧ Identified (response wholeOne) (response floatOne) ∧
      ballot (response wholeOne) ≠ ballot (response floatOne) ∧
      (response wholeOne).body.signingBytes ≠ (response floatOne).body.signingBytes := by
  have hproper : wholeOne.Proper := by simp [wholeOne, Json.Proper, Json.ProperMembers, Json.int, Number.Proper]
  have hother : wholeOne ≠ floatOne := by simp [wholeOne, floatOne, Json.int, Json.float]
  have hidentified : Identified (response wholeOne) (response floatOne) :=
    payload_identified (m := response wholeOne) (response floatOne) hproper
  exact ⟨hproper, hidentified, fun h => hother (hidentified.encoded.1 h), fun h => hother (hidentified.payload h)⟩

end Message

end QuorumGateway
