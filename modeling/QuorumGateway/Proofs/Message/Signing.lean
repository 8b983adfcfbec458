import QuorumGateway.Gateway.State
import QuorumGateway.Proofs.Address
import QuorumGateway.Proofs.Message.Layout
import QuorumGateway.Proofs.Text.Trimming
/-!
Signing and checking agree. A signature is written as the digits of sixty-five bytes, and what is read back from them,
in whatever letters, is that signature (`readSignature_of_spells`): its two numbers fit into their bytes, and the last
byte tells the hint with or without 27 added. What is signed of a message does not depend on its sender or on its
signature, so the signer is recovered from any spelling and under any sender.

- `sign_then_check`: a message that has been signed is accepted under every spelling of its signature and of its
  sender's address, and refused under every other sender.
-/

namespace QuorumGateway

namespace Text

/-- a text without blanks keeps both of its ends -/
theorem trimChars_of_forall {cs : List Char} (h : ∀ c ∈ cs, isBlank c = false) : trimChars cs = cs := by
  apply trimChars_eq_iff.2
  refine ⟨⟨fun c hc => h c (List.mem_of_mem_head? hc), fun c hc => h c (List.mem_of_mem_getLast? hc)⟩, [], [], ?_⟩
  exact ⟨nofun, nofun, by simp⟩

end Text

/-! ## Digits -/

namespace Text.Hex

variable {n : Nat} {bs : List UInt8}

/-- what a character has to be to stand for a number: in ASCII, no mark, no blank, in small letters, and of that value
-/
structure IsDigit (n : Nat) (c : Char) : Prop where
  ascii : c.toNat < 128
  unmarked : c ≠ 'x'
  unblank : isBlank c = false
  lower : c.toLower = c
  value : value? (UInt8.ofNat c.toNat) = some (UInt8.ofNat n)

theorem isDigit_digit (h : n < 16) : IsDigit n (digit n) := by
  have hall : ∀ n < 16, (digit n).toNat < 128 ∧ digit n ≠ 'x' ∧ isBlank (digit n) = false ∧
      (digit n).toLower = digit n ∧ value? (UInt8.ofNat (digit n).toNat) = some (UInt8.ofNat n) := by
    decide
  obtain ⟨hascii, hunmarked, hunblank, hlower, hvalue⟩ := hall n h
  exact ⟨hascii, hunmarked, hunblank, hlower, hvalue⟩

theorem mem_byteDigits {b : UInt8} {c : Char} (h : c ∈ byteDigits b) : ∃ n < 16, c = digit n := by
  have hb := b.toNat_lt_size
  simp only [byteDigits, List.mem_cons, List.not_mem_nil, or_false] at h
  rcases h with rfl | rfl
  · exact ⟨_, by simp [UInt8.size] at hb; omega, rfl⟩
  · exact ⟨_, Nat.mod_lt _ (by decide), rfl⟩

theorem mem_encode {c : Char} (h : c ∈ (encode bs).toList) : ∃ n, IsDigit n c := by
  rw [encode, String.toList_ofList] at h
  obtain ⟨b, -, hc⟩ := List.mem_flatMap.1 h
  obtain ⟨n, hn, rfl⟩ := mem_byteDigits hc
  exact ⟨n, isDigit_digit hn⟩

/-- bytes are written in small letters -/
theorem lower_encode (bs : List UInt8) : Text.lower (encode bs) = encode bs := by
  have hmap : (encode bs).toList.map Char.toLower = (encode bs).toList := by
    refine (List.map_congr_left fun c hc => ?_).trans (List.map_id _)
    obtain ⟨n, hdigit⟩ := mem_encode hc
    exact hdigit.lower
  rw [Text.lower, hmap, String.ofList_toList]

theorem bytes_encode (bs : List UInt8) :
    bytes (encode bs) = (bs.flatMap byteDigits).map fun c => UInt8.ofNat c.toNat := by
  rw [bytes_eq_flatMap, encode, String.toList_ofList, List.map_eq_flatMap]
  refine List.flatMap_congr fun c hc => ?_
  obtain ⟨b, -, hb⟩ := List.mem_flatMap.1 hc
  obtain ⟨n, hn, rfl⟩ := mem_byteDigits hb
  exact encoded_of_ascii (isDigit_digit hn).ascii

/-- the two halves of a byte make up the byte -/
theorem halves (b : UInt8) : UInt8.ofNat (b.toNat / 16) * 16 + UInt8.ofNat (b.toNat % 16) = b := by
  have hall : ∀ n < 256, UInt8.ofNat (n / 16) * 16 + UInt8.ofNat (n % 16) = UInt8.ofNat n := by decide +kernel
  have hb := hall b.toNat b.toNat_lt_size
  rwa [UInt8.ofNat_toNat] at hb

theorem decodePairs_encode (index : Nat) (bs : List UInt8) :
    decodePairs index ((bs.flatMap byteDigits).map fun c => UInt8.ofNat c.toNat) = .ok bs := by
  induction bs generalizing index with
  | nil => rfl
  | cons b bs ih =>
    have hb := b.toNat_lt_size
    have hhigh := (isDigit_digit (n := b.toNat / 16) (by simp [UInt8.size] at hb; omega)).value
    have hlow := (isDigit_digit (n := b.toNat % 16) (Nat.mod_lt _ (by decide))).value
    simp only [List.flatMap_cons, byteDigits, List.cons_append, List.nil_append, List.map_cons, decodePairs, hhigh,
      hlow, ih, halves]

theorem length_bytes_encode (bs : List UInt8) : (bytes (encode bs)).length = 2 * bs.length := by
  rw [bytes_encode, List.length_map]
  induction bs with
  | nil => rfl
  | cons b bs ih =>
    rw [List.flatMap_cons, List.length_append, ih, List.length_cons]
    simp [byteDigits]
    omega

theorem decode_encode (bs : List UInt8) : decode (encode bs) = .ok bs := by
  have heven : ¬ (bytes (encode bs)).length % 2 = 1 := by
    rw [length_bytes_encode]
    omega
  rw [decode, if_neg heven, bytes_encode, decodePairs_encode]

/-- **Digits in any letters** are read as the bytes that they spell in small ones -/
theorem decode_of_lower {digits : String} (h : lower digits = encode bs) : decode digits = .ok bs := by
  have hsome : (decode digits).toOption = some bs := by
    rw [← decode_lower, h, decode_encode]
    rfl
  cases hdecode : decode digits with
  | error e => simp [hdecode, Except.toOption] at hsome
  | ok bs' =>
    rw [hdecode] at hsome
    exact congrArg _ (Option.some.inj hsome)

end Text.Hex

/-! ## Addresses -/

namespace Address

variable {a : Address}

/-- **An address is read back** from its written form -/
theorem parse_text (a : Address) : parse a.text = .ok a := by
  have hchars : a.text.toList = '0' :: 'x' :: (Text.Hex.encode a.bytes).toList := by simp [text]
  have hblank : ∀ c ∈ a.text.toList, Text.isBlank c = false := by
    intro c hc
    rw [hchars, List.mem_cons, List.mem_cons] at hc
    rcases hc with rfl | rfl | hc
    · rfl
    · rfl
    · obtain ⟨n, hdigit⟩ := Text.Hex.mem_encode hc
      exact hdigit.unblank
  have hdigits : digits a.text = Text.Hex.encode a.bytes := by
    rw [digits, Text.trimChars_of_forall hblank, hchars]
    exact String.ofList_toList
  have hlength : ¬ Text.byteLength (digits a.text) ≠ 40 := by
    rw [hdigits, ← Text.length_bytes, Text.Hex.length_bytes_encode, a.length_bytes]
    decide
  rw [parse_eq, if_neg hlength, hdigits, Text.Hex.decode_encode]
  exact dif_pos a.length_bytes

end Address

/-! ## Numbers in bytes -/

namespace Crypto

variable {n k : Nat}

theorem natOfBytes_cons (b : UInt8) (bs : List UInt8) :
    natOfBytes (b :: bs) = b.toNat * 256 ^ bs.length + natOfBytes bs := by
  have hfold : ∀ (bs : List UInt8) (n : Nat),
      bs.foldl (fun n b => 256 * n + b.toNat) n = n * 256 ^ bs.length + natOfBytes bs := by
    intro bs
    induction bs with
    | nil => intro n; simp [natOfBytes]
    | cons b bs ih =>
      intro n
      rw [natOfBytes, List.foldl_cons, List.foldl_cons, ih, ih, List.length_cons, pow_succ]
      ring
  rw [natOfBytes, List.foldl_cons, hfold]
  simp

/-- the bytes of the lowest places of a number spell what is left of it modulo their span -/
theorem natOfBytes_places (n k : Nat) :
    natOfBytes ((List.range k).reverse.map fun i => UInt8.ofNat (n / 256 ^ i)) = n % 256 ^ k := by
  induction k with
  | zero => simp [natOfBytes, Nat.mod_one]
  | succ k ih =>
    rw [List.range_succ, List.reverse_append, List.reverse_singleton, List.singleton_append, List.map_cons,
      natOfBytes_cons, ih, List.length_map, List.length_reverse, List.length_range, UInt8.toNat_ofNat']
    calc n / 256 ^ k % 256 * 256 ^ k + n % 256 ^ k = n % 256 ^ k + 256 ^ k * (n / 256 ^ k % 256) := by ring
      _ = n % 256 ^ (k + 1) := Nat.mod_pow_succ.symm

theorem natOfBytes_bytes32 (h : n < Curve.order) : natOfBytes (bytes32 n) = n := by
  have hbound : Curve.order < 256 ^ 32 := by decide
  rw [bytes32, natOfBytes_places, Nat.mod_eq_of_lt (h.trans hbound)]

theorem length_bytes32 (n : Nat) : (bytes32 n).length = 32 := by simp [bytes32]

namespace Signature

theorem length_toBytes (σ : Signature) : σ.toBytes.length = 64 := by simp [toBytes, length_bytes32]

/-- **A signature is read back** from its bytes -/
theorem ofBytes?_toBytes (σ : Signature) : ofBytes? σ.toBytes = some σ := by
  have hr : natOfBytes (σ.toBytes.take 32) = σ.r := by
    rw [toBytes, List.take_left' (length_bytes32 _), natOfBytes_bytes32 σ.r_inRange.2]
  have hs : natOfBytes (σ.toBytes.drop 32) = σ.s := by
    rw [toBytes, List.drop_left' (length_bytes32 _), natOfBytes_bytes32 σ.s_inRange.2]
  simp only [ofBytes?, hr, hs]
  exact dif_pos ⟨σ.r_inRange, σ.s_inRange⟩

end Signature

/-- a key signs a digest, and the signer is recovered from the signature -/
def Scheme.Recovers (S : Scheme) (key : S.Key) (digest : List UInt8) : Prop :=
  ∃ σ hint, S.sign key digest = some (σ, hint) ∧ S.recover digest σ hint = some (S.address key)

end Crypto

/-! ## Spellings of a signature -/

namespace Message

open Crypto (Signature Scheme)

variable {S : Scheme} {key : S.Key} {m m' : Message} {σ : Signature} {hint : Fin 4}

/-- a spelling of a signature and its hint: the digits, in any letters, of the bytes of the signature and of one byte
more, which is the hint or the hint plus 27; there may be one `0x` in front -/
def Spells (σ : Signature) (hint : Fin 4) (s : String) : Prop :=
  ∃ digits byte, (s = digits ∨ s = "0x" ++ digits) ∧ (byte = hint.val ∨ byte = hint.val + 27) ∧
    Text.lower digits = Text.Hex.encode (σ.toBytes ++ [UInt8.ofNat byte])

/-- the spelling that signing writes -/
theorem spells_signatureText (σ : Signature) (hint : Fin 4) : Spells σ hint (signatureText σ hint) :=
  ⟨_, _, .inr rfl, .inr rfl, Text.Hex.lower_encode _⟩

theorem hintOf?_eq_some {byte : Nat} (h : byte = hint.val ∨ byte = hint.val + 27) :
    hintOf? (UInt8.ofNat byte).toNat = some hint := by
  have hall : ∀ hint : Fin 4, hintOf? (UInt8.ofNat hint.val).toNat = some hint ∧
      hintOf? (UInt8.ofNat (hint.val + 27)).toNat = some hint := by
    decide
  rcases h with rfl | rfl
  · exact (hall hint).1
  · exact (hall hint).2

/-- digits do not begin with the mark -/
theorem signatureDigits_of_lower {digits : String} {bs : List UInt8} (h : Text.lower digits = Text.Hex.encode bs) :
    signatureDigits digits = digits := by
  unfold signatureDigits
  split
  · rename_i rest hchars
    have hmem : 'x' ∈ (Text.Hex.encode bs).toList := by
      rw [← h, Text.lower, String.toList_ofList, hchars]
      simp
    obtain ⟨n, hdigit⟩ := Text.Hex.mem_encode hmem
    exact absurd rfl hdigit.unmarked
  · rfl

theorem signatureDigits_marked (digits : String) : signatureDigits ("0x" ++ digits) = digits := by
  have hchars : ("0x" ++ digits).toList = '0' :: 'x' :: digits.toList := by simp
  rw [signatureDigits, hchars]
  exact String.ofList_toList

/-- **Every spelling of a signature is read as that signature** -/
theorem readSignature_of_spells (h : Spells σ hint m.signature) : m.readSignature = .ok (σ, hint) := by
  obtain ⟨digits, byte, hmark, hbyte, hdigits⟩ := h
  have hstripped : signatureDigits m.signature = digits := by
    rcases hmark with hbare | hmarked
    · rw [hbare, signatureDigits_of_lower hdigits]
    · rw [hmarked, signatureDigits_marked]
  have hlength : ¬ (σ.toBytes ++ [UInt8.ofNat byte]).length ≠ 65 := by simp [σ.length_toBytes]
  have htake : (σ.toBytes ++ [UInt8.ofNat byte]).take 64 = σ.toBytes := List.take_left' σ.length_toBytes
  have hlast : (σ.toBytes ++ [UInt8.ofNat byte]).getD 64 0 = UInt8.ofNat byte := by
    rw [List.getD_eq_getElem?_getD, List.getElem?_append_right (by rw [σ.length_toBytes]), σ.length_toBytes]
    rfl
  simp only [readSignature, hstripped, Text.Hex.decode_of_lower hdigits, if_neg hlength, htake,
    Signature.ofBytes?_toBytes, hlast, hintOf?_eq_some hbyte]

/-- a text that spells the same signature -/
def Respells (s s' : String) : Prop := ∃ σ hint, Spells σ hint s ∧ Spells σ hint s'

/-! ## Checking -/

/-- the signed fields are there and within their widths -/
structure InBounds (m : Message) : Prop where
  id : 0 < Text.byteLength m.body.messageId ∧ Text.byteLength m.body.messageId ≤ Body.idWidth
  method : 0 < Text.byteLength m.body.method ∧ Text.byteLength m.body.method ≤ Body.methodWidth
  donId : Text.byteLength m.body.donId ≤ Body.donIdWidth

/-- **What the check of a message says** -/
theorem check_eq_ok_iff : m.check S = .ok () ↔
    m.InBounds ∧ ∃ a, Address.parse m.body.sender = .ok a ∧ m.recoverSigner S = .ok a := by
  have hempty : ∀ a, Address.parse m.body.sender = .ok a → 0 < Text.byteLength m.body.sender := by
    intro a ha
    refine Nat.pos_of_ne_zero fun hzero => ?_
    rw [String.utf8ByteSize_eq_zero_iff.1 hzero] at ha
    cases ha
  simp only [check, checkSignature, declaredSender]
  cases hfields : m.checkFields with
  | error o =>
    have hnot : ¬ m.checkFields = .ok () := by rw [hfields]; simp
    rw [checkFields_eq_ok_iff] at hnot
    constructor
    · intro h
      cases h
    · rintro ⟨⟨hid, hmethod, hdon⟩, a, ha, -⟩
      exact absurd ⟨hid, hmethod, hdon, hempty a ha⟩ hnot
  | ok u =>
    obtain ⟨hid, hmethod, hdon, -⟩ := checkFields_eq_ok_iff.1 hfields
    have hbounds : m.InBounds := ⟨hid, hmethod, hdon⟩
    cases hsender : Address.parse m.body.sender with
    | error fault =>
      constructor
      · intro h
        cases h
      · rintro ⟨-, a, ha, -⟩
        cases ha
    | ok declared =>
      cases hsigner : m.recoverSigner S with
      | error o =>
        constructor
        · intro h
          cases h
        · rintro ⟨-, a, -, ha⟩
          cases ha
      | ok signer =>
        by_cases hsame : signer = declared
        · subst hsame
          simp [hbounds, bind, Except.bind]
        · simp [hsame, bind, Except.bind]

/-! ## Main result -/

/-- a message with another sender and signature -/
def signedAs (m : Message) (sender signature : String) : Message := ⟨{ m.body with sender }, signature⟩

/-- what a key that has signed a message can be sure of -/
structure SignedBy (S : Scheme) (key : S.Key) (m : Message) : Prop where
  recovered : m.recoverSigner S = .ok (S.address key)
  checked : m.InBounds → m.check S = .ok ()
  /-- however the signature and the address of the sender are spelled, the signer is recovered and the message accepted
  -/
  respelled : ∀ sender signature, Respells m.signature signature → Address.parse sender = .ok (S.address key) →
    (m.signedAs sender signature).recoverSigner S = .ok (S.address key) ∧
      (m.InBounds → (m.signedAs sender signature).check S = .ok ())
  /-- with a sender that is no address or another one, the message is invalid -/
  foreign : ∀ sender signature, Respells m.signature signature → Address.parse sender ≠ .ok (S.address key) →
    ∃ reason, Gateway.refuse ((m.signedAs sender signature).check S) = .error (.invalidMessage reason)

/-- the signer is recovered from every spelling of a signature and under every sender -/
theorem recoverSigner_signedAs (hrecover : S.recover m.body.digest σ hint = some (S.address key)) (sender : String)
    {signature : String} (hspells : Spells σ hint signature) :
    (m.signedAs sender signature).recoverSigner S = .ok (S.address key) := by
  have hread : (m.signedAs sender signature).readSignature = .ok (σ, hint) := readSignature_of_spells hspells
  have hdigest : (m.signedAs sender signature).body.digest = m.body.digest := rfl
  simp only [recoverSigner, hread, hdigest, hrecover]

/-- texts spell one signature at most -/
theorem Spells.unique {s : String} {σ' : Signature} {hint' : Fin 4} (h : Spells σ hint s) (h' : Spells σ' hint' s) :
    σ = σ' ∧ hint = hint' := by
  have hread : (⟨Body.blank, s⟩ : Message).readSignature = .ok (σ, hint) := readSignature_of_spells h
  have hread' : (⟨Body.blank, s⟩ : Message).readSignature = .ok (σ', hint') := readSignature_of_spells h'
  exact Prod.mk.inj (Except.ok.inj (hread.symm.trans hread'))

/-- **What is signed is accepted, in every spelling, and as nobody else's.** If a key signs what is to be signed of a
message and the signer is recovered from that signature, then the message is signed, it is accepted if its fields are
within their widths, however its signature and the address of its sender are spelled, and it is invalid with any other
sender. -/
theorem sign_then_check (m : Message) (key : S.Key) (hrecovers : S.Recovers key m.body.digest) :
    ∃ m', m.sign S key = some m' ∧ SignedBy S key m' := by
  obtain ⟨σ, hint, hsign, hrecover⟩ := hrecovers
  refine ⟨m.signedAs (S.address key).text (signatureText σ hint), by simp [sign, hsign, signedAs], ?_⟩
  set m' := m.signedAs (S.address key).text (signatureText σ hint)
  have hsigner : ∀ sender signature, Spells σ hint signature →
      (m'.signedAs sender signature).recoverSigner S = .ok (S.address key) :=
    fun sender _ hspells => recoverSigner_signedAs (m := m') hrecover sender hspells
  have hrespells : ∀ signature, Respells m'.signature signature → Spells σ hint signature := by
    rintro signature ⟨σ', hint', hown, hother⟩
    obtain ⟨rfl, rfl⟩ := (spells_signatureText σ hint).unique hown
    exact hother
  have haccepted : ∀ sender signature, Respells m'.signature signature → Address.parse sender = .ok (S.address key) →
      m'.InBounds → (m'.signedAs sender signature).check S = .ok () := by
    intro sender signature hsame hsender hbounds
    have hbounds' : (m'.signedAs sender signature).InBounds := ⟨hbounds.id, hbounds.method, hbounds.donId⟩
    exact check_eq_ok_iff.2 ⟨hbounds', _, hsender, hsigner sender signature (hrespells signature hsame)⟩
  have hown : Respells m'.signature (signatureText σ hint) :=
    ⟨σ, hint, spells_signatureText _ _, spells_signatureText _ _⟩
  refine ⟨hsigner _ _ (spells_signatureText σ hint), haccepted _ _ hown (Address.parse_text _), ?_, ?_⟩
  · intro sender signature hsame hsender
    exact ⟨hsigner sender signature (hrespells signature hsame), haccepted sender signature hsame hsender⟩
  · intro sender signature hsame hsender
    cases hcheck : (m'.signedAs sender signature).check S with
    | error o => exact ⟨o.text, rfl⟩
    | ok u =>
      obtain ⟨-, a, ha, hsigned⟩ := check_eq_ok_iff.1 hcheck
      rw [hsigner sender signature (hrespells signature hsame)] at hsigned
      rw [← Except.ok.inj hsigned] at ha
      exact absurd ha hsender

/-! ## A signature -/

/-- a listing of secrets to be signed -/
def plainListing : Message := .unsigned "42" "secrets_list" "don" .null

/-- the signature of that message under the key one, and the address of the key -/
def recorded : Signature :=
  ⟨0x62d1f74ec0f45e950e85fa6bb732228d6f8281d5a1383ccdd636c3c2dd8fb8e4,
   0x525de811517759b3384e4c464c4fa7c6c628a118d346c81de82462a609d8372f, by decide, by decide⟩

def recordedSigner : Address :=
  ⟨[0x7e, 0x5f, 0x45, 0x52, 0x09, 0x1a, 0x69, 0x12, 0x5d, 0x5d, 0xfc, 0xb7, 0xb8, 0xc2, 0x65, 0x90, 0x29, 0x39, 0x5b,
    0xdf], rfl⟩

section

-- with a name of its own this fact is no part of the scheme
local instance neZero_four : NeZero 4 := ⟨by decide⟩

/-- a scheme of one key, for what has been recorded of it -/
def recordedScheme : Scheme :=
  ⟨Unit, fun _ => recordedSigner, fun _ _ => some (recorded, 0),
    fun _ σ hint => if σ = recorded ∧ hint = 0 then some recordedSigner else none⟩

end

/-- the message can be signed, and its signature be spelled without the mark, in capitals and with the bare hint -/
theorem sign_then_check_recorded :
    recordedScheme.Recovers () plainListing.body.digest ∧ plainListing.InBounds ∧
      Respells (signatureText recorded 0)
        ("62D1F74EC0F45E950E85FA6BB732228D6F8281D5A1383CCDD636C3C2DD8FB8E4"
          ++ "525DE811517759B3384E4C464C4FA7C6C628A118D346C81DE82462A609D8372F00") ∧
      ∃ m', plainListing.sign recordedScheme () = some m' ∧ SignedBy recordedScheme () m' := by
  have hrecovers : recordedScheme.Recovers () plainListing.body.digest := by
    refine ⟨recorded, 0, rfl, ?_⟩
    simp [recordedScheme]
  have hbounds : plainListing.InBounds := ⟨by decide, by decide, by decide⟩
  have hcapitals : Spells recorded 0
      ("62D1F74EC0F45E950E85FA6BB732228D6F8281D5A1383CCDD636C3C2DD8FB8E4"
        ++ "525DE811517759B3384E4C464C4FA7C6C628A118D346C81DE82462A609D8372F00") := by
    refine ⟨_, 0, .inl rfl, .inl rfl, ?_⟩
    decide +kernel
  exact ⟨hrecovers, hbounds, ⟨recorded, 0, spells_signatureText recorded 0, hcapitals⟩,
    sign_then_check (S := recordedScheme) plainListing () hrecovers⟩

end Message

end QuorumGateway
