import QuorumGateway.Proofs.Message.Signing
/-!
Which texts are addresses. Between the blanks around it, such a text has at most one mark `0x` or `0X` and then forty
digits, in any letters; no other text is read, whatever its bytes are. What two digits make is a byte, so the written
form of the address that is read has the same digits in small letters, and texts are spellings of one address when their
digits differ in nothing but letter case.

- `decode_eq_ok_iff`: digits are read as the bytes that are written with these digits in small letters.
- `reading_exact`: the grammar, the bytes, the written form, and the same for values of the data format.
-/

namespace QuorumGateway

namespace Text.Hex

variable {bs : List UInt8} {ds : List Char}

/-! ## Digits -/

/-- the sixteen digits in the order of their values -/
def alphabet : List Char := ['0', '1', '2', '3', '4', '5', '6', '7', '8', '9', 'a', 'b', 'c', 'd', 'e', 'f']

/-- a digit in either letter case; only ASCII letters have a small letter here -/
def HexDigit (c : Char) : Prop := c.toLower ∈ alphabet

def digitValue (c : Char) : Nat := alphabet.idxOf c.toLower

/-- what each two digits make, the high one first -/
def pairValues : List Char → List Nat
  | a :: b :: rest => (16 * digitValue a + digitValue b) :: pairValues rest
  | _ => []

theorem digit_eq_iff {n : Nat} (hn : n < 16) {c : Char} : c = digit n ↔ c ∈ alphabet ∧ alphabet.idxOf c = n := by
  have hall : ∀ n < 16, digit n ∈ alphabet ∧ alphabet.idxOf (digit n) = n ∧ alphabet[n]? = some (digit n) := by decide
  obtain ⟨hmem, hindex, hget⟩ := hall n hn
  constructor
  · rintro rfl
    exact ⟨hmem, hindex⟩
  · rintro ⟨hc, rfl⟩
    have hself : alphabet[alphabet.idxOf c]? = some c := List.getElem?_idxOf hc
    exact Option.some.inj (hself.symm.trans hget)

/-- what is not in ASCII has no small letter -/
theorem HexDigit.ascii {c : Char} (hc : HexDigit c) : c.toNat < 128 := by
  -- said of the list, so that the sixteen digits are tried and not all characters
  have hall : (alphabet.all fun d => d.toNat < 128) = true := by decide
  have hlower : c.toLower.toNat < 128 := by simpa using List.all_eq_true.1 hall c.toLower hc
  rcases toLower_cases c with ⟨hsame, -⟩ | ⟨-, hhigh, -⟩
  · rwa [hsame] at hlower
  · omega

theorem digitValue_lt {c : Char} (hc : HexDigit c) : digitValue c < 16 := List.idxOf_lt_length_of_mem hc

theorem byteDigits_eq_iff {a b : Char} {x : UInt8} :
    [a.toLower, b.toLower] = byteDigits x ↔
      HexDigit a ∧ HexDigit b ∧ x.toNat = 16 * digitValue a + digitValue b := by
  have hx : x.toNat < 256 := x.toNat_lt_size
  have hhigh := digit_eq_iff (n := x.toNat / 16) (c := a.toLower) (by omega)
  have hlow := digit_eq_iff (n := x.toNat % 16) (c := b.toLower) (by omega)
  simp only [byteDigits, List.cons.injEq, and_true, hhigh, hlow]
  change (HexDigit a ∧ digitValue a = x.toNat / 16) ∧ (HexDigit b ∧ digitValue b = x.toNat % 16) ↔ _
  constructor
  · rintro ⟨⟨ha, hvalueA⟩, hb, hvalueB⟩
    exact ⟨ha, hb, by omega⟩
  · rintro ⟨ha, hb, hsum⟩
    have := digitValue_lt hb
    exact ⟨⟨ha, by omega⟩, hb, by omega⟩

/-- characters are the digits of bytes, but for letter case, when there are two digits for each byte and they make it -/
theorem map_toLower_eq_iff :
    ds.map Char.toLower = bs.flatMap byteDigits ↔
      ds.length = 2 * bs.length ∧ (∀ c ∈ ds, HexDigit c) ∧ bs.map UInt8.toNat = pairValues ds := by
  induction bs generalizing ds with
  | nil => cases ds <;> simp [pairValues]
  | cons x bs ih =>
    rcases ds with _ | ⟨a, _ | ⟨b, rest⟩⟩
    · simp [byteDigits]
    · have hshort : ¬ 1 = 2 * (bs.length + 1) := by omega
      simp [byteDigits, hshort]
    · have hlength : (a :: b :: rest).length = 2 * (x :: bs).length ↔ rest.length = 2 * bs.length := by
        rw [List.length_cons, List.length_cons, List.length_cons]
        omega
      calc (a :: b :: rest).map Char.toLower = (x :: bs).flatMap byteDigits
          ↔ [a.toLower, b.toLower] = byteDigits x ∧ rest.map Char.toLower = bs.flatMap byteDigits := by
            simp [byteDigits, and_assoc]
        _ ↔ _ := by
            rw [byteDigits_eq_iff, ih, hlength, List.map_cons, pairValues, List.cons.injEq, List.forall_mem_cons,
              List.forall_mem_cons]
            tauto

/-- digits make bytes, two digits each -/
theorem exists_bytes {k : Nat} (hlength : ds.length = 2 * k) (hds : ∀ c ∈ ds, HexDigit c) :
    ∃ bs : List UInt8, bs.length = k ∧ bs.map UInt8.toNat = pairValues ds := by
  induction k generalizing ds with
  | zero => exact ⟨[], rfl, by rw [List.length_eq_zero_iff.1 hlength]; rfl⟩
  | succ k ih =>
    rcases ds with _ | ⟨a, _ | ⟨b, rest⟩⟩
    · simp at hlength
    · rw [List.length_singleton] at hlength
      omega
    · rw [List.length_cons, List.length_cons] at hlength
      obtain ⟨ha, hds⟩ := List.forall_mem_cons.1 hds
      obtain ⟨hb, hrest⟩ := List.forall_mem_cons.1 hds
      obtain ⟨bs, hbs, hvalues⟩ := ih (by omega) hrest
      have hhigh := digitValue_lt ha
      have hlow := digitValue_lt hb
      refine ⟨UInt8.ofNat (16 * digitValue a + digitValue b) :: bs, by rw [List.length_cons, hbs], ?_⟩
      rw [List.map_cons, hvalues, pairValues, UInt8.toNat_ofNat', Nat.mod_eq_of_lt (by omega)]

/-! ## Reading digits -/

/-- a byte that has a value is, as a small letter, the digit of that value -/
theorem lowerByte_of_value? {b x : UInt8} (h : value? b = some x) :
    lowerByte b = UInt8.ofNat (digit x.toNat).toNat ∧ x.toNat < 16 := by
  have hall : ∀ n < 256, ((value? (UInt8.ofNat n)).all fun x =>
      lowerByte (UInt8.ofNat n) = UInt8.ofNat (digit x.toNat).toNat ∧ x.toNat < 16) = true := by
    decide +kernel
  have hb := hall b.toNat b.toNat_lt_size
  rw [UInt8.ofNat_toNat, h] at hb
  simpa using hb

theorem byteDigits_of_halves {x y : UInt8} (hx : x.toNat < 16) (hy : y.toNat < 16) :
    byteDigits (x * 16 + y) = [digit x.toNat, digit y.toNat] := by
  have hsum : (x * 16 + y).toNat = 16 * x.toNat + y.toNat := by
    have hsixteen : (16 : UInt8).toNat = 16 := rfl
    rw [UInt8.toNat_add, UInt8.toNat_mul, hsixteen]
    omega
  have hhigh : (16 * x.toNat + y.toNat) / 16 = x.toNat := by omega
  have hlow : (16 * x.toNat + y.toNat) % 16 = y.toNat := by omega
  rw [byteDigits, hsum, hhigh, hlow]

theorem bytes_of_decodePairs {index : Nat} {l : List UInt8} (heven : l.length % 2 = 0)
    (h : decodePairs index l = .ok bs) :
    l.map lowerByte = (bs.flatMap byteDigits).map fun c => UInt8.ofNat c.toNat := by
  fun_induction decodePairs index l generalizing bs with
  | case1 index a b rest x y hy hx bs' hrest ih =>
    cases h
    obtain ⟨hlowerX, hltX⟩ := lowerByte_of_value? hx
    obtain ⟨hlowerY, hltY⟩ := lowerByte_of_value? hy
    have htail := ih (by rw [List.length_cons, List.length_cons] at heven; omega) hrest
    rw [List.map_cons, List.map_cons, hlowerX, hlowerY, htail, List.flatMap_cons, byteDigits_of_halves hltX hltY]
    rfl
  | case2 => cases h
  | case3 => cases h
  | case4 => cases h
  | case5 l _ hshort =>
    cases h
    rcases l with _ | ⟨a, _ | ⟨b, rest⟩⟩
    · rfl
    · simp at heven
    · exact absurd rfl (hshort a b rest)

/-- **Digits are read as the bytes that are written with them in small letters** -/
theorem decode_eq_ok_iff {digits : String} : decode digits = .ok bs ↔ lower digits = encode bs := by
  refine ⟨fun h => ?_, decode_of_lower⟩
  unfold decode at h
  split_ifs at h with hodd
  apply bytes_injective
  rw [bytes_lower, bytes_encode]
  exact bytes_of_decodePairs (by omega) h

end Text.Hex

open Text Text.Hex

namespace Address

variable {s s' : String} {body ds ds' : List Char} {a : Address}

/-! ## The grammar -/

/-- a text without one mark in front, if it has one -/
inductive Unmarked : List Char → List Char → Prop where
  | marked {x : Char} (hx : x = 'x' ∨ x = 'X') (rest : List Char) : Unmarked ('0' :: x :: rest) rest
  | bare {t : List Char} (h : ∀ x rest, x = 'x' ∨ x = 'X' → t ≠ '0' :: x :: rest) : Unmarked t t

/-- what of a text has to be digits: the part between the blanks around it, without a mark -/
def Body (s : String) (body : List Char) : Prop :=
  ∃ before inner after, AllBlank before ∧ AllBlank after ∧ Trimmed inner ∧
    s.toList = before ++ inner ++ after ∧ Unmarked inner body

/-- a text is an address spelled with the digits `ds` -/
structure Spelling (s : String) (ds : List Char) : Prop where
  body : Body s ds
  length_eq : ds.length = 40
  digits : ∀ c ∈ ds, HexDigit c

theorem unmarked_iff {t : List Char} : Unmarked t body ↔ stripMark t = body := by
  constructor
  · intro h
    cases h with
    | marked hx rest => rcases hx with rfl | rfl <;> rfl
    | bare h =>
      unfold stripMark
      split
      · exact absurd rfl (h 'x' _ (.inl rfl))
      · exact absurd rfl (h 'X' _ (.inr rfl))
      · rfl
  · rintro rfl
    unfold stripMark
    split
    · exact .marked (.inl rfl) _
    · exact .marked (.inr rfl) _
    · rename_i hsmall hcapital
      refine .bare fun x rest hx heq => ?_
      rcases hx with rfl | rfl
      · exact hsmall rest heq
      · exact hcapital rest heq

/-- a text has one body, and that is what is read as digits -/
theorem body_iff : Body s body ↔ digits s = String.ofList body := by
  have hstrip : digits s = String.ofList body ↔ Unmarked (trimChars s.toList) body := by
    rw [digits, String.ofList_inj, unmarked_iff]
  rw [hstrip]
  constructor
  · rintro ⟨before, inner, after, hbefore, hafter, htrimmed, hsplit, hbody⟩
    rwa [trimChars_eq_iff.2 ⟨htrimmed, before, after, hbefore, hafter, hsplit⟩]
  · intro hbody
    obtain ⟨htrimmed, before, after, hbefore, hafter, hsplit⟩ := trimChars_eq_iff.1 (Eq.refl (trimChars s.toList))
    exact ⟨before, _, after, hbefore, hafter, htrimmed, hsplit, hbody⟩

/-! ## Reading -/

theorem parse_eq_ok_iff_lower : parse s = .ok a ↔ lower (digits s) = encode a.bytes := by
  rw [← decode_eq_ok_iff, parse_eq]
  constructor
  · intro h
    split_ifs at h with hlength
    cases hdecode : decode (digits s) with
    | error e => simp [hdecode, Except.toOption] at h
    | ok bs =>
      simp only [hdecode, Except.toOption] at h
      split_ifs at h with hbytes
      cases h
      rfl
  · intro h
    have hlower := decode_eq_ok_iff.1 h
    have hlength : byteLength (digits s) = 40 := by
      rw [← byteLength_lower, hlower, ← Text.length_bytes, length_bytes_encode, a.length_bytes]
    rw [if_neg (not_not_intro hlength), h]
    exact dif_pos a.length_bytes

theorem lower_eq_encode_iff {bs : List UInt8} :
    lower (String.ofList ds) = encode bs ↔
      ds.length = 2 * bs.length ∧ (∀ c ∈ ds, HexDigit c) ∧ bs.map UInt8.toNat = pairValues ds := by
  rw [lower, encode, String.toList_ofList, String.ofList_inj, map_toLower_eq_iff]

/-- **The grammar**: exactly the texts with forty digits are read, as the bytes that their digits make -/
theorem parse_eq_ok_iff :
    parse s = .ok a ↔ ∃ ds, Spelling s ds ∧ a.bytes.map UInt8.toNat = pairValues ds := by
  rw [parse_eq_ok_iff_lower]
  constructor
  · intro h
    have hbody : digits s = String.ofList (digits s).toList := String.ofList_toList.symm
    rw [hbody] at h
    obtain ⟨hlength, hds, hvalues⟩ := lower_eq_encode_iff.1 h
    rw [a.length_bytes] at hlength
    exact ⟨_, ⟨body_iff.2 hbody, hlength, hds⟩, hvalues⟩
  · rintro ⟨ds, ⟨hbody, hlength, hds⟩, hvalues⟩
    rw [body_iff.1 hbody]
    exact lower_eq_encode_iff.2 ⟨by rw [hlength, a.length_bytes], hds, hvalues⟩

/-- what is spelled is read, and written with its digits in small letters -/
theorem exists_parse (h : Spelling s ds) :
    ∃ a, parse s = .ok a ∧ a.text = "0x" ++ String.ofList (ds.map Char.toLower) := by
  obtain ⟨bs, hlength, hvalues⟩ := exists_bytes (k := 20) h.length_eq h.digits
  have hwritten : ds.map Char.toLower = bs.flatMap byteDigits :=
    map_toLower_eq_iff.2 ⟨by rw [h.length_eq, hlength], h.digits, hvalues⟩
  refine ⟨⟨bs, hlength⟩, parse_eq_ok_iff.2 ⟨ds, h, hvalues⟩, ?_⟩
  rw [text, encode, ← hwritten]

theorem text_of_parse (h : Spelling s ds) (ha : parse s = .ok a) :
    a.text = "0x" ++ String.ofList (ds.map Char.toLower) := by
  obtain ⟨a', ha', htext⟩ := exists_parse h
  rw [ha, Except.ok.injEq] at ha'
  rw [ha', htext]

theorem text_injective {a a' : Address} (h : a.text = a'.text) : a = a' := by
  have hread := parse_text a
  rw [h, parse_text] at hread
  exact (Except.ok.inj hread).symm

/-- **One address, one written form**: texts are read as one address when they have the same digits but for letter case
-/
theorem parse_eq_parse_iff (h : Spelling s ds) (h' : Spelling s' ds') :
    parse s = parse s' ↔ ds.map Char.toLower = ds'.map Char.toLower := by
  obtain ⟨a, ha, htext⟩ := exists_parse h
  obtain ⟨a', ha', htext'⟩ := exists_parse h'
  have hdigits : a.text = a'.text ↔ ds.map Char.toLower = ds'.map Char.toLower := by
    rw [htext, htext', String.append_right_inj, String.ofList_inj]
  rw [ha, ha', Except.ok.injEq, ← hdigits]
  constructor
  · intro hsame
    rw [hsame]
  · exact text_injective

/-- a body with as many bytes as forty digits that is not made of digits -/
theorem parse_eq_notHex (hbody : Body s body) (hlength : byteLength (String.ofList body) = 40)
    (hother : ∃ c ∈ body, ¬ HexDigit c) : parse s = .error .notHex := by
  rw [parse_eq, body_iff.1 hbody, if_neg (not_not_intro hlength)]
  cases hdecode : decode (String.ofList body) with
  | ok bs =>
    obtain ⟨-, hds, -⟩ := lower_eq_encode_iff.1 (decode_eq_ok_iff.1 hdecode)
    obtain ⟨c, hc, hnot⟩ := hother
    exact absurd (hds c hc) hnot
  | error e => rfl

/-! ## Values of the data format -/

/-- an address is read off a string, wherever the string comes from -/
theorem read_eq_ok_iff {o : Origin} {d : Draft} :
    read o d = .ok a ↔ ∃ s, d = .string (some s) ∧ parse s = .ok a := by
  cases d with
  | string content =>
    cases content with
    | none => simp [read, Decode.string, bind, Except.bind]
    | some s => cases hparse : parse s <;> simp [read, Decode.string, bind, Except.bind, hparse, pure, Except.pure]
  | _ => simp [read, Decode.string, bind, Except.bind]

theorem ofJson_read_eq_ok_iff {v : Json} :
    Decode.ofJson read v = .ok a ↔ ∃ s, v = .string s ∧ parse s = .ok a := by
  rw [Decode.ofJson, read_eq_ok_iff]
  cases v <;> simp [Draft.ofJson]

/-- **What is an address, and what it is written as.** A text is read exactly if it has forty digits between the blanks
around it and behind at most one mark, as the bytes that its digits make, and every such text is read. What an address
is written as is read back; what is read is written as its digits in small letters, so texts are read as one address
exactly if their digits are the same but for letter case. Values of the data format are read exactly if they are
strings that are read, and written back as that form. A text whose body is as long as forty digits in bytes is refused
as soon as one of its characters is not in ASCII. -/
theorem reading_exact :
    (∀ s a, parse s = .ok a ↔ ∃ ds, Spelling s ds ∧ a.bytes.map UInt8.toNat = pairValues ds) ∧
      (∀ s, (∃ a, parse s = .ok a) ↔ ∃ ds, Spelling s ds) ∧
      (∀ a, parse a.text = .ok a) ∧
      (∀ s ds a, Spelling s ds → parse s = .ok a → a.text = "0x" ++ String.ofList (ds.map Char.toLower)) ∧
      (∀ s s' ds ds', Spelling s ds → Spelling s' ds' →
        (parse s = parse s' ↔ ds.map Char.toLower = ds'.map Char.toLower)) ∧
      (∀ v a, Decode.ofJson read v = .ok a ↔ ∃ s, v = .string s ∧ parse s = .ok a) ∧
      (∀ s ds a, Spelling s ds → Decode.ofJson read (.string s) = .ok a →
        a.toJson = .string ("0x" ++ String.ofList (ds.map Char.toLower))) ∧
      ∀ s body, Body s body → byteLength (String.ofList body) = 40 → (∃ c ∈ body, 128 ≤ c.toNat) →
        parse s = .error .notHex := by
  refine ⟨fun s a => parse_eq_ok_iff, fun s => ?_, parse_text, fun s ds a => text_of_parse,
    fun s s' ds ds' => parse_eq_parse_iff, fun v a => ofJson_read_eq_ok_iff, fun s ds a h hread => ?_,
    fun s body hbody hlength hwide => ?_⟩
  · constructor
    · rintro ⟨a, ha⟩
      obtain ⟨ds, hspelling, -⟩ := parse_eq_ok_iff.1 ha
      exact ⟨ds, hspelling⟩
    · rintro ⟨ds, hspelling⟩
      obtain ⟨a, ha, -⟩ := exists_parse hspelling
      exact ⟨a, ha⟩
  · obtain ⟨s', hs', ha⟩ := ofJson_read_eq_ok_iff.1 hread
    cases hs'
    rw [toJson, text_of_parse h ha]
  · obtain ⟨c, hc, hlarge⟩ := hwide
    exact parse_eq_notHex hbody hlength ⟨c, hc, fun hdigit => absurd hdigit.ascii (Nat.not_lt_of_le hlarge)⟩

/-- a text with a wide blank in front, a capital mark, digits in both letter cases and a line end -/
theorem reading_exact_spelled :
    Spelling "\u2003 0XAbCdEf0000000000000000000000000000000001\n" "AbCdEf0000000000000000000000000000000001".toList ∧
      (∃ a, parse "\u2003 0XAbCdEf0000000000000000000000000000000001\n" = .ok a ∧
        a.text = "0xabcdef0000000000000000000000000000000001") ∧
      parse "éééééééééééééééééééé" = .error .notHex := by
  obtain ⟨-, haccepts, -, htext, -, -, -, hwide⟩ := reading_exact
  have hspelling : Spelling "\u2003 0XAbCdEf0000000000000000000000000000000001\n"
      "AbCdEf0000000000000000000000000000000001".toList := by
    refine ⟨⟨['\u2003', ' '], "0XAbCdEf0000000000000000000000000000000001".toList, ['\n'], ?_, ?_, ?_, ?_, ?_⟩, ?_, ?_⟩
    · exact List.all_eq_true.1 (by decide)
    · exact List.all_eq_true.1 (by decide)
    · exact ⟨by rintro _ ⟨⟩; rfl, by rintro _ ⟨⟩; rfl⟩
    · decide
    · exact .marked (.inr rfl) _
    · decide
    · have hall : ("AbCdEf0000000000000000000000000000000001".toList.all fun c => c.toLower ∈ alphabet) = true := by
        decide
      simpa [HexDigit] using hall
  have hbody : Body "éééééééééééééééééééé" "éééééééééééééééééééé".toList := by
    refine ⟨[], _, [], nofun, nofun, ?_, ?_, .bare ?_⟩
    · exact ⟨by rintro _ ⟨⟩; rfl, by rintro _ ⟨⟩; rfl⟩
    · decide
    · intro x rest hx h
      have hhead : some 'é' = some '0' := congrArg List.head? h
      exact absurd hhead (by decide)
  refine ⟨hspelling, ?_, hwide _ _ hbody (by decide) ⟨'é', by decide, by decide⟩⟩
  obtain ⟨a, ha⟩ := (haccepts _).2 ⟨_, hspelling⟩
  exact ⟨a, ha, (htext _ _ a hspelling ha).trans (by decide)⟩

end Address

end QuorumGateway
