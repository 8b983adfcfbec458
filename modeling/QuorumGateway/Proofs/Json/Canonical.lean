import QuorumGateway.Json.Printer
import QuorumGateway.Proofs.Decimal.Layout
import QuorumGateway.Proofs.Text.Spelling
/-!
The compact text of a document determines the document, and so do the bytes of that text (`encoding_injective`). A value
is read off the front of a text in one way only (`compact_append`): its first character tells of what kind it is
(`kind_of_head`), a string ends at the first quote that is not escaped, a number before the first character that ends an
item, and the items of a container are read off one after the other.

Numbers that are not finite have no place in a document; of two documents with one text, one that is without them
(`Proper`) makes the other its equal.
-/

namespace QuorumGateway

/-! ## Numbers -/

namespace Number

/-- a number that has a place in a document -/
def Proper : Number → Prop
  | .int _ => True
  | .float x => x.isFinite = true

theorem isNumeral_of_mem_text {n : Number} (hn : n.Proper) {c : Char} (hc : c ∈ n.text.toList) :
    Decimal.isNumeral c = true := by
  cases n with
  | int i =>
    rcases Text.mem_ofInt hc with hdigit | rfl
    · exact Decimal.isNumeral_of_isDigit hdigit
    · rfl
  | float x => exact Decimal.isNumeral_of_mem_text hn hc

/-- what is not finite is written with other letters -/
theorem text_of_not_proper {n : Number} (hn : ¬ n.Proper) : n.text = "NaN" ∨ n.text = "inf" ∨ n.text = "-inf" := by
  cases n with
  | int i => exact absurd trivial hn
  | float x => exact Decimal.text_of_not_finite (Bool.eq_false_iff.2 hn)

/-- what holds of all characters of numbers, and of the letters for what is not finite -/
theorem forall_mem_text {p : Char → Bool} (hnumeral : ∀ c, Decimal.isNumeral c = true → p c = true)
    (hwords : (["NaN", "inf", "-inf"].all fun s => s.toList.all p) = true) {n : Number} {c : Char}
    (hc : c ∈ n.text.toList) : p c = true := by
  by_cases hn : n.Proper
  · exact hnumeral c (isNumeral_of_mem_text hn hc)
  · have hall := List.all_eq_true.1 hwords n.text (by simpa using text_of_not_proper hn)
    exact List.all_eq_true.1 hall c hc

theorem exists_letter {n : Number} (hn : ¬ n.Proper) : ∃ c ∈ n.text.toList, Decimal.isNumeral c = false := by
  rcases text_of_not_proper hn with htext | htext | htext <;> rw [htext]
  · exact ⟨'N', by decide, rfl⟩
  · exact ⟨'i', by decide, rfl⟩
  · exact ⟨'i', by decide, rfl⟩

theorem text_ne_nil (n : Number) : n.text.toList ≠ [] := by
  intro hnil
  by_cases hn : n.Proper
  · cases n with
    | int i => exact Text.ofInt_ne_nil i hnil
    | float x =>
      rcases Decimal.mark_mem_text hn with hmem | hmem <;> exact absurd (hnil ▸ hmem) List.not_mem_nil
  · obtain ⟨c, hc, -⟩ := exists_letter hn
    exact absurd (hnil ▸ hc) List.not_mem_nil

/-- a whole number has no point and no exponent -/
theorem ofInt_ne_text (i : Int) {x : Decimal.Binary64} (hx : x.isFinite = true) :
    Text.ofInt i ≠ Decimal.Layout.payload.text x := by
  intro heq
  rcases Decimal.mark_mem_text hx with hmem | hmem <;> rw [← heq] at hmem <;>
    rcases Text.mem_ofInt hmem with hc | hc <;> revert hc <;> decide

theorem text_injective {n n' : Number} (hn : n.Proper) (h : n.text = n'.text) : n = n' := by
  have hn' : n'.Proper := by
    by_contra himproper
    obtain ⟨c, hc, hletter⟩ := exists_letter himproper
    rw [← h] at hc
    exact absurd (isNumeral_of_mem_text hn hc) (by simp [hletter])
  cases n <;> cases n'
  · rw [Text.ofInt_injective h]
  · exact absurd h (ofInt_ne_text _ hn')
  · exact absurd h.symm (ofInt_ne_text _ hn)
  · rw [Decimal.payload_text_injective hn hn' h]

end Number

namespace Json

/-! ## Strings -/

/-- the value of a hexadecimal digit -/
def hexValue (c : Char) : Nat := if c.isDigit then c.toNat - 48 else c.toNat - 87

/-- the first character of the inside of a string, and what follows it -/
def unescape : List Char → Char × List Char
  | '\\' :: 'u' :: _ :: _ :: high :: low :: rest => (Char.ofNat (16 * hexValue high + hexValue low), rest)
  | '\\' :: 'n' :: rest => ('\n', rest)
  | '\\' :: 'r' :: rest => ('\r', rest)
  | '\\' :: 't' :: rest => ('\t', rest)
  | '\\' :: 'b' :: rest => ('\x08', rest)
  | '\\' :: 'f' :: rest => ('\x0c', rest)
  | '\\' :: c :: rest => (c, rest)
  | c :: rest => (c, rest)
  | [] => (' ', [])

theorem hexValue_digitChar : ∀ n < 16, hexValue (Nat.digitChar n) = n := by decide

theorem unescape_escape (c : Char) (rest : List Char) : unescape (escape c ++ rest) = (c, rest) := by
  unfold escape
  split_ifs with h1 h2 h3 h4 h5 h6 h7 h8
  · rw [h1]
    rfl
  · rw [h2]
    rfl
  · rw [h3]
    rfl
  · rw [h4]
    rfl
  · rw [h5]
    rfl
  · rw [h6]
    rfl
  · rw [h7]
    rfl
  · have hlow : c.toNat < 32 := h8
    have hcode : 16 * (c.toNat / 16) + c.toNat % 16 = c.toNat := Nat.div_add_mod _ _
    simp [codeEscape, unescape, hexValue_digitChar (c.toNat / 16) (by omega),
      hexValue_digitChar (c.toNat % 16) (by omega), hcode]
  · simp [unescape, h2]

/-- what stands for a character inside a string does not begin with a quote -/
theorem escape_ne_quote (c : Char) (rest more : List Char) : escape c ++ rest ≠ '"' :: more := by
  intro h
  have hread := congrArg unescape h
  rw [unescape_escape] at hread
  obtain rfl : c = '"' := congrArg Prod.fst hread
  exact absurd (List.cons.inj h).1 (by decide)

theorem escaped_append {cs cs' r r' : List Char}
    (h : cs.flatMap escape ++ '"' :: r = cs'.flatMap escape ++ '"' :: r') : cs = cs' ∧ r = r' := by
  induction cs generalizing cs' with
  | nil =>
    cases cs' with
    | nil => exact ⟨rfl, (List.cons.inj h).2⟩
    | cons c' cs' =>
      rw [List.flatMap_cons, List.append_assoc] at h
      exact absurd h.symm (escape_ne_quote _ _ _)
  | cons c cs ih =>
    cases cs' with
    | nil =>
      rw [List.flatMap_cons, List.append_assoc] at h
      exact absurd h (escape_ne_quote _ _ _)
    | cons c' cs' =>
      rw [List.flatMap_cons, List.flatMap_cons, List.append_assoc, List.append_assoc] at h
      have hread := congrArg unescape h
      rw [unescape_escape, unescape_escape, Prod.mk.injEq] at hread
      obtain ⟨rfl, hrest⟩ := ih hread.2
      exact ⟨by rw [hread.1], hrest⟩

theorem quote_append {s s' : String} {r r' : List Char} (h : (quote s).toList ++ r = (quote s').toList ++ r') :
    s = s' ∧ r = r' := by
  simp only [quote, String.toList_ofList, List.cons_append, List.append_assoc, List.cons.injEq, true_and,
    List.nil_append] at h
  obtain ⟨hs, hr⟩ := escaped_append h
  exact ⟨String.toList_inj.1 hs, hr⟩

/-! ## The first character -/

/-- the kinds of values -/
inductive Kind where
  | null | bool | number | string | array | object
deriving DecidableEq

/-- the kind of a value -/
def kind : Json → Kind
  | .null => .null
  | .bool _ => .bool
  | .number _ => .number
  | .string _ => .string
  | .array _ => .array
  | .object _ => .object

/-- the characters that stand after a value in a container -/
def isStop (c : Char) : Bool := c == ',' || c == ']' || c == '\x7d'

/-- the kind of a value that begins with a character -/
def kindOf (c : Char) : Option Kind :=
  if isStop c then none
  else if c = 'n' then some .null
  else if c = 't' ∨ c = 'f' then some .bool
  else if c = '"' then some .string
  else if c = '[' then some .array
  else if c = '\x7b' then some .object
  else some .number

theorem kindOf_of_isNumeral {c : Char} (hc : Decimal.isNumeral c = true) : kindOf c = some .number := by
  unfold kindOf
  split_ifs with hstop hn htf hquote harray hobject
  · simp only [isStop, Bool.or_eq_true, beq_iff_eq] at hstop
    rcases hstop with (rfl | rfl) | rfl <;> exact absurd hc (by decide)
  · exact absurd (hn ▸ hc) (by decide)
  · rcases htf with rfl | rfl <;> exact absurd hc (by decide)
  · exact absurd (hquote ▸ hc) (by decide)
  · exact absurd (harray ▸ hc) (by decide)
  · exact absurd (hobject ▸ hc) (by decide)
  · rfl

theorem number_head (n : Number) : ∃ c rest, n.text.toList = c :: rest ∧ kindOf c = some .number := by
  obtain ⟨c, rest, htext⟩ := List.exists_cons_of_ne_nil n.text_ne_nil
  refine ⟨c, rest, htext, ?_⟩
  by_cases hn : n.Proper
  · exact kindOf_of_isNumeral (Number.isNumeral_of_mem_text hn (htext ▸ List.mem_cons_self))
  · rcases Number.text_of_not_proper hn with h | h | h <;> rw [h] at htext <;>
      rw [← (List.cons.inj htext).1] <;> rfl

/-- the first character tells the kind -/
theorem kind_of_head (v : Json) : ∃ c rest, (compact v).toList = c :: rest ∧ kindOf c = some v.kind := by
  cases v with
  | null => exact ⟨'n', ['u', 'l', 'l'], by simp [compact], rfl⟩
  | bool b => cases b <;> simp [compact, kind, kindOf, isStop]
  | number n =>
    rw [compact]
    exact number_head n
  | string s => exact ⟨'"', s.toList.flatMap escape ++ ['"'], by simp [compact, quote], rfl⟩
  | array items => exact ⟨'[', (Text.join "," (compactItems items)).toList ++ [']'], by simp [compact], rfl⟩
  | object members =>
    exact ⟨'\x7b', (Text.join "," (compactMembers members)).toList ++ ['\x7d'], by simp [compact], rfl⟩

theorem kind_eq_of_append {v w : Json} {r r' : List Char}
    (h : (compact v).toList ++ r = (compact w).toList ++ r') : v.kind = w.kind := by
  obtain ⟨c, rest, hv, hkind⟩ := kind_of_head v
  obtain ⟨c', rest', hw, hkind'⟩ := kind_of_head w
  rw [hv, hw, List.cons_append, List.cons_append] at h
  rw [(List.cons.inj h).1, hkind'] at hkind
  exact (Option.some.inj hkind).symm

theorem append_ne_stop {v : Json} {r r' : List Char} {stop : Char} (hstop : isStop stop = true) :
    (compact v).toList ++ r ≠ stop :: r' := by
  intro h
  obtain ⟨c, rest, hv, hkind⟩ := kind_of_head v
  rw [hv, List.cons_append] at h
  simp [kindOf, (List.cons.inj h).1, hstop] at hkind

/-! ## What follows a value -/

/-- a text that cannot go on a number -/
def Ends (r : List Char) : Prop := ∀ c ∈ r.head?, isStop c = true

/-- what follows the first part of a container -/
def following (stop : Char) (r : List Char) : List String → List Char
  | [] => stop :: r
  | s :: parts => ',' :: ((Text.join "," (s :: parts)).toList ++ stop :: r)

theorem ends_following {stop : Char} (hstop : isStop stop = true) (r : List Char) (parts : List String) :
    Ends (following stop r parts) := by
  intro c hc
  cases parts with
  | nil =>
    obtain rfl : stop = c := by simpa [following] using hc
    exact hstop
  | cons s parts =>
    obtain rfl : ',' = c := by simpa [following] using hc
    rfl

theorem join_append (stop : Char) (r : List Char) (s : String) (parts : List String) :
    (Text.join "," (s :: parts)).toList ++ stop :: r = s.toList ++ following stop r parts := by
  cases parts <;> simp [Text.join, following]

theorem following_injective {stop : Char} (hcomma : stop ≠ ',') {r r' : List Char} {parts parts' : List String}
    (h : following stop r parts = following stop r' parts') :
    (Text.join "," parts).toList ++ stop :: r = (Text.join "," parts').toList ++ stop :: r' := by
  cases parts <;> cases parts'
  · exact congrArg _ h
  · exact absurd (List.cons.inj h).1 hcomma
  · exact absurd (List.cons.inj h).1.symm hcomma
  · exact (List.cons.inj h).2

/-! ## Reading values off a text -/

theorem isStop_of_mem_text {n : Number} {c : Char} (hc : c ∈ n.text.toList) : isStop c = false := by
  have hnumeral : ∀ c, Decimal.isNumeral c = true → (!isStop c) = true := by
    intro c hc
    by_contra hstop
    have hkind := kindOf_of_isNumeral hc
    simp_all [kindOf]
  simpa using Number.forall_mem_text hnumeral (by decide) hc

/-- a number is read up to the end of its container -/
theorem number_append {n n' : Number} {r r' : List Char} (hr : Ends r) (hr' : Ends r')
    (h : n.text.toList ++ r = n'.text.toList ++ r') : n.text = n'.text ∧ r = r' := by
  have hread : ∀ (n : Number) (r : List Char), Ends r →
      (n.text.toList ++ r).takeWhile (fun c => !isStop c) = n.text.toList := by
    intro n r hr
    rw [List.takeWhile_append_of_pos fun c hc => by simp [isStop_of_mem_text hc]]
    cases r with
    | nil => simp
    | cons c r => simp [hr c rfl]
  have htext : n.text.toList = n'.text.toList := by rw [← hread n r hr, h, hread n' r' hr']
  rw [htext] at h
  exact ⟨String.toList_inj.1 htext, List.append_cancel_left h⟩

theorem bool_append {b b' : Bool} {r r' : List Char}
    (h : (compact (.bool b)).toList ++ r = (compact (.bool b')).toList ++ r') : b = b' ∧ r = r' := by
  cases b <;> cases b' <;> simp_all [compact]

mutual

/-- all numbers of a document have a place in it -/
def Proper : Json → Prop
  | .null | .bool _ | .string _ => True
  | .number n => n.Proper
  | .array items => ProperItems items
  | .object members => ProperMembers members

/-- all items of an array are proper -/
def ProperItems : List Json → Prop
  | [] => True
  | v :: rest => v.Proper ∧ ProperItems rest

/-- the values of all members of an object are proper -/
def ProperMembers : List (String × Json) → Prop
  | [] => True
  | (_, v) :: rest => v.Proper ∧ ProperMembers rest

end

mutual

/-- a value is read off the front of a text in one way only -/
theorem compact_append : ∀ (v w : Json) (r r' : List Char), v.Proper → Ends r → Ends r' →
    (compact v).toList ++ r = (compact w).toList ++ r' → v = w ∧ r = r'
  | .null => by
    intro w r r' hv hr hr' h
    have hkind := kind_eq_of_append h
    cases w with
    | null => exact ⟨rfl, List.append_cancel_left h⟩
    | _ => cases hkind
  | .bool b => by
    intro w r r' hv hr hr' h
    have hkind := kind_eq_of_append h
    cases w with
    | bool b' =>
      obtain ⟨rfl, hrest⟩ := bool_append h
      exact ⟨rfl, hrest⟩
    | _ => cases hkind
  | .number n => by
    intro w r r' hv hr hr' h
    have hkind := kind_eq_of_append h
    cases w with
    | number n' =>
      rw [compact, compact] at h
      obtain ⟨htext, hrest⟩ := number_append hr hr' h
      rw [Proper] at hv
      exact ⟨by rw [Number.text_injective hv htext], hrest⟩
    | _ => cases hkind
  | .string s => by
    intro w r r' hv hr hr' h
    have hkind := kind_eq_of_append h
    cases w with
    | string s' =>
      rw [compact, compact] at h
      obtain ⟨rfl, hrest⟩ := quote_append h
      exact ⟨rfl, hrest⟩
    | _ => cases hkind
  | .array items => by
    intro w r r' hv hr hr' h
    have hkind := kind_eq_of_append h
    cases w with
    | array items' =>
      rw [Proper] at hv
      obtain ⟨rfl, hrest⟩ := items_append items items' r r' hv (by simpa [compact] using h)
      exact ⟨rfl, hrest⟩
    | _ => cases hkind
  | .object members => by
    intro w r r' hv hr hr' h
    have hkind := kind_eq_of_append h
    cases w with
    | object members' =>
      rw [Proper] at hv
      obtain ⟨rfl, hrest⟩ := members_append members members' r r' hv (by simpa [compact] using h)
      exact ⟨rfl, hrest⟩
    | _ => cases hkind

theorem items_append : ∀ (vs ws : List Json) (r r' : List Char), ProperItems vs →
    (Text.join "," (compactItems vs)).toList ++ ']' :: r = (Text.join "," (compactItems ws)).toList ++ ']' :: r' →
      vs = ws ∧ r = r'
  | [], [] => by
    intro r r' hvs h
    exact ⟨rfl, (List.cons.inj (List.append_cancel_left h)).2⟩
  | [], w :: ws => by
    intro r r' hvs h
    rw [compactItems, compactItems, join_append] at h
    exact absurd h.symm (append_ne_stop rfl)
  | v :: vs, [] => by
    intro r r' hvs h
    rw [compactItems, compactItems, join_append] at h
    exact absurd h (append_ne_stop rfl)
  | v :: vs, w :: ws => by
    intro r r' hvs h
    rw [ProperItems] at hvs
    rw [compactItems, compactItems, join_append, join_append] at h
    obtain ⟨rfl, hrest⟩ := compact_append v w _ _ hvs.1 (ends_following rfl _ _) (ends_following rfl _ _) h
    obtain ⟨rfl, hr⟩ := items_append vs ws r r' hvs.2 (following_injective (by decide) hrest)
    exact ⟨rfl, hr⟩

theorem members_append : ∀ (vs ws : List (String × Json)) (r r' : List Char), ProperMembers vs →
    (Text.join "," (compactMembers vs)).toList ++ '\x7d' :: r =
      (Text.join "," (compactMembers ws)).toList ++ '\x7d' :: r' → vs = ws ∧ r = r'
  | [], [] => by
    intro r r' hvs h
    exact ⟨rfl, (List.cons.inj (List.append_cancel_left h)).2⟩
  | [], (name, w) :: ws => by
    intro r r' hvs h
    rw [compactMembers, compactMembers, join_append] at h
    simp [Text.join, quote] at h
  | (name, v) :: vs, [] => by
    intro r r' hvs h
    rw [compactMembers, compactMembers, join_append] at h
    simp [Text.join, quote] at h
  | (name, v) :: vs, (name', w) :: ws => by
    intro r r' hvs h
    rw [ProperMembers] at hvs
    rw [compactMembers, compactMembers, join_append, join_append] at h
    simp only [String.toList_append, List.append_assoc] at h
    obtain ⟨rfl, hvalue⟩ := quote_append h
    obtain ⟨rfl, hrest⟩ := compact_append v w _ _ hvs.1 (ends_following rfl _ _) (ends_following rfl _ _)
      (List.append_cancel_left hvalue)
    obtain ⟨rfl, hr⟩ := members_append vs ws r r' hvs.2 (following_injective (by decide) hrest)
    exact ⟨rfl, hr⟩

end

/-- **The bytes of a document determine it** -/
theorem encoding_injective {p q : Json} (hp : p.Proper) (h : q.encoding = p.encoding) : q = p := by
  have htext : p.compact = q.compact := (Text.bytes_injective h).symm
  have hends : Ends [] := fun c hc => absurd hc (by simp)
  exact (compact_append p q [] [] hp hends hends (by rw [htext])).1.symm

end Json

end QuorumGateway
