import QuorumGateway.Proofs.Json.Scanning
import QuorumGateway.Proofs.Outcome
import QuorumGateway.Proofs.SortedMap
/-!
What reading a document gives, and that it is given again when its compact text is read. A document that has been read
has whole numbers in range only, objects with ascending names, and no more nesting than its text was allowed
(`Json.Fits`); a document like that is read back from its parts (`json_ofJson`). With the compact text scanned as the
parts, every kind of value that is read in this way and written part for part comes back (`Codec.round_trip`).
-/

namespace QuorumGateway

/-! ## Numbers in range -/

namespace Lexeme

theorem gather_lt {ds : List Nat} {s : Nat} (hs : s < 2 ^ 64) : (gather s ds).1 < 2 ^ 64 := by
  induction ds generalizing s with
  | nil => exact hs
  | cons d ds ih =>
    rw [gather]
    split_ifs with hfits
    · exact ih hfits
    · exact hs

/-- the value of a spelling is in range -/
theorem inRange_number {l : Lexeme} {n : Number} (h : l.number? = some n) : n.InRange := by
  unfold number? at h
  split at h
  · next n hfraction hexponent hgather =>
    have hlt : (gather 0 l.whole).1 < 2 ^ 64 := gather_lt (by decide)
    rw [hgather] at hlt
    split_ifs at h <;> cases h
    · exact ⟨by omega, by omega⟩
    · exact ⟨by omega, by omega⟩
    · trivial
  · obtain ⟨x, -, rfl⟩ := Option.map_eq_some_iff.1 h
    trivial

end Lexeme

namespace Draft

mutual

/-- the numbers of a draft that have a value -/
def numbers : Draft → List Number
  | .number (some n) => [n]
  | .array items _ => numbersOfItems items
  | .object members _ => numbersOfMembers members
  | .null | .bool _ | .number none | .string _ | .cut _ => []

def numbersOfItems : List Draft → List Number
  | [] => []
  | d :: rest => numbers d ++ numbersOfItems rest

def numbersOfMembers : List (Option String × Draft) → List Number
  | [] => []
  | (_, d) :: rest => numbers d ++ numbersOfMembers rest

end

/-- whole numbers are the ones that stay exact -/
def InRange (d : Draft) : Prop := ∀ n ∈ d.numbers, n.InRange

theorem eq_of_word {found d : Draft} {ws cs rest : List Char} (h : word found ws cs = .ok (d, rest)) : d = found := by
  induction ws generalizing cs with
  | nil =>
    simp only [word, Except.ok.injEq, Prod.mk.injEq] at h
    exact h.1.symm
  | cons w ws ih =>
    cases cs with
    | nil => cases h
    | cons c cs =>
      rw [word] at h
      split_ifs at h
      exact ih h

theorem inRange_scalar {c : Char} {cs rest : List Char} {d : Draft} (h : scalar c cs = .ok (d, rest)) : d.InRange := by
  have hword : ∀ {found : Draft} {ws}, found.numbers = [] → word found ws cs = .ok (d, rest) → d.InRange := by
    intro found ws hnone hread n hn
    rw [eq_of_word hread, hnone] at hn
    cases hn
  unfold scalar at h
  split_ifs at h
  · exact hword rfl h
  · exact hword rfl h
  · exact hword rfl h
  · split at h
    · cases h
      simp [InRange, numbers]
    · cases h
  · split at h
    · next l after hlexeme =>
      cases h
      cases hvalue : l.number? with
      | none => simp [InRange, numbers]
      | some n => simpa [InRange, numbers] using Lexeme.inRange_number hvalue
    · cases h

/-- **Scanning finds numbers in range only** -/
theorem inRange_scan : ∀ fuel, (∀ cs, (scan fuel cs).1.InRange) ∧
    (∀ cs, ∀ n ∈ numbersOfItems (scanItems fuel cs).1, n.InRange) ∧
    (∀ cs, ∀ n ∈ numbersOfMembers (scanMembers fuel cs).1, n.InRange) := by
  intro fuel
  induction fuel with
  | zero => simp [scan, scanItems, scanMembers, InRange, numbers, numbersOfItems, numbersOfMembers]
  | succ fuel ih =>
    obtain ⟨hvalue, hitems, hmembers⟩ := ih
    refine ⟨?_, ?_, ?_⟩
    · intro cs
      rw [scan]
      split
      · simp [InRange, numbers]
      · split
        · simp [InRange, numbers, numbersOfItems]
        · simp [InRange, numbers, numbersOfItems]
        · exact hitems _
      · split
        · simp [InRange, numbers, numbersOfMembers]
        · exact hmembers _
      · split
        · next hscalar => exact inRange_scalar hscalar
        · simp [InRange, numbers]
    · intro cs
      rw [scanItems]
      have hfirst := hvalue cs
      generalize scan fuel cs = found at hfirst ⊢
      split
      · simpa [numbersOfItems, InRange] using hfirst
      · split <;> simp only [numbersOfItems, List.append_nil, List.mem_append]
        · exact hfirst
        · rintro n (hn | hn)
          · exact hfirst n hn
          · exact hitems _ n hn
        · exact hfirst
        · exact hfirst
    · intro cs
      rw [scanMembers]
      split
      · simp [numbersOfMembers]
      · split
        · simp [numbersOfMembers]
        · split
          · next rest _ =>
            have hfirst := hvalue rest
            generalize scan fuel rest = found at hfirst ⊢
            split
            · simpa [numbersOfMembers, InRange] using hfirst
            · split <;> simp only [numbersOfMembers, List.append_nil, List.mem_append]
              · exact hfirst
              · rintro n (hn | hn)
                · exact hfirst n hn
                · exact hmembers _ n hn
              · exact hfirst
              · exact hfirst
          · simp [numbersOfMembers, numbers]
          · simp [numbersOfMembers, numbers]
      · simp [numbersOfMembers]

end Draft

/-! ## What reading gives -/

namespace Json

mutual

/-- a document as it comes from somewhere: its whole numbers are in range, the names in its objects ascend, and it nests
no deeper than it may -/
def Fits : Json → Origin → Prop
  | .null, _ | .bool _, _ | .string _, _ => True
  | .number n, _ => n.InRange
  | .array items, o => ∃ inside, o.enter = .ok inside ∧ FitsItems items inside
  | .object members, o => ∃ inside, o.enter = .ok inside ∧ SortedMap.Ascending members ∧ FitsMembers members inside

def FitsItems : List Json → Origin → Prop
  | [], _ => True
  | v :: rest, o => v.Fits o ∧ FitsItems rest o

def FitsMembers : List (String × Json) → Origin → Prop
  | [], _ => True
  | (_, v) :: rest, o => v.Fits o ∧ FitsMembers rest o

end

theorem fitsMembers_iff {members : List (String × Json)} {o : Origin} :
    FitsMembers members o ↔ ∀ p ∈ members, p.2.Fits o := by
  induction members with
  | nil => simp [FitsMembers]
  | cons p rest ih => simp [FitsMembers, ih]

mutual

theorem inRange_of_fits : ∀ (v : Json) (o : Origin), v.Fits o → ∀ n ∈ v.numbers, n.InRange
  | .null | .bool _ | .string _ => by simp [numbers]
  | .number n => by
    intro o hv m hm
    rw [numbers, List.mem_singleton] at hm
    rw [Fits] at hv
    exact hm ▸ hv
  | .array items => by
    intro o hv
    rw [Fits] at hv
    obtain ⟨inside, -, hitems⟩ := hv
    exact inRange_of_fitsItems items inside hitems
  | .object members => by
    intro o hv
    rw [Fits] at hv
    obtain ⟨inside, -, -, hmembers⟩ := hv
    exact inRange_of_fitsMembers members inside hmembers

theorem inRange_of_fitsItems : ∀ (vs : List Json) (o : Origin), FitsItems vs o → ∀ n ∈ numbersOfItems vs, n.InRange
  | [] => by simp [numbersOfItems]
  | v :: rest => by
    intro o hvs n hn
    rw [FitsItems] at hvs
    rw [numbersOfItems, List.mem_append] at hn
    rcases hn with hn | hn
    · exact inRange_of_fits v o hvs.1 n hn
    · exact inRange_of_fitsItems rest o hvs.2 n hn

theorem inRange_of_fitsMembers : ∀ (ps : List (String × Json)) (o : Origin), FitsMembers ps o →
    ∀ n ∈ numbersOfMembers ps, n.InRange
  | [] => by simp [numbersOfMembers]
  | (_, v) :: rest => by
    intro o hps n hn
    rw [FitsMembers] at hps
    rw [numbersOfMembers, List.mem_append] at hn
    rcases hn with hn | hn
    · exact inRange_of_fits v o hps.1 n hn
    · exact inRange_of_fitsMembers rest o hps.2 n hn

end

end Json

namespace Decode

open Json (Fits FitsItems FitsMembers)

mutual

/-- **What is read fits where it comes from** -/
theorem fits_of_json : ∀ (d : Draft) (o : Origin) (v : Json), json o d = .ok v → d.InRange → v.Fits o
  | .null | .bool _ | .string (some _) => by
    intro o v h hd
    cases h
    trivial
  | .number (some n) => by
    intro o v h hd
    cases h
    exact hd n (by simp [Draft.numbers])
  | .number none | .string none | .cut _ => by
    intro o v h hd
    cases h
  | .array items stop => by
    intro o v h hd
    rw [json] at h
    obtain ⟨inside, hinside, h⟩ := bind_eq_ok.1 h
    obtain ⟨vs, hvs, h⟩ := bind_eq_ok.1 h
    obtain ⟨-, -, h⟩ := bind_eq_ok.1 h
    cases h
    exact ⟨inside, hinside, fits_of_jsonItems items inside vs hvs hd⟩
  | .object members stop => by
    intro o v h hd
    rw [json] at h
    obtain ⟨inside, hinside, h⟩ := bind_eq_ok.1 h
    obtain ⟨ps, hps, h⟩ := bind_eq_ok.1 h
    obtain ⟨-, -, h⟩ := bind_eq_ok.1 h
    cases h
    have hfits := Json.fitsMembers_iff.1 (fits_of_jsonMembers members inside ps hps hd)
    -- of two members with one name only the later is kept, and nothing is added
    refine ⟨inside, hinside, SortedMap.ascending_ofPairs ps, Json.fitsMembers_iff.2 ?_⟩
    intro p hp
    exact hfits p (SortedMap.mem_of_mem_ofPairs hp)

theorem fits_of_jsonItems : ∀ (ds : List Draft) (o : Origin) (vs : List Json), jsonItems o ds = .ok vs →
    (∀ n ∈ Draft.numbersOfItems ds, n.InRange) → FitsItems vs o
  | [] => by
    intro o vs h hds
    cases h
    trivial
  | d :: rest => by
    intro o vs h hds
    rw [jsonItems] at h
    obtain ⟨v, hv, h⟩ := bind_eq_ok.1 h
    obtain ⟨vs', hvs', h⟩ := bind_eq_ok.1 h
    cases h
    rw [Draft.numbersOfItems] at hds
    constructor
    · apply fits_of_json d o v hv
      intro n hn
      exact hds n (List.mem_append_left _ hn)
    · apply fits_of_jsonItems rest o vs' hvs'
      intro n hn
      exact hds n (List.mem_append_right _ hn)

theorem fits_of_jsonMembers : ∀ (ds : List (Option String × Draft)) (o : Origin) (ps : List (String × Json)),
    jsonMembers o ds = .ok ps → (∀ n ∈ Draft.numbersOfMembers ds, n.InRange) → FitsMembers ps o
  | [] => by
    intro o ps h hds
    cases h
    trivial
  | (none, d) :: rest => by
    intro o ps h hds
    cases h
  | (some name, d) :: rest => by
    intro o ps h hds
    rw [jsonMembers] at h
    obtain ⟨v, hv, h⟩ := bind_eq_ok.1 h
    obtain ⟨ps', hps', h⟩ := bind_eq_ok.1 h
    cases h
    rw [Draft.numbersOfMembers] at hds
    constructor
    · apply fits_of_json d o v hv
      intro n hn
      exact hds n (List.mem_append_left _ hn)
    · apply fits_of_jsonMembers rest o ps' hps'
      intro n hn
      exact hds n (List.mem_append_right _ hn)

end

mutual

/-- **What fits is read back from its parts** -/
theorem json_ofJson : ∀ (v : Json) (o : Origin), v.Fits o → json o (Draft.ofJson v) = .ok v
  | .null | .bool _ | .string _ | .number _ => by
    intro o hv
    rfl
  | .array items => by
    intro o hv
    rw [Fits] at hv
    obtain ⟨inside, hinside, hitems⟩ := hv
    rw [Draft.ofJson, json, hinside, ok_bind, jsonItems_ofItems items inside hitems]
    rfl
  | .object members => by
    intro o hv
    rw [Fits] at hv
    obtain ⟨inside, hinside, hsorted, hmembers⟩ := hv
    rw [Draft.ofJson, json, hinside, ok_bind, jsonMembers_ofMembers members inside hmembers, ok_bind]
    exact congrArg (fun ps => Except.ok (Json.object ps)) hsorted.ofPairs_eq

theorem jsonItems_ofItems : ∀ (vs : List Json) (o : Origin), FitsItems vs o →
    jsonItems o (Draft.ofItems vs) = .ok vs
  | [] => by
    intro o hvs
    rfl
  | v :: rest => by
    intro o hvs
    rw [FitsItems] at hvs
    rw [Draft.ofItems, jsonItems, json_ofJson v o hvs.1, ok_bind, jsonItems_ofItems rest o hvs.2]
    rfl

theorem jsonMembers_ofMembers : ∀ (ps : List (String × Json)) (o : Origin), FitsMembers ps o →
    jsonMembers o (Draft.ofMembers ps) = .ok ps
  | [] => by
    intro o hps
    rfl
  | (name, v) :: rest => by
    intro o hps
    rw [FitsMembers] at hps
    rw [Draft.ofMembers, jsonMembers, json_ofJson v o hps.1, ok_bind, jsonMembers_ofMembers rest o hps.2]
    rfl

end

end Decode

/-! ## Whole texts -/

namespace Decode

/-- a text is read off its parts, with nothing but blanks behind them -/
theorem ofText_eq_ok_iff {α : Type} {read : Reader α} {s : String} {a : α} :
    ofText read s = .ok a ↔
      ∃ d rest, Draft.ofChars s.toList = (d, some rest) ∧ Draft.skipGaps rest = [] ∧ read .document d = .ok a := by
  rw [ofText, ofChars]
  generalize Draft.ofChars s.toList = found
  obtain ⟨d, after⟩ := found
  constructor
  · intro h
    obtain ⟨b, hread, h⟩ := bind_eq_ok.1 h
    cases after with
    | none => cases h
    | some rest =>
      simp only [List.isEmpty_iff] at h
      split_ifs at h with hrest
      cases h
      exact ⟨d, rest, rfl, hrest, hread⟩
  · rintro ⟨d, rest, hparts, hrest, hread⟩
    cases hparts
    simp only [hread, ok_bind, hrest]
    rfl

end Decode

/-- **A number whose text alone is read as the number is read back anywhere** -/
theorem Number.readsBack_of_ofText {n : Number} (h : Json.ofText n.text = .ok (.number n)) : n.ReadsBack := by
  obtain ⟨d, after, hparts, hafter, hread⟩ := Decode.ofText_eq_ok_iff.1 h
  obtain ⟨c, rest, htext, hkind⟩ := Json.number_head n
  have hgap : ∀ c ∈ n.text.toList, Draft.isGap c = false := fun c hc => Json.isGap_of_mem_text hc
  have hother : c ≠ 'n' ∧ c ≠ 't' ∧ c ≠ 'f' ∧ c ≠ '"' ∧ c ≠ '[' ∧ c ≠ '\x7b' := by
    refine ⟨?_, ?_, ?_, ?_, ?_, ?_⟩ <;>
    · rintro rfl
      exact absurd hkind (by decide)
  have hscalar : Draft.scalar c rest = .ok (d, after) := by
    rw [Draft.ofChars, htext] at hparts
    exact Draft.scalar_of_scan (hgap c (htext ▸ List.mem_cons_self)) (by simp [hother]) hparts
  simp only [Draft.scalar, hother, if_false] at hscalar
  split_ifs at hscalar
  split at hscalar
  · next l rest' hlexeme =>
    cases hscalar
    rw [← htext] at hlexeme
    -- what follows the number consists of blanks, and there is no blank in the text
    obtain rfl : after = [] := by
      rw [Draft.skipGaps, List.dropWhile_eq_nil_iff] at hafter
      apply List.eq_nil_iff_forall_not_mem.2
      intro c hc
      have hmem := (Draft.lexeme_suffix hlexeme).subset hc
      exact absurd (hafter c hc) (by simp [hgap c hmem])
    refine ⟨l, hlexeme, ?_⟩
    cases hvalue : l.number? with
    | none =>
      rw [hvalue] at hread
      cases hread
    | some m =>
      rw [hvalue] at hread
      cases hread
      rfl
  · cases hscalar

namespace Decode

variable {α : Type} {read : Reader α} {o : Origin}

/-- **The compact text of a document is read as its parts are** -/
theorem ofText_compact {v : Json} {a : α} (hv : ∀ n ∈ v.numbers, n.ReadsBack)
    (hread : read .document (Draft.ofJson v) = .ok a) : ofText read v.compact = .ok a := by
  have hends : Json.Ends [] := by simp [Json.Ends]
  have hscan := Draft.scan_compact v (2 * v.compact.toList.length + 2) [] (by omega) hv hends
  rw [List.append_nil] at hscan
  exact ofText_eq_ok_iff.2 ⟨Draft.ofJson v, [], hscan, rfl, hread⟩

/-- what is read off a text is read off a draft with numbers in range -/
theorem exists_draft {s : String} {a : α} (h : ofText read s = .ok a) : ∃ d, read .document d = .ok a ∧ d.InRange := by
  obtain ⟨d, rest, hparts, -, hread⟩ := ofText_eq_ok_iff.1 h
  have hd := (Draft.inRange_scan (2 * s.toList.length + 2)).1 s.toList
  rw [← Draft.ofChars, hparts] at hd
  exact ⟨d, hread, hd⟩

/-- a kind of value that is read and written in a place of a document: what reading gives fits there, and what fits is
read back from its parts -/
structure Codec (o : Origin) (read : Reader α) (write : α → Json) (Fits : α → Prop) : Prop where
  fits : ∀ {d a}, read o d = .ok a → d.InRange → Fits a
  inRange : ∀ {a}, Fits a → ∀ n ∈ (write a).numbers, n.InRange
  reads : ∀ {a}, Fits a → read o (Draft.ofJson (write a)) = .ok a

/-- **What is read off a text, written and read again is the same** -/
theorem Codec.round_trip {write : α → Json} {Fits : α → Prop} (hcodec : Codec .document read write Fits) {s : String}
    {a : α} (h : ofText read s = .ok a)
    (hfloats : ∀ x, .float x ∈ (write a).numbers → Json.ofText (Json.float x).compact = .ok (.float x)) :
    ofText read (write a).compact = .ok a := by
  obtain ⟨d, hread, hd⟩ := exists_draft h
  have hfits := hcodec.fits hread hd
  have hnumbers : ∀ n ∈ (write a).numbers, n.ReadsBack := by
    intro n hn
    cases n with
    | int i => exact Number.readsBack_int (hcodec.inRange hfits _ hn)
    | float x => exact Number.readsBack_of_ofText (hfloats x hn)
  exact ofText_compact hnumbers (hcodec.reads hfits)

theorem json_codec (o : Origin) : Codec o json id (Json.Fits · o) where
  fits := fits_of_json _ o _
  inRange := Json.inRange_of_fits _ o
  reads := json_ofJson _ o

/-- what may be missing is written as null then -/
def written (write : α → Json) : Option α → Json
  | none => .null
  | some a => write a

/-- a value that is never null may be left out -/
theorem Codec.optional {write : α → Json} {Fits : α → Prop} (hcodec : Codec o read write Fits)
    (hwrite : ∀ a, (write a).isNull = false) : Codec o (optional read) (written write) fun a? => ∀ a ∈ a?, Fits a where
  fits := by
    intro d a? hread hd a ha
    cases Option.mem_def.1 ha
    unfold Decode.optional at hread
    split at hread
    · cases hread
    · obtain ⟨a', hread, ha'⟩ := map_eq_ok.1 hread
      cases ha'
      exact hcodec.fits hread hd
  inRange := by
    intro a? hfits
    cases a? with
    | none => simp [written, Json.numbers]
    | some a => exact hcodec.inRange (hfits a rfl)
  reads := by
    intro a? hfits
    cases a? with
    | none => rfl
    | some a =>
      have hread := hcodec.reads (hfits a rfl)
      have hnull := hwrite a
      rw [written]
      cases hv : write a with
      | null =>
        rw [hv] at hnull
        cases hnull
      | _ =>
        rw [hv] at hread
        exact congrArg (Except.map some) hread

/-! ## Structures -/

namespace Record

variable {σ : Type} {r : Record σ} {P : σ → Prop}

/-- every field of a structure keeps what holds of the structure -/
def Keeps (r : Record σ) (o : Origin) (P : σ → Prop) : Prop :=
  ∀ f ∈ r.fields, ∀ d s s', d.InRange → P s → f.read o d s = .ok s' → P s'

theorem readMembers_keeps (hkeeps : r.Keeps o P) {members : List (Option String × Draft)} {seen seen' : List String}
    {s s' : σ} (hmembers : ∀ n ∈ Draft.numbersOfMembers members, n.InRange) (hs : P s)
    (h : r.readMembers o seen s members = .ok (seen', s')) : P s' := by
  induction members generalizing seen s with
  | nil =>
    cases h
    exact hs
  | cons member rest ih =>
    obtain ⟨name, d⟩ := member
    have hrest : ∀ n ∈ Draft.numbersOfMembers rest, n.InRange := by
      intro n hn
      exact hmembers n (List.mem_append_right _ hn)
    cases name with
    | none => cases h
    | some name =>
      rw [readMembers] at h
      split at h
      · obtain ⟨-, -, h⟩ := bind_eq_ok.1 h
        exact ih hrest hs h
      · next f hfind =>
        split_ifs at h
        obtain ⟨read, hread, h⟩ := bind_eq_ok.1 h
        apply ih hrest _ h
        apply hkeeps f (List.mem_of_find?_eq_some hfind) d s read _ hs hread
        intro n hn
        exact hmembers n (List.mem_append_left _ hn)

theorem readItems_keeps (hkeeps : r.Keeps o P) {stop : Option Cut} {total index : Nat} {fs : List (Field σ)}
    {ds : List Draft} {s s' : σ} (hfs : fs ⊆ r.fields) (hds : ∀ n ∈ Draft.numbersOfItems ds, n.InRange) (hs : P s)
    (h : r.readItems o stop total index s fs ds = .ok s') : P s' := by
  induction fs generalizing ds index s with
  | nil =>
    cases ds with
    | nil =>
      obtain ⟨-, -, rfl⟩ := map_eq_ok.1 h
      exact hs
    | cons d ds => cases h
  | cons f fs ih =>
    obtain ⟨hf, hfs⟩ := List.cons_subset.1 hfs
    cases ds with
    | nil =>
      rw [readItems] at h
      obtain ⟨-, -, h⟩ := bind_eq_ok.1 h
      split_ifs at h
      exact ih hfs hds hs h
    | cons d ds =>
      rw [readItems] at h
      obtain ⟨read, hread, h⟩ := bind_eq_ok.1 h
      apply ih hfs _ _ h
      · intro n hn
        exact hds n (List.mem_append_right _ hn)
      · apply hkeeps f hf d s read _ hs hread
        intro n hn
        exact hds n (List.mem_append_left _ hn)

/-- **What every field keeps holds of the structure that is read**, whether it stands as an object or as an array -/
theorem read_keeps {inside : Origin} (hinside : o.enter = .ok inside) (hkeeps : r.Keeps inside P) (hblank : P r.blank)
    {d : Draft} {s : σ} (hd : d.InRange) (h : r.read o d = .ok s) : P s := by
  unfold read at h
  split at h
  · rw [hinside, ok_bind] at h
    obtain ⟨⟨seen, s'⟩, hread, h⟩ := bind_eq_ok.1 h
    obtain ⟨-, -, h⟩ := bind_eq_ok.1 h
    have hs' := readMembers_keeps hkeeps hd hblank hread
    split at h
    · cases h
    · cases h
      exact hs'
  · rw [hinside, ok_bind] at h
    exact readItems_keeps hkeeps (List.Subset.refl _) hd hblank h
  · cases h

end Record

end Decode

end QuorumGateway
