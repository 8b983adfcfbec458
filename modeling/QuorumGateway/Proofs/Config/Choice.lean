import QuorumGateway.Proofs.Config.Sections
/-!
The values that are asked for: of each setting the one that the environment gives, or else the one that a file gives,
and the settings of the handler that these come to. The document of the handler is read as these settings exactly when
no name in it is given by both sources and every value gets through (`HandlerDocument.decode_iff`).
-/

namespace QuorumGateway.Setting

open Decimal Decode Decode.Record Layers

variable {file : Setting → Option Json} {members : Option (List Member)} {env : Setting → Option String}
  {entries : List (List String × Json)} {k : Setting} {found : List (String × Json)} {c : String}

/-! ## What the settings come to -/

/-- the value that is asked for: that of a variable if there is one, and that of a file otherwise -/
def Kind.chosen (κ : Kind) (j : Option Json) : Option String → Option κ.Value
  | some t => κ.ofText? t
  | none => j.bind κ.ofJson?

/-- the value of a setting that is asked for: the environment's if there is one, and the file's otherwise -/
def chosen (file : Setting → Option Json) (env : Setting → Option String) (k : Setting) : Option k.kind.Value :=
  k.kind.chosen (file k) (env k)

/-- what is asked for is the value of a variable, or that of a file, or nothing -/
theorem Valid.chosen_cases (h : Valid file env) (k : Setting) :
    (∃ t x, env k = some t ∧ k.kind.ofText? t = some x ∧ chosen file env k = some x) ∨
      (∃ j x, env k = none ∧ file k = some j ∧ k.kind.ofJson? j = some x ∧ chosen file env k = some x) ∨
      (env k = none ∧ file k = none ∧ chosen file env k = none) := by
  cases ht : env k with
  | some t =>
    obtain ⟨x, hx⟩ := Option.isSome_iff_exists.1 (h.env k t ht)
    exact .inl ⟨t, x, rfl, hx, by rw [chosen, ht]; exact hx⟩
  | none =>
    cases hj : file k with
    | some j =>
      obtain ⟨x, hx⟩ := Option.isSome_iff_exists.1 (h.file k j hj)
      exact .inr (.inl ⟨j, x, rfl, rfl, hx, by rw [chosen, ht, hj]; exact hx⟩)
    | none => exact .inr (.inr ⟨rfl, rfl, by rw [chosen, ht, hj]; rfl⟩)

theorem chosen_eq_none_iff (hvalid : Valid file env) : chosen file env k = none ↔ file k = none ∧ env k = none := by
  rcases hvalid.chosen_cases k with ⟨t, x, ht, -, h⟩ | ⟨j, x, ht, hj, -, h⟩ | ⟨ht, hj, h⟩ <;> simp [*]

/-- values for some of the settings -/
abbrev Values := (k : Setting) → Option k.kind.Value

/-- whether no setting under a name of the handler's has a value -/
def Values.lacks (v : Values) (c : String) : Bool := all.all fun k => k.handlerKey != some c || (v k).isNone

/-- the settings of the allow-list: none if nothing is given for them, and nothing to be had if something is missing -/
def Values.allowlist (v : Values) : Option (Option AllowlistSettings) :=
  if v.lacks "allowlistConfig" then some none
  else do
    let chainId : Nat ← v .chainId
    let contractAddress : String ← v .contractAddress
    let updateFrequencySec : Nat ← v .updateFrequencySec
    let updateTimeoutSec : Nat ← v .updateTimeoutSec
    return some ⟨chainId, contractAddress, Option.getD (α := Nat) (v .blockConfirmations) 0, updateFrequencySec,
      updateTimeoutSec⟩

/-- the settings of the rate limiter, in the same way -/
def Values.rateLimiter (v : Values) : Option (Option RateSettings) :=
  if v.lacks "rateLimiterConfig" then some none
  else do
    let globalRps : Binary64 ← v .globalRps
    let globalBurst : Nat ← v .globalBurst
    let perUserRps : Binary64 ← v .perUserRps
    let perUserBurst : Nat ← v .perUserBurst
    return some ⟨globalRps, globalBurst, perUserRps, perUserBurst⟩

/-- the settings of the handler that values come to -/
def Values.handler (v : Values) : Option HandlerSettings := do
  let allowlist ← v.allowlist
  let rateLimiter ← v.rateLimiter
  return {
    allowlist, rateLimiter
    maxPendingPerUser := Option.getD (α := Nat) (v .maxPendingPerUser) 0
    maxPendingGlobal := Option.getD (α := Nat) (v .maxPendingGlobal) 0
    requestTimeoutMillis := Option.getD (α := Nat) (v .requestTimeoutMillis) HandlerSettings.standardTimeoutMillis }

/-! ## What arrives -/

/-- how a value is read from the document of the handler -/
def Kind.reader : (κ : Kind) → Reader κ.Value
  | text => string
  | format => variant LogFormat.known
  | count bound expected => natBelow bound expected
  | rate => float

/-- whether a value gets through to the handler: a text in a variable must not look like a number or a truth value, and
a whole number must be in the signed 64-bit range -/
def Kind.Arrives : (κ : Kind) → Option String → κ.Value → Prop
  | text, some t, _ => variableValue t = .string t
  | count _ _, _, n => (show Nat from n) < 2 ^ 63
  | _, _, _ => True

def Arrives (file : Setting → Option Json) (env : Setting → Option String) (k : Setting) : Prop :=
  ∀ x, chosen file env k = some x → k.kind.Arrives (env k) x

theorem ofJson_natBelow_keptNat {bound n m : Nat} {expected : String} (hn : n < bound) :
    ofJson (natBelow bound expected) (document (keptNat n)) = .ok m ↔ n < 2 ^ 63 ∧ m = n := by
  rw [keptNat]
  split_ifs with hsmall
  · have hread : ofJson (natBelow bound expected) (document (.nat n)) = .ok n := by
      rw [Json.nat, document]
      exact if_pos hn
    rw [hread, Except.ok.injEq]
    exact ⟨fun h => ⟨hsmall, h.symm⟩, fun h => h.2.symm⟩
  · have hfail : ofJson (natBelow bound expected) (document (.float (Binary64.ofNat n))) ≠ .ok m := by
      rw [Json.float, document]
      intro h
      split at h <;> cases h
    exact ⟨fun h => absurd h hfail, fun h => absurd h.1 hsmall⟩

/-- a text that a variable gives is read as a text where it does not look like anything else -/
theorem ofJson_string_variableValue (t : String) :
    ofJson string (document (variableValue t)) = .ok t ↔ variableValue t = .string t := by
  constructor
  · intro h
    unfold variableValue at h ⊢
    split_ifs at h ⊢
    · cases h
    · cases h
    · cases hint : int? t with
      | some n =>
        rw [hint] at h
        cases h
      | none =>
        cases hfloat : float? t with
        | some x =>
          rw [hint, hfloat] at h
          dsimp only at h
          rw [Json.float, document] at h
          split at h <;> cases h
        | none => rfl
  · intro h
    rw [h]
    rfl

theorem ofJson_float_of_delivered {x : Binary64} {v : Json} (h : Kind.rate.Delivered x v) :
    ofJson float (document v) = .ok x := by
  obtain ⟨hrate, rfl | ⟨i, rfl, rfl⟩⟩ := h
  · have hfinite : x.isFinite = true := by
      simp only [RateSettings.isRate, Bool.and_eq_true] at hrate
      exact hrate.1
    rw [Json.float, document, if_pos hfinite]
    rfl
  · rfl

theorem ofJson_reader_file {κ : Kind} (hκ : κ ≠ .format) {x : κ.Value} {j : Json} (h : κ.ofJson? j = some x) :
    ofJson κ.reader (document (fileValue j)) = .ok x ↔ κ.Arrives none x := by
  have hdelivered := Kind.delivered_file h
  cases κ with
  | text =>
    have hv : fileValue j = .string x := hdelivered
    rw [hv]
    exact ⟨fun _ => trivial, fun _ => rfl⟩
  | format => exact absurd rfl hκ
  | count bound expected =>
    obtain ⟨hlt, hv⟩ := hdelivered
    rw [hv]
    exact (ofJson_natBelow_keptNat hlt).trans (and_iff_left rfl)
  | rate => exact ⟨fun _ => trivial, fun _ => ofJson_float_of_delivered hdelivered⟩

theorem ofJson_reader_variable {κ : Kind} (hκ : κ ≠ .format) {x : κ.Value} {t : String} (h : κ.ofText? t = some x) :
    ofJson κ.reader (document (variableValue t)) = .ok x ↔ κ.Arrives (some t) x := by
  cases κ with
  | text =>
    cases h
    exact ofJson_string_variableValue t
  | format => exact absurd rfl hκ
  | count bound expected =>
    obtain ⟨hlt, hv⟩ := Kind.delivered_variable (κ := .count bound expected) nofun h
    rw [hv]
    exact (ofJson_natBelow_keptNat hlt).trans (and_iff_left rfl)
  | rate => exact ⟨fun _ => trivial, fun _ => ofJson_float_of_delivered (Kind.delivered_variable (κ := .rate) nofun h)⟩

theorem arrives_iff {x : k.kind.Value} (h : chosen file env k = some x) :
    Arrives file env k ↔ k.kind.Arrives (env k) x := by
  rw [Arrives, h]
  exact ⟨fun hall => hall x rfl, fun hx y hy => Option.some.inj hy ▸ hx⟩

theorem kind_ne_format (hk : k.handlerKey ≠ none) : k.kind ≠ .format := by
  intro hformat
  cases k
  case format => exact hk rfl
  all_goals cases hformat

/-- **When a field of the handler's settings yields the value that is asked for**, where one source at most gives it -/
theorem yields_arrived (hvalid : Valid file env) (hk : k.handlerKey ≠ none)
    (hone : file k = none ∨ env k = none) {absence : Absence} {standard x : k.kind.Value}
    (hx : chosen file env k = some x ∨ chosen file env k = none ∧ absence ≠ .refused ∧ x = standard) :
    Yields k.kind.reader absence standard (arrived file env k) x ↔ Arrives file env k := by
  rcases hvalid.chosen_cases k with ⟨t, y, ht, hy, hchosen⟩ | ⟨j, y, ht, hj, hy, hchosen⟩ | ⟨ht, hj, hchosen⟩
  · obtain rfl : y = x := by simpa [hchosen] using hx
    have hnofile : file k = none := hone.resolve_right (by simp [ht])
    rw [arrives_iff hchosen, arrived, hnofile, ht]
    exact ofJson_reader_variable (kind_ne_format hk) hy
  · obtain rfl : y = x := by simpa [hchosen] using hx
    rw [arrives_iff hchosen, arrived, hj, ht]
    exact ofJson_reader_file (kind_ne_format hk) hy
  · have hstandard : absence ≠ .refused ∧ x = standard := by simpa [hchosen] using hx
    rw [arrived, hj, ht, Arrives, hchosen]
    exact iff_of_true hstandard (by simp)

/-! ## The settings of the handler -/

theorem lacks_iff {v : Values} : v.lacks c = true ↔ ∀ k : Setting, k.handlerKey = some c → v k = none := by
  simp only [Values.lacks, List.all_eq_true, Bool.or_eq_true, bne_iff_ne, ne_eq, Option.isNone_iff_eq_none]
  constructor
  · exact fun h k hk => (h k (mem_all k)).resolve_left fun hne => hne hk
  · intro h k _
    by_cases hk : k.handlerKey = some c
    · exact .inr (h k hk)
    · exact .inl hk

/-- a field that may not be left out -/
theorem yields_required (hvalid : Valid file env) (hk : k.handlerKey ≠ none) (hone : file k = none ∨ env k = none)
    {standard x : k.kind.Value} (hx : chosen file env k = some x) :
    Yields k.kind.reader .refused standard (arrived file env k) x ↔ Arrives file env k :=
  yields_arrived hvalid hk hone (.inl hx)

/-- a field that has a standard -/
theorem yields_defaulted (hvalid : Valid file env) (hk : k.handlerKey ≠ none) (hone : file k = none ∨ env k = none)
    (standard : k.kind.Value) :
    Yields k.kind.reader .accepted standard (arrived file env k) ((chosen file env k).getD standard) ↔
      Arrives file env k := by
  refine yields_arrived hvalid hk hone ?_
  cases h : chosen file env k with
  | some x => exact .inl rfl
  | none => exact .inr ⟨rfl, by decide, rfl⟩

namespace HandlerDocument

/-- a section is either left out, and nothing is asked for in it, or it gives what is asked for -/
theorem section_or (hvalid : Valid file env) (hentries : AreVariables env entries)
    (hdoc : HandlerDocument file members entries found) (hc : c ∈ sectionNames) (hclash : ¬Clash file env c) :
    (given c found = none ∧ Values.lacks (chosen file env) c = true ∧
      ∀ k : Setting, k.handlerKey = some c → Arrives file env k) ∨
      (¬Values.lacks (chosen file env) c = true ∧ ∃ inner, given c found = some (.object inner) ∧
        SortedMap.Ascending inner ∧ ∀ k : Setting, k.handlerKey = some c →
          given k.name inner = arrived file env k ∧ ¬Doubled k.name inner ∧ (file k = none ∨ env k = none)) := by
  rcases hdoc.given_section hvalid.leaves hentries hc hclash with
    ⟨hnone, hlacks⟩ | ⟨⟨k, hk, hgiven⟩, inner, hinner, hascending, hfields⟩
  · have hchosen : ∀ k : Setting, k.handlerKey = some c → chosen file env k = none := fun k hk =>
      (chosen_eq_none_iff hvalid).2 (hlacks k hk)
    refine .inl ⟨hnone, lacks_iff.2 hchosen, fun k hk x hx => ?_⟩
    rw [hchosen k hk] at hx
    cases hx
  · refine .inr ⟨fun h => ?_, inner, hinner, hascending, hfields⟩
    obtain ⟨hnofile, hnoenv⟩ := (chosen_eq_none_iff hvalid).1 (lacks_iff.1 h k hk)
    exact hgiven.elim (· hnofile) (· hnoenv)

theorem yields_allowlist (hvalid : Valid file env) (hentries : AreVariables env entries)
    (hdoc : HandlerDocument file members entries found) (hclash : ¬Clash file env "allowlistConfig")
    {o : Option AllowlistSettings} (ho : Values.allowlist (chosen file env) = some o) :
    Yields (optional AllowlistSettings.record.read) .accepted none (given "allowlistConfig" found) o ↔
      ∀ k : Setting, k.handlerKey = some "allowlistConfig" → Arrives file env k := by
  rcases hdoc.section_or hvalid hentries (by decide) hclash with
    ⟨hnone, hlacks, hall⟩ | ⟨hlacks, inner, hinner, hascending, hfields⟩
  · rw [Values.allowlist, if_pos hlacks] at ho
    cases ho
    rw [hnone]
    exact ⟨fun _ => hall, fun _ => ⟨by decide, rfl⟩⟩
  · rw [Values.allowlist, if_neg hlacks] at ho
    obtain ⟨chainId, hchain, ho⟩ := Option.bind_eq_some_iff.1 ho
    obtain ⟨contract, hcontract, ho⟩ := Option.bind_eq_some_iff.1 ho
    obtain ⟨frequency, hfrequency, ho⟩ := Option.bind_eq_some_iff.1 ho
    obtain ⟨timeout, htimeout, ho⟩ := Option.bind_eq_some_iff.1 ho
    cases ho
    obtain ⟨g1, d1, o1⟩ := hfields .chainId rfl
    obtain ⟨g2, d2, o2⟩ := hfields .contractAddress rfl
    obtain ⟨g3, d3, o3⟩ := hfields .blockConfirmations rfl
    obtain ⟨g4, d4, o4⟩ := hfields .updateFrequencySec rfl
    obtain ⟨g5, d5, o5⟩ := hfields .updateTimeoutSec rfl
    have honce : ∀ f ∈ AllowlistSettings.record.fields, ¬Doubled f.name inner := by
      simp only [AllowlistSettings.record, List.forall_mem_cons]
      exact ⟨d1, d2, d3, d4, d5, List.forall_mem_nil _⟩
    have hsettings : (∀ k : Setting, k.handlerKey = some "allowlistConfig" → Arrives file env k) ↔
        Arrives file env .chainId ∧ Arrives file env .contractAddress ∧ Arrives file env .blockConfirmations ∧
          Arrives file env .updateFrequencySec ∧ Arrives file env .updateTimeoutSec := by
      constructor
      · exact fun h => ⟨h _ rfl, h _ rfl, h _ rfl, h _ rfl, h _ rfl⟩
      · rintro ⟨h1, h2, h3, h4, h5⟩ k hk
        cases k <;> first | assumption | exact absurd hk (by decide)
    rw [hinner, hsettings]
    refine (ofJson_optional rfl).trans ?_
    refine (AllowlistSettings.read_eq_ok_iff hascending).trans ((and_iff_right honce).trans ?_)
    refine and_congr ?_ (and_congr ?_ (and_congr ?_ (and_congr ?_ ?_)))
    · exact g1 ▸ yields_required (k := .chainId) hvalid (by decide) o1 hchain
    · exact g2 ▸ yields_required (k := .contractAddress) hvalid (by decide) o2 hcontract
    · exact g3 ▸ yields_defaulted (k := .blockConfirmations) hvalid (by decide) o3 (0 : Nat)
    · exact g4 ▸ yields_required (k := .updateFrequencySec) hvalid (by decide) o4 hfrequency
    · exact g5 ▸ yields_required (k := .updateTimeoutSec) hvalid (by decide) o5 htimeout

theorem yields_rateLimiter (hvalid : Valid file env) (hentries : AreVariables env entries)
    (hdoc : HandlerDocument file members entries found) (hclash : ¬Clash file env "rateLimiterConfig")
    {o : Option RateSettings} (ho : Values.rateLimiter (chosen file env) = some o) :
    Yields (optional RateSettings.record.read) .accepted none (given "rateLimiterConfig" found) o ↔
      ∀ k : Setting, k.handlerKey = some "rateLimiterConfig" → Arrives file env k := by
  rcases hdoc.section_or hvalid hentries (by decide) hclash with
    ⟨hnone, hlacks, hall⟩ | ⟨hlacks, inner, hinner, hascending, hfields⟩
  · rw [Values.rateLimiter, if_pos hlacks] at ho
    cases ho
    rw [hnone]
    exact ⟨fun _ => hall, fun _ => ⟨by decide, rfl⟩⟩
  · rw [Values.rateLimiter, if_neg hlacks] at ho
    obtain ⟨globalRps, hglobal, ho⟩ := Option.bind_eq_some_iff.1 ho
    obtain ⟨globalBurst, hglobalBurst, ho⟩ := Option.bind_eq_some_iff.1 ho
    obtain ⟨perUserRps, huser, ho⟩ := Option.bind_eq_some_iff.1 ho
    obtain ⟨perUserBurst, huserBurst, ho⟩ := Option.bind_eq_some_iff.1 ho
    cases ho
    obtain ⟨g1, d1, o1⟩ := hfields .globalRps rfl
    obtain ⟨g2, d2, o2⟩ := hfields .globalBurst rfl
    obtain ⟨g3, d3, o3⟩ := hfields .perUserRps rfl
    obtain ⟨g4, d4, o4⟩ := hfields .perUserBurst rfl
    have honce : ∀ f ∈ RateSettings.record.fields, ¬Doubled f.name inner := by
      simp only [RateSettings.record, List.forall_mem_cons]
      exact ⟨d1, d2, d3, d4, List.forall_mem_nil _⟩
    have hsettings : (∀ k : Setting, k.handlerKey = some "rateLimiterConfig" → Arrives file env k) ↔
        Arrives file env .globalRps ∧ Arrives file env .globalBurst ∧ Arrives file env .perUserRps ∧
          Arrives file env .perUserBurst := by
      constructor
      · exact fun h => ⟨h _ rfl, h _ rfl, h _ rfl, h _ rfl⟩
      · rintro ⟨h1, h2, h3, h4⟩ k hk
        cases k <;> first | assumption | exact absurd hk (by decide)
    rw [hinner, hsettings]
    refine (ofJson_optional rfl).trans ((RateSettings.read_eq_ok_iff hascending).trans ((and_iff_right honce).trans ?_))
    refine and_congr ?_ (and_congr ?_ (and_congr ?_ ?_))
    · exact g1 ▸ yields_required (k := .globalRps) hvalid (by decide) o1 hglobal
    · exact g2 ▸ yields_required (k := .globalBurst) hvalid (by decide) o2 hglobalBurst
    · exact g3 ▸ yields_required (k := .perUserRps) hvalid (by decide) o3 huser
    · exact g4 ▸ yields_required (k := .perUserBurst) hvalid (by decide) o4 huserBurst

theorem yields_scalar (hvalid : Valid file env) (hentries : AreVariables env entries)
    (hdoc : HandlerDocument file members entries found) (hk : k ∈ scalars) (hclash : ¬Clash file env k.name)
    (standard : k.kind.Value) :
    Yields k.kind.reader .accepted standard (given k.name found) ((chosen file env k).getD standard) ↔
      Arrives file env k := by
  obtain ⟨-, -, hkey, -⟩ := scalar_places hk
  have hone : file k = none ∨ env k = none := by
    by_contra hboth
    rw [not_or] at hboth
    exact hclash ⟨⟨k, hkey, hboth.1⟩, k, hkey, hboth.2⟩
  rw [hdoc.given_scalar hvalid.leaves hentries hk]
  exact yields_defaulted hvalid (by simp [hkey]) hone standard

/-- no name is doubled exactly if none is given by both sources -/
theorem doubled_iff (hfile : Leaves file) (hentries : AreVariables env entries)
    (hdoc : HandlerDocument file members entries found) :
    (∀ f ∈ HandlerSettings.record.fields, ¬Doubled f.name found) ↔ ∀ c, ¬Clash file env c := by
  simp only [HandlerSettings.record, List.forall_mem_cons]
  have hsections := fun c (hc : c ∈ sectionNames) => not_congr (hdoc.doubled_section hfile hentries hc)
  have hscalars := fun k (hk : k ∈ scalars) => not_congr (hdoc.doubled_scalar hfile hentries hk)
  have h1 := hsections "allowlistConfig" (by decide)
  have h2 := hsections "rateLimiterConfig" (by decide)
  have h3 := hscalars .maxPendingPerUser (by decide)
  have h4 := hscalars .maxPendingGlobal (by decide)
  have h5 := hscalars .requestTimeoutMillis (by decide)
  constructor
  · rintro ⟨k1, k2, k3, k4, k5, -⟩ c hclash
    obtain ⟨⟨k, hk, -⟩, -⟩ := id hclash
    cases k <;> cases hk
    all_goals first
      | exact h1.1 k1 hclash | exact h2.1 k2 hclash | exact h3.1 k3 hclash | exact h4.1 k4 hclash
      | exact h5.1 k5 hclash
  · exact fun hno => ⟨h1.2 (hno _), h2.2 (hno _), h3.2 (hno _), h4.2 (hno _), h5.2 (hno _),
      List.forall_mem_nil _⟩

/-- **When the document of the handler is read as what is asked for** -/
theorem decode_iff (hvalid : Valid file env) (hentries : AreVariables env entries)
    (hdoc : HandlerDocument file members entries found) {h : HandlerSettings}
    (hh : Values.handler (chosen file env) = some h) :
    HandlerSettings.decode (.object found) = .ok h ↔
      (∀ c, ¬Clash file env c) ∧ ∀ k : Setting, k.handlerKey ≠ none → Arrives file env k := by
  obtain ⟨allowlist, hallowlist, hh⟩ := Option.bind_eq_some_iff.1 hh
  obtain ⟨rateLimiter, hrate, hh⟩ := Option.bind_eq_some_iff.1 hh
  cases hh
  rw [HandlerSettings.decode_object, HandlerSettings.read_eq_ok_iff hdoc.ordered.names,
    hdoc.doubled_iff hvalid.leaves hentries]
  refine and_congr_right fun hclash => ?_
  have hsettings : (∀ k : Setting, k.handlerKey ≠ none → Arrives file env k) ↔
      (∀ k : Setting, k.handlerKey = some "allowlistConfig" → Arrives file env k) ∧
        (∀ k : Setting, k.handlerKey = some "rateLimiterConfig" → Arrives file env k) ∧
          Arrives file env .maxPendingPerUser ∧ Arrives file env .maxPendingGlobal ∧
            Arrives file env .requestTimeoutMillis := by
    constructor
    · intro h
      exact ⟨fun k hk => h k (by simp [hk]), fun k hk => h k (by simp [hk]), h _ (by decide), h _ (by decide),
        h _ (by decide)⟩
    · rintro ⟨h1, h2, h3, h4, h5⟩ k hk
      cases k
      all_goals first
        | assumption | exact h1 _ rfl | exact h2 _ rfl | exact absurd rfl hk
  rw [hsettings]
  refine and_congr ?_ (and_congr ?_ (and_congr ?_ (and_congr ?_ ?_)))
  · exact hdoc.yields_allowlist hvalid hentries (hclash _) hallowlist
  · exact hdoc.yields_rateLimiter hvalid hentries (hclash _) hrate
  · exact hdoc.yields_scalar (k := .maxPendingPerUser) hvalid hentries (by decide) (hclash _) (0 : Nat)
  · exact hdoc.yields_scalar (k := .maxPendingGlobal) hvalid hentries (by decide) (hclash _) (0 : Nat)
  · exact hdoc.yields_scalar (k := .requestTimeoutMillis) hvalid hentries (by decide) (hclash _)
      (HandlerSettings.standardTimeoutMillis : Nat)

end HandlerDocument

end QuorumGateway.Setting
