import QuorumGateway.Proofs.Config.Handler
/-!
The spellings of the handler's settings. A document in memory spells settings when each field that is not at its
standard is given under one of its two names, no field under both, and a section is given as an object of that kind, as
the array of its fields, or not at all; names that belong to no field may stand beside them. The document that settings
are written as is one such spelling.

- `read_of_spelling`: a section is read off each of its spellings, and so are the settings.
- `spellings_exact`: settings that are in order are read off every spelling of theirs, and no document that gives a
  field under both of its names is read at all.
-/

namespace QuorumGateway

open Decode Decode.Record

namespace Json

mutual

/-- the document as it is in memory, with the members of every object in ascending order -/
def sorted : Json → Json
  | .array items => .array (sortedItems items)
  | .object members => .ofMembers (sortedMembers members)
  | v => v

def sortedItems : List Json → List Json
  | [] => []
  | v :: rest => sorted v :: sortedItems rest

def sortedMembers : List (String × Json) → List (String × Json)
  | [] => []
  | (name, v) :: rest => (name, sorted v) :: sortedMembers rest

end

end Json

/-! ## Fields -/

variable {α : Type} {members inner : List (String × Json)} {name key : String} {Value : Json → Prop} {mayLack : Prop}
  {v : Json}

/-- how an object spells a field whose value is written in certain ways: under its name, under that name in small
letters, or not at all, if that may be -/
inductive FieldSpelling (name : String) (Value : Json → Prop) (mayLack : Prop) (members : List (String × Json)) : Prop
  | named {v : Json} (hv : Value v) (hname : SortedMap.get? name members = some v)
      (hsmall : SortedMap.get? (Text.lower name) members = none)
  | small {v : Json} (hv : Value v) (hname : SortedMap.get? name members = none)
      (hsmall : SortedMap.get? (Text.lower name) members = some v)
  | lacking (hlack : mayLack) (hname : SortedMap.get? name members = none)
      (hsmall : SortedMap.get? (Text.lower name) members = none)

namespace FieldSpelling

theorem not_doubled (h : FieldSpelling name Value mayLack members) : ¬Doubled name members := by
  rintro ⟨hname, hsmall⟩
  cases h with
  | named _ _ hnone => exact hsmall hnone
  | small _ hnone _ => exact hname hnone
  | lacking _ hnone _ => exact hname hnone

/-- a field that is spelled yields its value -/
theorem yields {read : Reader α} {absence : Absence} {standard x : α} (h : FieldSpelling name Value mayLack members)
    (hread : ∀ v, Value v → ofJson read v = .ok x) (hlack : mayLack → absence ≠ .refused ∧ x = standard) :
    Yields read absence standard (given name members) x := by
  cases h with
  | named hv hname hsmall =>
    rw [given, hname]
    exact hread _ hv
  | small hv hname hsmall =>
    rw [given, hname, hsmall]
    exact hread _ hv
  | lacking hmay hname hsmall =>
    rw [given, hname, hsmall]
    exact hlack hmay

/-- a field that is required and has one way of being written -/
theorem yields_required {read : Reader α} {standard x : α} (h : FieldSpelling name (· = v) False members)
    (hread : ofJson read v = .ok x) : Yields read .refused standard (given name members) x := by
  apply h.yields
  · rintro _ rfl
    exact hread
  · exact False.elim

theorem yields_optional {read : Reader α} {standard x : α} (h : FieldSpelling name (· = v) (x = standard) members)
    (hread : ofJson read v = .ok x) : Yields read .accepted standard (given name members) x := by
  apply h.yields
  · rintro _ rfl
    exact hread
  · exact fun hstandard => ⟨by decide, hstandard⟩

/-- where every field of a structure is written under its name, each is spelled by its pair -/
theorem of_written {σ : Type} {r : Record σ} {pairs : List (String × Json)} (hr : r.TwoNames)
    (hnames : pairs.map Prod.fst = r.fields.map Field.name) (hmem : (name, v) ∈ pairs) (hv : Value v) :
    FieldSpelling name Value mayLack (SortedMap.ofPairs pairs) := by
  have hnodup : (pairs.map Prod.fst).Nodup := hnames ▸ hr.nodup
  have hfield : name ∈ r.fields.map Field.name := hnames ▸ List.mem_map_of_mem (f := Prod.fst) hmem
  obtain ⟨f, hf, rfl⟩ := List.mem_map.1 hfield
  apply FieldSpelling.named hv
  · rw [SortedMap.get?_eq_some_iff (SortedMap.ascending_ofPairs pairs)]
    exact (SortedMap.ofPairs_perm hnodup).mem_iff.2 hmem
  · -- the small name of a field is no name of a field
    rw [Option.eq_none_iff_forall_not_mem]
    intro w hw
    have hkey := SortedMap.mem_keys_ofPairs.1 (List.mem_map_of_mem (f := Prod.fst) (SortedMap.mem_of_get? hw))
    rw [hnames] at hkey
    obtain ⟨f', hf', hsame⟩ := List.mem_map.1 hkey
    have howner := (hr.owner_eq f' hf').1
    rw [hsame, (hr.owner_eq f hf).2] at howner
    cases howner
    exact hr.ne_lower f hf hsame

end FieldSpelling

/-- a field that is given once is given what stands under either name -/
theorem given_of_get? (honce : ¬Doubled name members) (hkey : key = name ∨ key = Text.lower name)
    (h : SortedMap.get? key members = some v) : given name members = some v := by
  rw [Doubled] at honce
  rcases hkey with rfl | rfl <;> simp_all [given]

/-- a section that cannot be read leaves nothing to be yielded -/
theorem not_yields_section {read : Reader α} (honce : ¬Doubled name members) (hkey : key = name ∨ key = Text.lower name)
    (h : SortedMap.get? key members = some (.object inner)) (hfails : ∀ x, ofJson read (.object inner) ≠ .ok x)
    (x? : Option α) : ¬Yields (optional read) .accepted none (given name members) x? := by
  rw [given_of_get? honce hkey h, Yields, ofJson_optional_eq_map rfl, map_eq_ok]
  rintro ⟨x, hx, -⟩
  exact hfails x hx

theorem ofJson_natBelow {n bound : Nat} {expected : String} (hn : n < bound) :
    ofJson (natBelow bound expected) (.nat n) = .ok n :=
  if_pos hn

/-- the first item of an array goes to the first field -/
theorem readItems_setting {σ : Type} {r : Record σ} {absence : Absence} {read : Reader α} {put : σ → α → σ} {x : α}
    {total index : Nat} {s : σ} {fs : List (Decode.Field σ)} {vs : List Json} (hx : ofJson read v = .ok x) :
    r.readItems .memory none total index s (settingField name absence read put :: fs) (Draft.ofItems (v :: vs)) =
      r.readItems .memory none total (index + 1) (put s x) fs (Draft.ofItems vs) := by
  have hread : (settingField name absence read put).read .memory (Draft.ofJson v) s = .ok (put s x) :=
    map_eq_ok.2 ⟨x, hx, rfl⟩
  rw [Draft.ofItems, readItems, hread, ok_bind]

/-! ## The allow-list -/

namespace AllowlistSettings

variable {a : AllowlistSettings}

/-- the numbers are of 64 bits -/
structure InRange (a : AllowlistSettings) : Prop where
  chainId : a.chainId < 2 ^ 64
  blockConfirmations : a.blockConfirmations < 2 ^ 64
  updateFrequencySec : a.updateFrequencySec < 2 ^ 64
  updateTimeoutSec : a.updateTimeoutSec < 2 ^ 64

structure Members (a : AllowlistSettings) (members : List (String × Json)) : Prop where
  ascending : SortedMap.Ascending members
  chainId : FieldSpelling "chainID" (· = .nat a.chainId) False members
  contractAddress : FieldSpelling "contractAddress" (· = .string a.contractAddress) False members
  blockConfirmations :
    FieldSpelling "blockConfirmations" (· = .nat a.blockConfirmations) (a.blockConfirmations = 0) members
  updateFrequencySec : FieldSpelling "updateFrequencySec" (· = .nat a.updateFrequencySec) False members
  updateTimeoutSec : FieldSpelling "updateTimeoutSec" (· = .nat a.updateTimeoutSec) False members

/-- an object with the fields, or an array of them -/
inductive Spelling (a : AllowlistSettings) : Json → Prop
  | object {members : List (String × Json)} (h : Members a members) : Spelling a (.object members)
  | array :
      Spelling a (.array [.nat a.chainId, .string a.contractAddress, .nat a.blockConfirmations,
        .nat a.updateFrequencySec, .nat a.updateTimeoutSec])

theorem Spelling.isNull (h : Spelling a v) : v.isNull = false := by
  cases h <;> rfl

theorem spelling_sorted (a : AllowlistSettings) : Spelling a a.toJson.sorted := by
  have hnames : ["chainID", "contractAddress", "blockConfirmations", "updateFrequencySec", "updateTimeoutSec"] =
      record.fields.map Field.name := rfl
  apply Spelling.object
  refine ⟨SortedMap.ascending_ofPairs _, ?_, ?_, ?_, ?_, ?_⟩ <;>
    exact .of_written twoNames hnames (by simp [Json.sortedMembers, Json.sorted, Json.nat]) rfl

/-- **The settings of the allow-list are read off their spellings** -/
theorem read_of_spelling (ha : a.InRange) (h : Spelling a v) : ofJson record.read v = .ok a := by
  have hchain : ofJson u64 (.nat a.chainId) = .ok a.chainId := ofJson_natBelow ha.chainId
  have hconfirmations : ofJson u64 (.nat a.blockConfirmations) = .ok a.blockConfirmations :=
    ofJson_natBelow ha.blockConfirmations
  have hfrequency : ofJson u64 (.nat a.updateFrequencySec) = .ok a.updateFrequencySec :=
    ofJson_natBelow ha.updateFrequencySec
  have htimeout : ofJson u64 (.nat a.updateTimeoutSec) = .ok a.updateTimeoutSec := ofJson_natBelow ha.updateTimeoutSec
  have hcontract : ofJson string (.string a.contractAddress) = .ok a.contractAddress := rfl
  cases h with
  | object h =>
    rw [read_eq_ok_iff h.ascending]
    constructor
    · simp only [record, List.forall_mem_cons, settingField, Decode.Field.of, List.not_mem_nil, false_implies,
        implies_true, and_true]
      exact ⟨h.chainId.not_doubled, h.contractAddress.not_doubled, h.blockConfirmations.not_doubled,
        h.updateFrequencySec.not_doubled, h.updateTimeoutSec.not_doubled⟩
    · exact ⟨h.chainId.yields_required hchain, h.contractAddress.yields_required hcontract,
        h.blockConfirmations.yields_optional hconfirmations, h.updateFrequencySec.yields_required hfrequency,
        h.updateTimeoutSec.yields_required htimeout⟩
  | array =>
    calc ofJson record.read _
        = record.readItems .memory none 5 0 record.blank record.fields (Draft.ofItems _) := rfl
      _ = record.readItems .memory none 5 5 a [] (Draft.ofItems []) := by
          rw [record, readItems_setting hchain, readItems_setting hcontract, readItems_setting hconfirmations,
            readItems_setting hfrequency, readItems_setting htimeout]
      _ = .ok a := rfl

end AllowlistSettings

/-! ## The rate limiter -/

namespace RateSettings

variable {r : RateSettings}

/-- the bursts are of 32 bits -/
structure InRange (r : RateSettings) : Prop where
  globalBurst : r.globalBurst < 2 ^ 32
  perUserBurst : r.perUserBurst < 2 ^ 32

structure Members (r : RateSettings) (members : List (String × Json)) : Prop where
  ascending : SortedMap.Ascending members
  globalRps : FieldSpelling "globalRPS" (· = .float r.globalRps) False members
  globalBurst : FieldSpelling "globalBurst" (· = .nat r.globalBurst) False members
  perUserRps : FieldSpelling "perUserRPS" (· = .float r.perUserRps) False members
  perUserBurst : FieldSpelling "perUserBurst" (· = .nat r.perUserBurst) False members

/-- an object with the fields, or an array of them -/
inductive Spelling (r : RateSettings) : Json → Prop
  | object {members : List (String × Json)} (h : Members r members) : Spelling r (.object members)
  | array : Spelling r (.array [.float r.globalRps, .nat r.globalBurst, .float r.perUserRps, .nat r.perUserBurst])

theorem Spelling.isNull (h : Spelling r v) : v.isNull = false := by
  cases h <;> rfl

theorem spelling_sorted (r : RateSettings) : Spelling r r.toJson.sorted := by
  have hnames : ["globalRPS", "globalBurst", "perUserRPS", "perUserBurst"] = record.fields.map Field.name := rfl
  apply Spelling.object
  refine ⟨SortedMap.ascending_ofPairs _, ?_, ?_, ?_, ?_⟩ <;>
    exact .of_written twoNames hnames (by simp [Json.sortedMembers, Json.sorted, Json.nat, Json.float]) rfl

/-- **The settings of the rate limiter are read off their spellings** -/
theorem read_of_spelling (hr : r.InRange) (h : Spelling r v) : ofJson record.read v = .ok r := by
  have hglobal : ofJson u32 (.nat r.globalBurst) = .ok r.globalBurst := ofJson_natBelow hr.globalBurst
  have huser : ofJson u32 (.nat r.perUserBurst) = .ok r.perUserBurst := ofJson_natBelow hr.perUserBurst
  have hrate : ∀ x, ofJson float (.float x) = .ok x := fun _ => rfl
  cases h with
  | object h =>
    rw [read_eq_ok_iff h.ascending]
    constructor
    · simp only [record, List.forall_mem_cons, settingField, Decode.Field.of, List.not_mem_nil, false_implies,
        implies_true, and_true]
      exact ⟨h.globalRps.not_doubled, h.globalBurst.not_doubled, h.perUserRps.not_doubled, h.perUserBurst.not_doubled⟩
    · exact ⟨h.globalRps.yields_required (hrate _), h.globalBurst.yields_required hglobal,
        h.perUserRps.yields_required (hrate _), h.perUserBurst.yields_required huser⟩
  | array =>
    calc ofJson record.read _
        = record.readItems .memory none 4 0 record.blank record.fields (Draft.ofItems _) := rfl
      _ = record.readItems .memory none 4 4 r [] (Draft.ofItems []) := by
          rw [record, readItems_setting (hrate _), readItems_setting hglobal, readItems_setting (hrate _),
            readItems_setting huser]
      _ = .ok r := rfl

end RateSettings

/-! ## The handler -/

/-- a section that may be missing, which null says too -/
inductive SectionSpelling (Spelling : α → Json → Prop) : Option α → Json → Prop
  | absent : SectionSpelling Spelling none .null
  | present {x : α} {v : Json} (h : Spelling x v) : SectionSpelling Spelling (some x) v

theorem SectionSpelling.read {Spelling : α → Json → Prop} {read : Reader α} {x? : Option α}
    (h : SectionSpelling Spelling x? v) (hread : ∀ x ∈ x?, Spelling x v → v.isNull = false ∧ ofJson read v = .ok x) :
    ofJson (optional read) v = .ok x? := by
  cases h with
  | absent => rfl
  | present h =>
    obtain ⟨hnull, hx⟩ := hread _ rfl h
    exact (ofJson_optional hnull).2 hx

namespace HandlerSettings

variable {s : HandlerSettings}

/-- the numbers are of 64 bits, and those of the sections are in range -/
structure InRange (s : HandlerSettings) : Prop where
  allowlist : ∀ a ∈ s.allowlist, a.InRange
  rateLimiter : ∀ r ∈ s.rateLimiter, r.InRange
  maxPendingPerUser : s.maxPendingPerUser < 2 ^ 64
  maxPendingGlobal : s.maxPendingGlobal < 2 ^ 64
  requestTimeoutMillis : s.requestTimeoutMillis < 2 ^ 64

structure Members (s : HandlerSettings) (members : List (String × Json)) : Prop where
  ascending : SortedMap.Ascending members
  allowlist :
    FieldSpelling "allowlistConfig" (SectionSpelling AllowlistSettings.Spelling s.allowlist) (s.allowlist = none)
      members
  rateLimiter :
    FieldSpelling "rateLimiterConfig" (SectionSpelling RateSettings.Spelling s.rateLimiter) (s.rateLimiter = none)
      members
  maxPendingPerUser :
    FieldSpelling "maxPendingRequestPerUser" (· = .nat s.maxPendingPerUser) (s.maxPendingPerUser = 0) members
  maxPendingGlobal :
    FieldSpelling "maxPendingRequestsGlobal" (· = .nat s.maxPendingGlobal) (s.maxPendingGlobal = 0) members
  requestTimeoutMillis :
    FieldSpelling "requestTimeoutMillis" (· = .nat s.requestTimeoutMillis) (s.requestTimeoutMillis = 30000) members

inductive Spelling (s : HandlerSettings) : Json → Prop
  | object {members : List (String × Json)} (h : Members s members) : Spelling s (.object members)

theorem spelling_sorted (s : HandlerSettings) : Spelling s s.toJson.sorted := by
  have hnames : ["allowlistConfig", "rateLimiterConfig", "maxPendingRequestPerUser", "maxPendingRequestsGlobal",
    "requestTimeoutMillis"] = record.fields.map Field.name := rfl
  obtain ⟨allowlist, rateLimiter, perUser, global, timeout⟩ := s
  apply Spelling.object
  refine ⟨SortedMap.ascending_ofPairs _, ?_, ?_, ?_, ?_, ?_⟩
  · cases allowlist with
    | none => exact .of_written twoNames hnames (.head _) .absent
    | some a => exact .of_written twoNames hnames (.head _) (.present a.spelling_sorted)
  · cases rateLimiter with
    | none => exact .of_written twoNames hnames (.tail _ (.head _)) .absent
    | some r => exact .of_written twoNames hnames (.tail _ (.head _)) (.present r.spelling_sorted)
  all_goals exact .of_written twoNames hnames (by simp [Json.sortedMembers, Json.sorted, Json.nat]) rfl

/-- **The settings of the handler are read off their spellings** -/
theorem decode_of_spelling (hs : s.InRange) (h : Spelling s v) : decode v = .ok s := by
  cases h with
  | object h =>
    rw [decode_object, read_eq_ok_iff h.ascending]
    constructor
    · simp only [record, List.forall_mem_cons, settingField, Decode.Field.of, List.not_mem_nil, false_implies,
        implies_true, and_true]
      exact ⟨h.allowlist.not_doubled, h.rateLimiter.not_doubled, h.maxPendingPerUser.not_doubled,
        h.maxPendingGlobal.not_doubled, h.requestTimeoutMillis.not_doubled⟩
    · refine ⟨h.allowlist.yields ?_ ?_, h.rateLimiter.yields ?_ ?_,
        h.maxPendingPerUser.yields_optional (ofJson_natBelow hs.maxPendingPerUser),
        h.maxPendingGlobal.yields_optional (ofJson_natBelow hs.maxPendingGlobal),
        h.requestTimeoutMillis.yields_optional (ofJson_natBelow hs.requestTimeoutMillis)⟩
      · intro v hv
        apply hv.read
        intro a ha hspelling
        exact ⟨hspelling.isNull, AllowlistSettings.read_of_spelling (hs.allowlist a ha) hspelling⟩
      · exact fun hnone => ⟨by decide, hnone⟩
      · intro v hv
        apply hv.read
        intro r hr hspelling
        exact ⟨hspelling.isNull, RateSettings.read_of_spelling (hs.rateLimiter r hr) hspelling⟩
      · exact fun hnone => ⟨by decide, hnone⟩

/-! ## Fields that are given twice -/

/-- a document in memory that gives a field of the settings or of a section under both of its names -/
inductive GivesTwice : Json → Prop
  | settings {members : List (String × Json)} {f : Decode.Field HandlerSettings} (hm : SortedMap.Ascending members)
      (hf : f ∈ record.fields) (htwice : Doubled f.name members) : GivesTwice (.object members)
  | allowlist {members inner : List (String × Json)} {name : String} {f : Decode.Field AllowlistSettings}
      (hm : SortedMap.Ascending members) (hname : name = "allowlistConfig" ∨ name = Text.lower "allowlistConfig")
      (hinner : SortedMap.get? name members = some (.object inner)) (hsorted : SortedMap.Ascending inner)
      (hf : f ∈ AllowlistSettings.record.fields) (htwice : Doubled f.name inner) : GivesTwice (.object members)
  | rateLimiter {members inner : List (String × Json)} {name : String} {f : Decode.Field RateSettings}
      (hm : SortedMap.Ascending members) (hname : name = "rateLimiterConfig" ∨ name = Text.lower "rateLimiterConfig")
      (hinner : SortedMap.get? name members = some (.object inner)) (hsorted : SortedMap.Ascending inner)
      (hf : f ∈ RateSettings.record.fields) (htwice : Doubled f.name inner) : GivesTwice (.object members)

/-- **A document that gives a field twice is not read** -/
theorem decode_of_givesTwice (h : GivesTwice v) : decode v ≠ .ok s := by
  cases h with
  | settings hm hf htwice =>
    rw [decode_object, Ne, read_eq_ok_iff hm]
    rintro ⟨honce, -⟩
    exact honce _ hf htwice
  | @allowlist members inner _ _ hm hname hinner hsorted hf htwice =>
    rw [decode_object, Ne, read_eq_ok_iff hm]
    rintro ⟨honce, hallowlist, -⟩
    have honce : ¬Doubled "allowlistConfig" members := honce _ (.head _)
    refine not_yields_section honce hname hinner (fun a ha => ?_) _ hallowlist
    exact ((AllowlistSettings.read_eq_ok_iff hsorted).1 ha).1 _ hf htwice
  | @rateLimiter members inner _ _ hm hname hinner hsorted hf htwice =>
    rw [decode_object, Ne, read_eq_ok_iff hm]
    rintro ⟨honce, -, hrate, -⟩
    have honce : ¬Doubled "rateLimiterConfig" members := honce _ (.tail _ (.head _))
    refine not_yields_section honce hname hinner (fun r hr => ?_) _ hrate
    exact ((RateSettings.read_eq_ok_iff hsorted).1 hr).1 _ hf htwice

/-- **Settings in order are read off every spelling of theirs**, the document that they are written as among them, and
what gives a field under both of its names is refused. -/
theorem spellings_exact (s : HandlerSettings) (hs : s.InRange) (hcheck : s.check = .ok ()) :
    parse s.toJson.sorted = .ok s ∧ (∀ v, Spelling s v → parse v = .ok s) ∧
      ∀ v, GivesTwice v → ∃ e, parse v = .error (malformed e) := by
  have hread : ∀ v, Spelling s v → parse v = .ok s := by
    intro v hv
    simp only [parse, decode_of_spelling hs hv, hcheck]
  refine ⟨hread _ s.spelling_sorted, hread, fun v hv => ?_⟩
  cases hdecode : decode v with
  | ok s' => exact absurd hdecode (decode_of_givesTwice hv)
  | error e =>
    refine ⟨e, ?_⟩
    rw [parse, hdecode]

/-- settings with both sections, some of whose fields are at their standards -/
def sparse : HandlerSettings :=
  ⟨some ⟨1, "0x00000000000000000000000000000000000000aa", 0, 30, 5⟩,
    some ⟨Decimal.Binary64.ofNat 10, 20, Decimal.Binary64.ofNat 1, 2⟩, 0, 7, 30000⟩

/-- the members of these settings, as few as there may be, under names of both kinds and with others among them -/
def sparseMembers : List (String × Json) :=
  [("allowlistconfig", .object
      [("chainid", .nat 1), ("contractAddress", .string "0x00000000000000000000000000000000000000aa"), ("note", .null),
       ("updateFrequencySec", .nat 30), ("updatetimeoutsec", .nat 5)]),
   ("maxpendingrequestsglobal", .nat 7),
   ("rateLimiterConfig",
    .array [.float (Decimal.Binary64.ofNat 10), .nat 20, .float (Decimal.Binary64.ofNat 1), .nat 2]),
   ("zone", .object [("chainID", .nat 3)])]

theorem members_sparse : Members sparse sparseMembers where
  ascending := by unfold SortedMap.Ascending; decide
  allowlist := by
    refine .small (.present (.object ⟨?_, ?_, ?_, ?_, ?_, ?_⟩)) rfl rfl
    · unfold SortedMap.Ascending; decide
    · exact .small rfl rfl rfl
    · exact .named rfl rfl rfl
    · exact .lacking rfl rfl rfl
    · exact .named rfl rfl rfl
    · exact .small rfl rfl rfl
  rateLimiter := .named (.present .array) rfl rfl
  maxPendingPerUser := .lacking rfl rfl rfl
  maxPendingGlobal := .small rfl rfl rfl
  requestTimeoutMillis := .lacking rfl rfl rfl

theorem spellings_exact_sparse :
    sparse.InRange ∧ sparse.check = .ok () ∧ parse (.object sparseMembers) = .ok sparse ∧
      ∃ e, parse (.object [("maxPendingRequestsGlobal", .nat 7), ("maxpendingrequestsglobal", .nat 7)]) =
        .error (malformed e) := by
  have hrange : sparse.InRange := by
    refine ⟨?_, ?_, by decide, by decide, by decide⟩
    · rintro _ ⟨⟩
      exact ⟨by decide, by decide, by decide, by decide⟩
    · rintro _ ⟨⟩
      exact ⟨by decide, by decide⟩
  have hcheck : sparse.check = .ok () := by
    rw [check_eq, Problem.report_eq_ok_iff]
    decide +kernel
  obtain ⟨-, hspelled, htwice⟩ := spellings_exact sparse hrange hcheck
  refine ⟨hrange, hcheck, hspelled _ (.object members_sparse), htwice _ ?_⟩
  refine .settings ?_ (.tail _ (.tail _ (.tail _ (.head _)))) ⟨by decide, by decide⟩
  unfold SortedMap.Ascending; decide

end HandlerSettings

end QuorumGateway
