import QuorumGateway.Proofs.Config.Sources
/-!
Where the settings of the handler stand in its document. A section or a setting outside of the sections has two names
there, that of the file and the same name in small letters, which variables give; each name is there exactly when its
source gives something under it (`section_cases`, `HandlerDocument.get?_scalar`). A name that both sources give is
doubled (`doubled_section`, `doubled_scalar`). Otherwise what stands under the two names is what arrives from the one
source (`given_section`, `given_scalar`).
-/

namespace QuorumGateway

open Decimal Decode Decode.Record Layers

namespace Layers

/-! ## Lenient reading of objects -/

variable {members : List (String × Json)}

theorem logging?_object {l : Logging} :
    logging? (.object members) = some l ↔
      orElse Logging.standard.level text? (SortedMap.get? "level" members) = some l.level ∧
        orElse Logging.standard.format format? (SortedMap.get? "format" members) = some l.format := by
  simp only [logging?, fields, List.map_cons, List.map_nil, Option.bind_eq_bind, Option.bind_some,
    Option.bind_eq_some_iff, pure, Option.some.injEq]
  constructor
  · rintro ⟨level, hlevel, format, hformat, rfl⟩
    exact ⟨hlevel, hformat⟩
  · rintro ⟨hlevel, hformat⟩
    exact ⟨_, hlevel, _, hformat, rfl⟩

theorem network?_object {n : Network} :
    network? (.object members) = some n ↔
      orElse "" text? (SortedMap.get? "don_id" members) = some n.donId ∧
        orElse Network.standardHandlerName text? (SortedMap.get? "handler_name" members) = some n.handlerName ∧
        orElse .null (some ∘ document) (SortedMap.get? "handler_config" members) = some n.handler ∧
        orElse [] members? (SortedMap.get? "members" members) = some n.members ∧
        faulty? (.object members) (SortedMap.get? "f" members) = some n.f := by
  simp only [network?, fields, List.map_cons, List.map_nil, Option.bind_eq_bind, Option.bind_some,
    Option.bind_eq_some_iff, pure, Option.some.injEq]
  constructor
  · rintro ⟨donId, hdon, handlerName, hname, handler, hhandler, found, hmembers, f, hf, rfl⟩
    exact ⟨hdon, hname, hhandler, hmembers, hf⟩
  · rintro ⟨hdon, hname, hhandler, hmembers, hf⟩
    exact ⟨_, hdon, _, hname, _, hhandler, _, hmembers, _, hf, rfl⟩

theorem settings?_object {s : Settings} :
    settings? (.object members) = some s ↔
      orElse Logging.standard logging? (SortedMap.get? "logging" members) = some s.logging ∧
        orElse Network.local4 network? (SortedMap.get? "don" members) = some s.network := by
  simp only [settings?, fields, List.map_cons, List.map_nil, Option.bind_eq_bind, Option.bind_some,
    Option.bind_eq_some_iff, pure, Option.some.injEq]
  constructor
  · rintro ⟨logging, hlogging, network, hnetwork, rfl⟩
    exact ⟨hlogging, hnetwork⟩
  · rintro ⟨hlogging, hnetwork⟩
    exact ⟨_, hlogging, _, hnetwork, rfl⟩

theorem get?_of_at? {p : List String} {d : Json} (h : at? p d = some (.object members)) (name : String) :
    SortedMap.get? name members = at? (p ++ [name]) d := by
  rw [at?_append, h]
  cases hname : SortedMap.get? name members <;> simp [at?, membersOf_object, hname]

theorem at?_singleton (name : String) : at? [name] (.object members) = SortedMap.get? name members :=
  (get?_of_at? (p := []) rfl name).symm

/-- whether a path leads further in than another -/
def below (q p : List String) : Bool := q.isPrefixOf p && q.length < p.length

theorem exists_of_below {q p : List String} (h : below q p = true) : ∃ name rest, p = q ++ name :: rest := by
  simp only [below, Bool.and_eq_true, List.isPrefixOf_iff_prefix, decide_eq_true_eq] at h
  obtain ⟨⟨rest, rfl⟩, hlt⟩ := h
  cases rest with
  | nil => simp at hlt
  | cons name rest => exact ⟨name, rest, rfl⟩

end Layers

namespace Setting

variable {file : Setting → Option Json} {members : Option (List Member)} {env : Setting → Option String}
  {entries : List (List String × Json)} {k : Setting}

/-! ## Sections -/

theorem at?_stack_ne_none (members : Option (List Member)) (hfile : Leaves file)
    (hentries : AreVariables env entries) (hk : file k ≠ none) :
    at? k.path (stack file members entries) ≠ none := by
  obtain ⟨j, hj⟩ := Option.ne_none_iff_exists'.1 hk
  by_cases hkey : k.handlerKey = none
  · rw [at?_stack_gateway hfile hentries hkey, hj]
    cases env k <;> nofun
  · rw [(at?_stack_handler members hfile hentries hkey).1, hj]
    nofun

/-- **A section is there exactly when something in it is given** -/
theorem section_cases (members : Option (List Member)) (hfile : Leaves file) (hentries : AreVariables env entries)
    {q : List String} (hq : q ≠ [])
    (hpath : ∀ k : Setting, below q k.path = true ∨ apart k.path q = true)
    (hvariable : ∀ k : Setting, below q k.variablePath = true ∨ apart k.variablePath q = true)
    (hmembers : below q membersPath = true ∨ apart membersPath q = true) (hbase : at? q base = none) :
    (at? q (stack file members entries) = none ∧ (∀ k : Setting, below q k.path = true → file k = none) ∧
      (∀ k : Setting, below q k.variablePath = true → env k = none) ∧ (below q membersPath = true → members = none)) ∨
    ∃ found, at? q (stack file members entries) = some (.object found) ∧
      ((∃ k : Setting, below q k.path = true ∧ file k ≠ none) ∨
        (∃ k : Setting, below q k.variablePath = true ∧ env k ≠ none) ∨
          (below q membersPath = true ∧ members ≠ none)) := by
  by_cases hgiven : (∃ k : Setting, below q k.path = true ∧ file k ≠ none) ∨
      (∃ k : Setting, below q k.variablePath = true ∧ env k ≠ none) ∨ (below q membersPath = true ∧ members ≠ none)
  · refine .inr ?_
    have hobject : ∀ {p v}, below q p = true → at? p (stack file members entries) = some v →
        ∃ found, at? q (stack file members entries) = some (.object found) := by
      intro p v hbelow hv
      obtain ⟨name, rest, rfl⟩ := exists_of_below hbelow
      exact exists_object_of_at? hv
    have hfound : ∃ found, at? q (stack file members entries) = some (.object found) := by
      rcases hgiven with ⟨k, hbelow, hk⟩ | ⟨k, hbelow, hk⟩ | ⟨hbelow, hms⟩
      · obtain ⟨v, hv⟩ := Option.ne_none_iff_exists'.1 (at?_stack_ne_none members hfile hentries hk)
        exact hobject hbelow hv
      · obtain ⟨t, ht⟩ := Option.ne_none_iff_exists'.1 hk
        exact hobject hbelow (at?_stack_variable hentries ht)
      · obtain ⟨ms, hms⟩ := Option.ne_none_iff_exists'.1 hms
        exact hobject hbelow (at?_stack_members hfile hentries hms)
    exact hfound.imp fun found h => ⟨h, hgiven⟩
  · simp only [not_or, not_exists, not_and, not_not] at hgiven
    obtain ⟨hnofile, hnoenv, hnomembers⟩ := hgiven
    refine .inl ⟨?_, hnofile, hnoenv, hnomembers⟩
    rw [at?_stack_open hfile hentries hq, hbase]
    · exact fun k hk => (hvariable k).resolve_left fun hbelow => hk (hnoenv k hbelow)
    · exact fun k hk => (hpath k).resolve_left fun hbelow => hk (hnofile k hbelow)
    · exact fun hms => hmembers.resolve_left fun hbelow => hms (hnomembers hbelow)

/-- the sections outside of logging, as a file or the environment names them -/
def sections : List (List String) :=
  [["don"], ["don", "handler_config"], ["don", "handler_config", "allowlistConfig"],
   ["don", "handler_config", "allowlistconfig"], ["don", "handler_config", "rateLimiterConfig"],
   ["don", "handler_config", "ratelimiterconfig"]]

theorem sections_places {q : List String} (hq : q ∈ sections) :
    q ≠ [] ∧ (∀ k : Setting, below q k.path = true ∨ apart k.path q = true) ∧
      (∀ k : Setting, below q k.variablePath = true ∨ apart k.variablePath q = true) ∧
      (below q membersPath = true ∨ apart membersPath q = true) := by
  have hall : ∀ q ∈ sections, q ≠ [] ∧ (∀ k ∈ all, below q k.path = true ∨ apart k.path q = true) ∧
      (∀ k ∈ all, below q k.variablePath = true ∨ apart k.variablePath q = true) ∧
      (below q membersPath = true ∨ apart membersPath q = true) := by
    decide +kernel
  obtain ⟨hne, hpath, hvariable, hmembers⟩ := hall q hq
  exact ⟨hne, fun k => hpath k (mem_all k), fun k => hvariable k (mem_all k), hmembers⟩

/-! ## The document of the handler -/

def handlerPath : List String := ["don", "handler_config"]

/-- the last name on the way to a setting -/
def name (k : Setting) : String := k.path.getLastD ""

/-- whether both sources give something under a name in the settings of the handler -/
def Clash (file : Setting → Option Json) (env : Setting → Option String) (c : String) : Prop :=
  (∃ k : Setting, k.handlerKey = some c ∧ file k ≠ none) ∧ ∃ k : Setting, k.handlerKey = some c ∧ env k ≠ none

/-- what arrives in the document of the handler for a setting that one source gives -/
def arrived (file : Setting → Option Json) (env : Setting → Option String) (k : Setting) : Option Json :=
  ((file k).map fun j => document (fileValue j)).or ((env k).map fun t => document (variableValue t))

/-- the document of the handler as the gateway keeps it -/
structure HandlerDocument (file : Setting → Option Json) (members : Option (List Member))
    (entries : List (List String × Json)) (found : List (String × Json)) : Prop where
  ordered : Ordered (.object found)
  at?_eq : ∀ p, at? p (.object found) = (at? (handlerPath ++ p) (stack file members entries)).map document

variable {found : List (String × Json)} {c : String}

theorem exists_handlerDocument (hfile : Leaves file) (hentries : AreVariables env entries)
    {kept : List (String × Json)} (h : at? handlerPath (stack file members entries) = some (.object kept)) :
    ∃ found, document (.object kept) = .object found ∧ HandlerDocument file members entries found := by
  refine ⟨_, memberwise_document.object kept, ?_, fun p => ?_⟩ <;> rw [← memberwise_document.object]
  · refine memberwise_document.ordered fun p inner hp => ?_
    exact ordered_stack members hfile hentries (handlerPath ++ p) inner (by rw [at?_append, h]; exact hp)
  · rw [memberwise_document.at?, at?_append, h]
    rfl

namespace HandlerDocument

theorem get?_eq (hdoc : HandlerDocument file members entries found) (name : String) :
    SortedMap.get? name found = (at? (handlerPath ++ [name]) (stack file members entries)).map document := by
  rw [← hdoc.at?_eq]
  exact (at?_singleton name).symm

/-! ### Settings outside of the sections -/

/-- the settings that stand in no section -/
def scalars : List Setting := [maxPendingPerUser, maxPendingGlobal, requestTimeoutMillis]

theorem scalar_places (hk : k ∈ scalars) :
    k.path = handlerPath ++ [k.name] ∧ k.variablePath = handlerPath ++ [Text.lower k.name] ∧
      k.handlerKey = some k.name ∧ ∀ k' : Setting, k'.handlerKey = some k.name → k' = k := by
  have hall : ∀ k ∈ scalars, k.path = handlerPath ++ [k.name] ∧ k.variablePath = handlerPath ++ [Text.lower k.name] ∧
      k.handlerKey = some k.name ∧ ∀ k' ∈ all, k'.handlerKey = some k.name → k' = k := by
    decide +kernel
  obtain ⟨hpath, hvariable, hkey, hunique⟩ := hall k hk
  exact ⟨hpath, hvariable, hkey, fun k' => hunique k' (mem_all k')⟩

theorem get?_scalar (hfile : Leaves file) (hentries : AreVariables env entries)
    (hdoc : HandlerDocument file members entries found) (hk : k ∈ scalars) :
    SortedMap.get? k.name found = (file k).map (fun j => document (fileValue j)) ∧
      SortedMap.get? (Text.lower k.name) found = (env k).map fun t => document (variableValue t) := by
  obtain ⟨hpath, hvariable, hkey, -⟩ := scalar_places hk
  obtain ⟨hfound, hfound'⟩ := at?_stack_handler members hfile hentries (by rw [hkey]; nofun)
  rw [hdoc.get?_eq, hdoc.get?_eq, ← hpath, ← hvariable, hfound, hfound', Option.map_map, Option.map_map]
  exact ⟨rfl, rfl⟩

theorem given_scalar (hfile : Leaves file) (hentries : AreVariables env entries)
    (hdoc : HandlerDocument file members entries found) (hk : k ∈ scalars) :
    given k.name found = arrived file env k := by
  obtain ⟨hname, hlower⟩ := hdoc.get?_scalar hfile hentries hk
  rw [given, hname, hlower, arrived]

theorem doubled_scalar (hfile : Leaves file) (hentries : AreVariables env entries)
    (hdoc : HandlerDocument file members entries found) (hk : k ∈ scalars) :
    Doubled k.name found ↔ Clash file env k.name := by
  obtain ⟨hname, hlower⟩ := hdoc.get?_scalar hfile hentries hk
  obtain ⟨-, -, hkey, hunique⟩ := scalar_places hk
  have hexists : ∀ P : Setting → Prop, (∃ k' : Setting, k'.handlerKey = some k.name ∧ P k') ↔ P k := fun P =>
    ⟨fun ⟨k', hk', hP⟩ => hunique k' hk' ▸ hP, fun hP => ⟨k, hkey, hP⟩⟩
  rw [Doubled, hname, hlower, Clash, hexists, hexists]
  simp

/-! ### Sections -/

/-- the names of the sections -/
def sectionNames : List String := ["allowlistConfig", "rateLimiterConfig"]

theorem section_places (hc : c ∈ sectionNames) :
    handlerPath ++ [c] ∈ sections ∧ handlerPath ++ [Text.lower c] ∈ sections ∧
      at? (handlerPath ++ [c]) base = none ∧ at? (handlerPath ++ [Text.lower c]) base = none ∧
      below (handlerPath ++ [c]) membersPath = false ∧ below (handlerPath ++ [Text.lower c]) membersPath = false := by
  rcases List.mem_pair.1 hc with rfl | rfl <;> exact ⟨by decide +kernel, by decide +kernel, rfl, rfl, rfl, rfl⟩

theorem section_below (hc : c ∈ sectionNames) (k : Setting) :
    (below (handlerPath ++ [c]) k.path = true ↔ k.handlerKey = some c) ∧
      below (handlerPath ++ [c]) k.variablePath = false ∧
      (below (handlerPath ++ [Text.lower c]) k.variablePath = true ↔ k.handlerKey = some c) ∧
      below (handlerPath ++ [Text.lower c]) k.path = false := by
  have hall : ∀ c ∈ sectionNames, ∀ k ∈ all, (below (handlerPath ++ [c]) k.path = true ↔ k.handlerKey = some c) ∧
      below (handlerPath ++ [c]) k.variablePath = false ∧
      (below (handlerPath ++ [Text.lower c]) k.variablePath = true ↔ k.handlerKey = some c) ∧
      below (handlerPath ++ [Text.lower c]) k.path = false := by
    decide +kernel
  exact hall c hc k (mem_all k)

theorem setting_places (hc : c ∈ sectionNames) (hk : k.handlerKey = some c) :
    k.path = handlerPath ++ [c, k.name] ∧ k.variablePath = handlerPath ++ [Text.lower c, Text.lower k.name] := by
  have hall : ∀ c ∈ sectionNames, ∀ k ∈ all, k.handlerKey = some c →
      k.path = handlerPath ++ [c, k.name] ∧ k.variablePath = handlerPath ++ [Text.lower c, Text.lower k.name] := by
    decide +kernel
  exact hall c hc k (mem_all k) hk

/-- nothing is given under a name of one spelling in a section of the other -/
theorem mixed_places (hc : c ∈ sectionNames) (hk : k.handlerKey = some c) (k' : Setting) :
    ∀ q ∈ [handlerPath ++ [c, Text.lower k.name], handlerPath ++ [Text.lower c, k.name]],
      apart k'.path q = true ∧ apart k'.variablePath q = true ∧ apart membersPath q = true ∧ at? q base = none := by
  have hall : ∀ c ∈ sectionNames, ∀ k ∈ all, k.handlerKey = some c → ∀ k' ∈ all,
      ∀ q ∈ [handlerPath ++ [c, Text.lower k.name], handlerPath ++ [Text.lower c, k.name]],
      apart k'.path q = true ∧ apart k'.variablePath q = true ∧ apart membersPath q = true := by
    decide +kernel
  intro q hq
  obtain ⟨hpath, hvariable, hmembers⟩ := hall c hc k (mem_all k) hk k' (mem_all k') q hq
  refine ⟨hpath, hvariable, hmembers, ?_⟩
  rcases List.mem_pair.1 hq with rfl | rfl <;> rfl

theorem at?_mixed (members : Option (List Member)) (hfile : Leaves file) (hentries : AreVariables env entries)
    (hc : c ∈ sectionNames) (hk : k.handlerKey = some c) :
    at? (handlerPath ++ [c, Text.lower k.name]) (stack file members entries) = none ∧
      at? (handlerPath ++ [Text.lower c, k.name]) (stack file members entries) = none := by
  have hnone : ∀ q ∈ [handlerPath ++ [c, Text.lower k.name], handlerPath ++ [Text.lower c, k.name]],
      at? q (stack file members entries) = none := by
    intro q hq
    have hne : q ≠ [] := by rcases List.mem_pair.1 hq with rfl | rfl <;> exact List.cons_ne_nil _ _
    rw [at?_stack_open hfile hentries hne]
    · exact (mixed_places hc hk k q hq).2.2.2
    · exact fun k' _ => (mixed_places hc hk k' q hq).2.1
    · exact fun k' _ => (mixed_places hc hk k' q hq).1
    · exact fun _ => (mixed_places hc hk k q hq).2.2.1
  exact ⟨hnone _ (by simp), hnone _ (by simp)⟩

/-- a section under one spelling of its name: it is there exactly when something in it is given -/
theorem section_spelled (hfile : Leaves file) (hentries : AreVariables env entries)
    (hdoc : HandlerDocument file members entries found) {d : String} (hd : handlerPath ++ [d] ∈ sections)
    (hbase : at? (handlerPath ++ [d]) base = none) (hmembers : below (handlerPath ++ [d]) membersPath = false) :
    (SortedMap.get? d found = none ∧ (∀ k : Setting, below (handlerPath ++ [d]) k.path = true → file k = none) ∧
      ∀ k : Setting, below (handlerPath ++ [d]) k.variablePath = true → env k = none) ∨
    ((∃ k : Setting, below (handlerPath ++ [d]) k.path = true ∧ file k ≠ none ∨
        below (handlerPath ++ [d]) k.variablePath = true ∧ env k ≠ none) ∧
      ∃ inner, SortedMap.get? d found = some (.object inner) ∧ SortedMap.Ascending inner ∧ ∀ name,
        SortedMap.get? name inner = (at? (handlerPath ++ [d, name]) (stack file members entries)).map document) := by
  obtain ⟨hne, hpath, hvariable, hmembersPath⟩ := sections_places hd
  rcases section_cases members hfile hentries hne hpath hvariable hmembersPath hbase with
    ⟨hnone, hnofile, hnoenv, -⟩ | ⟨kept, hkept, hgiven⟩
  · refine .inl ⟨?_, hnofile, hnoenv⟩
    rw [hdoc.get?_eq, hnone]
    rfl
  · refine .inr ⟨?_, ?_⟩
    · rcases hgiven with ⟨k, hk⟩ | ⟨k, hk⟩ | ⟨hbelow, -⟩
      · exact ⟨k, .inl hk⟩
      · exact ⟨k, .inr hk⟩
      · rw [hmembers] at hbelow
        cases hbelow
    · have hinner : SortedMap.get? d found = some (.object (kept.map fun e => (e.1, document e.2))) := by
        rw [hdoc.get?_eq, hkept, Option.map_some, memberwise_document.object]
      have hat : at? [d] (.object found) = some (.object (kept.map fun e => (e.1, document e.2))) := by
        rw [at?_singleton, hinner]
      refine ⟨_, hinner, hdoc.ordered [d] _ hat, fun name => ?_⟩
      rw [get?_of_at? hat, hdoc.at?_eq]
      rfl

/-- the section of the file, under its own name -/
theorem section_file (hfile : Leaves file) (hentries : AreVariables env entries)
    (hdoc : HandlerDocument file members entries found) (hc : c ∈ sectionNames) :
    (SortedMap.get? c found = none ∧ ∀ k : Setting, k.handlerKey = some c → file k = none) ∨
      ((∃ k : Setting, k.handlerKey = some c ∧ file k ≠ none) ∧ ∃ inner, SortedMap.get? c found = some (.object inner) ∧
        SortedMap.Ascending inner ∧ ∀ k : Setting, k.handlerKey = some c →
          SortedMap.get? k.name inner = (file k).map (fun j => document (fileValue j)) ∧
            SortedMap.get? (Text.lower k.name) inner = none) := by
  obtain ⟨hsection, -, hbase, -, hmembers, -⟩ := section_places hc
  rcases hdoc.section_spelled hfile hentries hsection hbase hmembers with
    ⟨hnone, hnofile, -⟩ | ⟨⟨k, hk⟩, inner, hinner, hascending, hget⟩
  · exact .inl ⟨hnone, fun k hk => hnofile k ((section_below hc k).1.2 hk)⟩
  · obtain ⟨hpath, hvariable, -, -⟩ := section_below hc k
    rw [hpath, hvariable] at hk
    refine .inr ⟨⟨k, by simpa using hk⟩, inner, hinner, hascending, fun k hk => ?_⟩
    have hmixed := (at?_mixed members hfile hentries hc hk).1
    have hfound := (at?_stack_handler members hfile hentries (by rw [hk]; nofun)).1
    rw [hget, hget, ← (setting_places hc hk).1, hfound, hmixed, Option.map_map]
    exact ⟨rfl, rfl⟩

/-- the section of the environment, under its name in small letters -/
theorem section_variables (hfile : Leaves file) (hentries : AreVariables env entries)
    (hdoc : HandlerDocument file members entries found) (hc : c ∈ sectionNames) :
    (SortedMap.get? (Text.lower c) found = none ∧ ∀ k : Setting, k.handlerKey = some c → env k = none) ∨
      ((∃ k : Setting, k.handlerKey = some c ∧ env k ≠ none) ∧
        ∃ inner, SortedMap.get? (Text.lower c) found = some (.object inner) ∧
          SortedMap.Ascending inner ∧ ∀ k : Setting, k.handlerKey = some c →
            SortedMap.get? k.name inner = none ∧
              SortedMap.get? (Text.lower k.name) inner = (env k).map fun t => document (variableValue t)) := by
  obtain ⟨-, hsection, -, hbase, -, hmembers⟩ := section_places hc
  rcases hdoc.section_spelled hfile hentries hsection hbase hmembers with
    ⟨hnone, -, hnoenv⟩ | ⟨⟨k, hk⟩, inner, hinner, hascending, hget⟩
  · exact .inl ⟨hnone, fun k hk => hnoenv k ((section_below hc k).2.2.1.2 hk)⟩
  · obtain ⟨-, -, hvariable, hpath⟩ := section_below hc k
    rw [hpath, hvariable] at hk
    refine .inr ⟨⟨k, by simpa using hk⟩, inner, hinner, hascending, fun k hk => ?_⟩
    have hmixed := (at?_mixed members hfile hentries hc hk).2
    have hfound := (at?_stack_handler members hfile hentries (by rw [hk]; nofun)).2
    rw [hget, hget, ← (setting_places hc hk).2, hfound, hmixed, Option.map_map]
    exact ⟨rfl, rfl⟩

theorem doubled_section (hfile : Leaves file) (hentries : AreVariables env entries)
    (hdoc : HandlerDocument file members entries found) (hc : c ∈ sectionNames) :
    Doubled c found ↔ Clash file env c := by
  have hno : ∀ P : Setting → Prop, (∀ k : Setting, k.handlerKey = some c → ¬P k) →
      ¬∃ k : Setting, k.handlerKey = some c ∧ P k := fun P h ⟨k, hk, hP⟩ => h k hk hP
  rw [Doubled, Clash]
  refine and_congr ?_ ?_
  · rcases hdoc.section_file hfile hentries hc with ⟨hnone, hnofile⟩ | ⟨hgiven, inner, hinner, -⟩
    · simp only [hnone, ne_eq, not_true_eq_false, false_iff]
      exact hno _ fun k hk hne => hne (hnofile k hk)
    · simp only [hinner, ne_eq, reduceCtorEq, not_false_eq_true, true_iff]
      exact hgiven
  · rcases hdoc.section_variables hfile hentries hc with ⟨hnone, hnoenv⟩ | ⟨hgiven, inner, hinner, -⟩
    · simp only [hnone, ne_eq, not_true_eq_false, false_iff]
      exact hno _ fun k hk hne => hne (hnoenv k hk)
    · simp only [hinner, ne_eq, reduceCtorEq, not_false_eq_true, true_iff]
      exact hgiven

/-- **What stands for a section that one source gives**: nothing if no setting in it is given, and otherwise an object
that gives each setting in it under one name -/
theorem given_section (hfile : Leaves file) (hentries : AreVariables env entries)
    (hdoc : HandlerDocument file members entries found) (hc : c ∈ sectionNames) (hclash : ¬Clash file env c) :
    (given c found = none ∧ ∀ k : Setting, k.handlerKey = some c → file k = none ∧ env k = none) ∨
      ((∃ k : Setting, k.handlerKey = some c ∧ (file k ≠ none ∨ env k ≠ none)) ∧
        ∃ inner, given c found = some (.object inner) ∧ SortedMap.Ascending inner ∧
          ∀ k : Setting, k.handlerKey = some c → given k.name inner = arrived file env k ∧ ¬Doubled k.name inner ∧
            (file k = none ∨ env k = none)) := by
  rcases hdoc.section_file hfile hentries hc with
    ⟨hnone, hnofile⟩ | ⟨⟨k, hk, hgiven⟩, inner, hinner, hascending, hfields⟩
  · rcases hdoc.section_variables hfile hentries hc with
      ⟨hnone', hnoenv⟩ | ⟨⟨k, hk, hgiven⟩, inner, hinner, hascending, hfields⟩
    · exact .inl ⟨by rw [given, hnone, hnone']; rfl, fun k hk => ⟨hnofile k hk, hnoenv k hk⟩⟩
    · refine .inr ⟨⟨k, hk, .inr hgiven⟩, inner, by rw [given, hnone, hinner]; rfl, hascending, fun k hk => ?_⟩
      obtain ⟨hname, hlower⟩ := hfields k hk
      refine ⟨?_, ?_, .inl (hnofile k hk)⟩
      · rw [given, hname, hlower, arrived, hnofile k hk]
        rfl
      · rw [Doubled, hname]
        exact fun h => h.1 rfl
  · have hnoenv : ∀ k : Setting, k.handlerKey = some c → env k = none := by
      intro k' hk'
      by_contra hne
      exact hclash ⟨⟨k, hk, hgiven⟩, k', hk', hne⟩
    refine .inr ⟨⟨k, hk, .inl hgiven⟩, inner, by rw [given, hinner]; rfl, hascending, fun k hk => ?_⟩
    obtain ⟨hname, hlower⟩ := hfields k hk
    refine ⟨?_, ?_, .inr (hnoenv k hk)⟩
    · rw [given, hname, hlower, arrived, hnoenv k hk]
      rfl
    · rw [Doubled, hlower]
      exact fun h => h.2 rfl

end HandlerDocument

end Setting

end QuorumGateway
