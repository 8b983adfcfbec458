import QuorumGateway.Proofs.Config.Choice
/-!
Which settings the environment overrides. Loading is lenient with the settings of the gateway itself: something is read
for each of them in any case, and it is what is asked for unless a text in a variable looks like a number or a truth
value and is respelled, or a whole number is beyond the signed 64-bit range and is rounded (`Keeps`). The settings of
the handler are read from a document that holds the names of both sources, and a name that both give is refused there.

- `overrides_iff`: loading gives the environment's value of each setting that it sets, and the file's of all others,
  exactly if the sources are `Compatible`.
- `Compatible.not_overridden`: compatible sources never give a setting of the handler twice.
- `requestTimeout_not_overridden`: a file and one variable that are not compatible.
-/

namespace QuorumGateway.Setting

open Decimal Decode Decode.Record Layers

variable {file : Setting → Option Json} {members : Option (List Member)} {env : Setting → Option String}
  {entries : List (List String × Json)} {k : Setting}

/-! ## Settings of the gateway itself -/

/-- whether the lenient reading of a setting of the gateway itself keeps its value: a text in a variable must not be
respelled as a number or a truth value, and a whole number must be in the signed 64-bit range, or not be changed by the
binary format -/
def Kind.Keeps : (κ : Kind) → Option String → κ.Value → Prop
  | text, some t, _ => text? (variableValue t) = some t
  | count _ _, _, n => (show Nat from n) < 2 ^ 63 ∨ (Binary64.ofNat n).toWord = n
  | _, _, _ => True

def Keeps (file : Setting → Option Json) (env : Setting → Option String) (k : Setting) : Prop :=
  ∀ x, chosen file env k = some x → k.kind.Keeps (env k) x

/-- a reader of values of a kind that fails on none, whichever source it is from, and gets right those that are kept -/
structure Kind.ReadBy (κ : Kind) (read : Json → Option κ.Value) : Prop where
  ofFile : ∀ j x, κ.ofJson? j = some x → ∃ y, read (fileValue j) = some y ∧ (y = x ↔ κ.Keeps none x)
  ofVariable : ∀ t x, κ.ofText? t = some x → ∃ y, read (variableValue t) = some y ∧ (y = x ↔ κ.Keeps (some t) x)

theorem exists_text?_variableValue (t : String) : ∃ s, text? (variableValue t) = some s := by
  unfold variableValue
  split_ifs
  · exact ⟨_, rfl⟩
  · exact ⟨_, rfl⟩
  · split
    · exact ⟨_, rfl⟩
    · split <;> exact ⟨_, rfl⟩

theorem readBy_text : Kind.text.ReadBy text? where
  ofFile j x h := by
    have hvalue : fileValue j = .string x := Kind.delivered_file (κ := .text) h
    rw [hvalue]
    exact ⟨x, rfl, iff_of_true rfl trivial⟩
  ofVariable t x h := by
    cases h
    obtain ⟨s, hs⟩ := exists_text?_variableValue t
    refine ⟨s, hs, ?_⟩
    show s = t ↔ text? (variableValue t) = some t
    rw [hs, Option.some.injEq]

theorem format?_text (f : LogFormat) : format? (.string f.text) = some f := by cases f <;> decide

theorem readBy_format : Kind.format.ReadBy format? where
  ofFile j x h := by
    have hvalue : fileValue j = .string (LogFormat.text x) := Kind.delivered_file (κ := .format) h
    rw [hvalue]
    exact ⟨x, format?_text x, iff_of_true rfl trivial⟩
  ofVariable t x h := by
    have hvalue : variableValue t = .string (LogFormat.text x) := Kind.delivered_variable (κ := .format) nofun h
    rw [hvalue]
    exact ⟨x, format?_text x, iff_of_true rfl trivial⟩

theorem exists_size?_keptNat (n : Nat) :
    ∃ m, size? (keptNat n) = some m ∧ (m = n ↔ n < 2 ^ 63 ∨ (Binary64.ofNat n).toWord = n) := by
  rw [keptNat]
  split_ifs with hsmall
  · exact ⟨n, by simp [Json.nat, size?], iff_of_true rfl (.inl hsmall)⟩
  · exact ⟨_, rfl, by simp [hsmall]⟩

theorem readBy_size (bound : Nat) (expected : String) : (Kind.count bound expected).ReadBy size? where
  ofFile j x h := by
    obtain ⟨-, hvalue⟩ := Kind.delivered_file (κ := .count bound expected) h
    rw [hvalue]
    exact exists_size?_keptNat x
  ofVariable t x h := by
    obtain ⟨-, hvalue⟩ := Kind.delivered_variable (κ := .count bound expected) nofun h
    rw [hvalue]
    exact exists_size?_keptNat x

/-- **What is read for a setting of the gateway itself**: something in any case, and the value that is asked for exactly
when that value is kept -/
theorem exists_orElse_gateway (hvalid : Valid file env) (hentries : AreVariables env entries) (hk : k.handlerKey = none)
    {read : Json → Option k.kind.Value} (hread : k.kind.ReadBy read) {σ : k.kind.Value}
    (hbase : (orElse σ read (at? k.path base)).isSome = true) :
    ∃ y, orElse σ read (at? k.path (stack file members entries)) = some y ∧
      ((∀ x, chosen file env k = some x → y = x) ↔ Keeps file env k) := by
  rw [at?_stack_gateway hvalid.leaves hentries hk]
  have hiff : ∀ x, chosen file env k = some x → ∀ y, (y = x ↔ k.kind.Keeps (env k) x) →
      ((∀ x, chosen file env k = some x → y = x) ↔ Keeps file env k) := by
    intro x hchosen y h
    rw [Keeps, hchosen]
    simpa using h
  rcases hvalid.chosen_cases k with ⟨t, x, ht, hx, hchosen⟩ | ⟨j, x, ht, hj, hx, hchosen⟩ | ⟨ht, hj, hchosen⟩
  · obtain ⟨y, hy, h⟩ := hread.ofVariable t x hx
    refine ⟨y, by rw [ht]; exact hy, hiff x hchosen y ?_⟩
    rwa [ht]
  · obtain ⟨y, hy, h⟩ := hread.ofFile j x hx
    refine ⟨y, by rw [ht, hj]; exact hy, hiff x hchosen y ?_⟩
    rwa [ht]
  · obtain ⟨y, hy⟩ := Option.isSome_iff_exists.1 hbase
    refine ⟨y, by rw [ht, hj]; exact hy, ?_⟩
    rw [Keeps, hchosen]
    exact iff_of_true nofun nofun

/-! ## Members -/

theorem fileItems_eq (items : List Json) : fileItems items = items.map fileValue := by
  induction items with
  | nil => rfl
  | cons v rest ih => rw [fileItems, ih, List.map_cons]

theorem member?_memberDocument (m : Member) : member? (fileValue (memberDocument m)) = some m := by
  cases m
  rfl

theorem members?_fileValue (ms : List Member) : members? (fileValue (.array (ms.map memberDocument))) = some ms := by
  rw [fileValue, fileItems_eq, List.map_map, members?]
  induction ms with
  | nil => rfl
  | cons m rest ih =>
    rw [List.map_cons, List.mapM_cons, Function.comp_apply, member?_memberDocument, ih]
    rfl

theorem exists_orElse_members (hfile : Leaves file) (hentries : AreVariables env entries) :
    ∃ ms, orElse [] members? (at? membersPath (stack file members entries)) = some ms := by
  cases hms : members with
  | some ms =>
    rw [at?_stack_members hfile hentries rfl]
    exact ⟨ms, members?_fileValue ms⟩
  | none =>
    refine ⟨[], ?_⟩
    have hnone : at? membersPath (stack file none entries) = at? membersPath base :=
      at?_stack_open hfile hentries (List.cons_ne_nil _ _) (fun k _ => (apart_members k).2.2.1)
        (fun k _ => (apart_members k).1) fun hno => absurd rfl hno
    rw [hnone]
    rfl

/-! ## All settings -/

/-- the values of the settings of the gateway itself -/
def ofSettings (s : Settings) : Values
  | level => some s.logging.level
  | format => some s.logging.format
  | donId => some s.network.donId
  | handlerName => some s.network.handlerName
  | faulty => some s.network.f
  | _ => none

theorem faulty?_object {found : List (String × Json)} (h : SortedMap.get? "F" found = none) (f : Option Json) :
    faulty? (.object found) f = orElse 0 size? f := by
  have hnone : Json.get? "F" (.object found) = none := h
  cases f <;> simp only [faulty?, hnone, orElse]

/-- a setting of the gateway itself gets what is asked for exactly when that is kept -/
def Follows (file : Setting → Option Json) (env : Setting → Option String) (s : Settings) (k : Setting) : Prop :=
  (∀ x, chosen file env k = some x → ofSettings s k = some x) ↔ Keeps file env k

/-- nothing is given for the number of faulty nodes under its other name -/
theorem at?_capital (members : Option (List Member)) (hfile : Leaves file) (hentries : AreVariables env entries) :
    at? ["don", "F"] (stack file members entries) = none := by
  have hplaces : ∀ k ∈ all, apart k.variablePath ["don", "F"] = true ∧ apart k.path ["don", "F"] = true := by
    decide +kernel
  rw [at?_stack_open hfile hentries (List.cons_ne_nil _ _) (fun k _ => (hplaces k (mem_all k)).1)
    (fun k _ => (hplaces k (mem_all k)).2) fun _ => rfl]
  rfl

/-- the network as it is read where something is given in it -/
theorem exists_network_object (hvalid : Valid file env) (hentries : AreVariables env entries)
    {found : List (String × Json)} (hfound : at? ["don"] (stack file members entries) = some (.object found)) :
    ∃ n, network? (.object found) = some n ∧
      orElse .null (some ∘ document) (at? handlerPath (stack file members entries)) = some n.handler ∧
      ∀ l, ∀ k ∈ [donId, handlerName, faulty], Follows file env ⟨l, n⟩ k := by
  have hget : ∀ name, SortedMap.get? name found = at? ["don", name] (stack file members entries) := get?_of_at? hfound
  obtain ⟨id, hid, hidfollows⟩ := exists_orElse_gateway (k := donId) hvalid hentries rfl readBy_text (σ := "") rfl
  obtain ⟨name, hname, hnamefollows⟩ :=
    exists_orElse_gateway (k := handlerName) hvalid hentries rfl readBy_text (σ := Network.standardHandlerName) rfl
  obtain ⟨f, hf, hffollows⟩ :=
    exists_orElse_gateway (k := faulty) hvalid hentries rfl (readBy_size _ _) (σ := (0 : Nat)) rfl
  obtain ⟨raw, hraw⟩ : ∃ raw, orElse .null (some ∘ document) (at? handlerPath (stack file members entries)) =
      some raw := by
    cases at? handlerPath (stack file members entries) <;> exact ⟨_, rfl⟩
  obtain ⟨ms, hms⟩ := exists_orElse_members hvalid.leaves hentries
  refine ⟨⟨id, name, raw, ms, f⟩, network?_object.2 ⟨?_, ?_, ?_, ?_, ?_⟩, hraw, ?_⟩
  · rw [hget]
    exact hid
  · rw [hget]
    exact hname
  · rw [hget]
    exact hraw
  · rw [hget]
    exact hms
  · rw [faulty?_object (by rw [hget]; exact at?_capital members hvalid.leaves hentries), hget]
    exact hf
  · intro l k hk
    simp only [List.mem_cons, List.not_mem_nil, or_false] at hk
    rcases hk with rfl | rfl | rfl
    · exact (forall₂_congr fun x _ => Option.some_inj).trans hidfollows
    · exact (forall₂_congr fun x _ => Option.some_inj).trans hnamefollows
    · exact (forall₂_congr fun x _ => Option.some_inj).trans hffollows

theorem exists_network (members : Option (List Member)) (hvalid : Valid file env)
    (hentries : AreVariables env entries) :
    ∃ n, orElse Network.local4 network? (at? ["don"] (stack file members entries)) = some n ∧
      orElse .null (some ∘ document) (at? handlerPath (stack file members entries)) = some n.handler ∧
      ∀ l, ∀ k ∈ [donId, handlerName, faulty], Follows file env ⟨l, n⟩ k := by
  obtain ⟨hne, hpath, hvariable, hmembers⟩ := sections_places (q := ["don"]) (by decide)
  rcases section_cases members hvalid.leaves hentries hne hpath hvariable hmembers rfl with
    ⟨hnone, hnofile, hnoenv, -⟩ | ⟨found, hfound, -⟩
  · have hhandler : at? handlerPath (stack file members entries) = none := by
      rw [show handlerPath = ["don"] ++ ["handler_config"] from rfl, at?_append, hnone]
      rfl
    rw [hnone, hhandler]
    refine ⟨Network.local4, rfl, rfl, fun l k hk => ?_⟩
    have hbelow : ∀ k ∈ [donId, handlerName, faulty],
        below ["don"] k.path = true ∧ below ["don"] k.variablePath = true := by decide
    have hchosen : chosen file env k = none :=
      (chosen_eq_none_iff hvalid).2 ⟨hnofile k (hbelow k hk).1, hnoenv k (hbelow k hk).2⟩
    rw [Follows, Keeps, hchosen]
    simp
  · rw [hfound]
    exact exists_network_object hvalid hentries hfound

/-- a log level is there whatever the sources give -/
theorem exists_level (members : Option (List Member)) (hfile : Leaves file) (hentries : AreVariables env entries) :
    ∃ v, at? level.path (stack file members entries) = some v := by
  rw [at?_stack_gateway hfile hentries rfl]
  cases env level with
  | some t => exact ⟨_, rfl⟩
  | none => cases file level <;> exact ⟨_, rfl⟩

theorem exists_logging (members : Option (List Member)) (hvalid : Valid file env)
    (hentries : AreVariables env entries) :
    ∃ l, orElse Logging.standard logging? (at? ["logging"] (stack file members entries)) = some l ∧
      ∀ n, ∀ k ∈ [level, format], Follows file env ⟨l, n⟩ k := by
  obtain ⟨text, htext, htextfollows⟩ :=
    exists_orElse_gateway (k := level) hvalid hentries rfl readBy_text (σ := Logging.standard.level) rfl
  obtain ⟨form, hform, hformfollows⟩ :=
    exists_orElse_gateway (k := format) hvalid hentries rfl readBy_format (σ := Logging.standard.format) rfl
  obtain ⟨found, hfound⟩ : ∃ found, at? ["logging"] (stack file members entries) = some (.object found) := by
    obtain ⟨v, hv⟩ := exists_level members hvalid.leaves hentries
    exact exists_object_of_at? hv
  have hget : ∀ name, SortedMap.get? name found = at? ["logging", name] (stack file members entries) :=
    get?_of_at? hfound
  refine ⟨⟨text, form⟩, ?_, ?_⟩
  · rw [hfound]
    refine logging?_object.2 ⟨?_, ?_⟩
    · rw [hget]
      exact htext
    · rw [hget]
      exact hform
  · intro n k hk
    rcases List.mem_pair.1 hk with rfl | rfl
    · exact (forall₂_congr fun x _ => Option.some_inj).trans htextfollows
    · exact (forall₂_congr fun x _ => Option.some_inj).trans hformfollows

/-- **What is loaded**: something in any case, with the document of the handler as it comes out of the sources, and what
is asked for in each setting of the gateway itself for which that is kept -/
theorem exists_settings (members : Option (List Member)) (hvalid : Valid file env)
    (hentries : AreVariables env entries) :
    ∃ s, settings? (stack file members entries) = some s ∧
      orElse .null (some ∘ document) (at? handlerPath (stack file members entries)) = some s.network.handler ∧
      ∀ k : Setting, k.handlerKey = none → Follows file env s k := by
  obtain ⟨l, hl, hlogging⟩ := exists_logging members hvalid hentries
  obtain ⟨n, hn, hhandler, hnetwork⟩ := exists_network members hvalid hentries
  obtain ⟨found, hfound⟩ : ∃ found, stack file members entries = .object found := by
    obtain ⟨v, hv⟩ := exists_level members hvalid.leaves hentries
    obtain ⟨found, hfound⟩ := exists_object_of_at? (p := []) hv
    exact ⟨found, Option.some.inj hfound⟩
  refine ⟨⟨l, n⟩, ?_, hhandler, ?_⟩
  · rw [hfound] at hl hn ⊢
    rw [at?_singleton] at hl hn
    exact settings?_object.2 ⟨hl, hn⟩
  · intro k hk
    have hgateway : ∀ k ∈ all, k.handlerKey = none → k ∈ [level, format] ∨ k ∈ [donId, handlerName, faulty] := by
      decide
    exact (hgateway k (mem_all k) hk).elim (hlogging n k) (hnetwork l k)

/-! ## The handler -/

theorem handler_none {v : Values} (h : ∀ k : Setting, k.handlerKey ≠ none → v k = none) :
    v.handler = some HandlerSettings.standard := by
  have hlacks : ∀ c, v.lacks c = true := fun c => lacks_iff.2 fun k hk => h k (by rw [hk]; nofun)
  have h1 : v .maxPendingPerUser = none := h _ (by decide)
  have h2 : v .maxPendingGlobal = none := h _ (by decide)
  have h3 : v .requestTimeoutMillis = none := h _ (by decide)
  rw [Values.handler, Values.allowlist, Values.rateLimiter, if_pos (hlacks _), if_pos (hlacks _), h1, h2, h3]
  rfl

/-- **When the settings of the handler are what is asked for** -/
theorem parse_iff (hvalid : Valid file env) (hentries : AreVariables env entries) {raw : Json}
    (hraw : orElse .null (some ∘ document) (at? handlerPath (stack file members entries)) = some raw)
    {h : HandlerSettings} (hh : Values.handler (chosen file env) = some h) (hproblems : h.problems = []) :
    HandlerSettings.parse raw = .ok h ↔
      (∀ c, ¬Clash file env c) ∧ ∀ k : Setting, k.handlerKey ≠ none → Arrives file env k := by
  rw [HandlerSettings.parse_eq_ok_iff, and_iff_left hproblems]
  obtain ⟨hne, hpath, hvariable, hmembers⟩ := sections_places (q := handlerPath) (by decide)
  rcases section_cases members hvalid.leaves hentries hne hpath hvariable hmembers rfl with
    ⟨hnone, hnofile, hnoenv, -⟩ | ⟨kept, hkept, -⟩
  · have hbelow : ∀ k ∈ all, k.handlerKey ≠ none →
        below handlerPath k.path = true ∧ below handlerPath k.variablePath = true := by
      decide
    have hnothing : ∀ k : Setting, k.handlerKey ≠ none → file k = none ∧ env k = none := fun k hk =>
      ⟨hnofile k (hbelow k (mem_all k) hk).1, hnoenv k (hbelow k (mem_all k) hk).2⟩
    have hchosen : ∀ k : Setting, k.handlerKey ≠ none → chosen file env k = none := fun k hk =>
      (chosen_eq_none_iff hvalid).2 (hnothing k hk)
    rw [hnone] at hraw
    cases hraw
    rw [handler_none hchosen] at hh
    cases hh
    refine iff_of_true rfl ⟨?_, fun k hk x hx => ?_⟩
    · rintro c ⟨⟨k, hk, hgiven⟩, -⟩
      exact hgiven (hnothing k (by rw [hk]; nofun)).1
    · rw [hchosen k hk] at hx
      cases hx
  · obtain ⟨found, hfound, hdoc⟩ := exists_handlerDocument hvalid.leaves hentries hkept
    rw [hkept] at hraw
    cases hraw
    rw [hfound]
    exact hdoc.decode_iff hvalid hentries hh

/-! ## Precedence -/

/-- **What is loaded** from sources that give certain settings: loading succeeds, each setting of the gateway itself is
what is asked for exactly if that is kept, and the settings of the handler are what is asked for exactly if no name is
given by both sources and every value gets through -/
theorem exists_loaded {s : Surroundings} {path : Option String} (h : Sources s path file members env) :
    ∃ settings, Settings.loadUnchecked s path = .ok settings ∧
      (∀ k : Setting, k.handlerKey = none → Follows file env settings k) ∧
      ∀ handler, Values.handler (chosen file env) = some handler → handler.problems = [] →
        (HandlerSettings.parse settings.network.handler = .ok handler ↔
          (∀ c, ¬Clash file env c) ∧ ∀ k : Setting, k.handlerKey ≠ none → Arrives file env k) := by
  obtain ⟨entries, hentries, hmerged⟩ := h.exists_merged
  obtain ⟨settings, hsettings, hraw, hfollows⟩ := exists_settings members h.valid hentries
  refine ⟨settings, ?_, hfollows, fun handler => parse_iff h.valid hentries hraw⟩
  rw [Settings.loadUnchecked, hmerged, Option.bind_some, hsettings]

/-- whether loading gives certain values: it succeeds, each setting of the gateway itself is the value for it, and the
settings of the handler that the values come to are accepted unless a check objects to them -/
def Loads (s : Surroundings) (path : Option String) (v : Values) : Prop :=
  ∃ settings, Settings.loadUnchecked s path = .ok settings ∧
    (∀ k : Setting, k.handlerKey = none → ∀ x, v k = some x → ofSettings settings k = some x) ∧
    ∀ handler, v.handler = some handler → handler.problems = [] →
      HandlerSettings.parse settings.network.handler = .ok handler

/-- what the sources have to keep to for the environment to override the file -/
structure Compatible (file : Setting → Option Json) (env : Setting → Option String) : Prop where
  gateway : ∀ k : Setting, k.handlerKey = none → Keeps file env k
  handler : ∀ handler, Values.handler (chosen file env) = some handler → handler.problems = [] →
    (∀ c, ¬Clash file env c) ∧ ∀ k : Setting, k.handlerKey ≠ none → Arrives file env k

/-- **When the environment overrides the file**: of whatever settings the two give, loading gives the environment's
value if there is one and the file's otherwise, exactly if the sources are compatible -/
theorem overrides_iff {s : Surroundings} {path : Option String} (h : Sources s path file members env) :
    Loads s path (chosen file env) ↔ Compatible file env := by
  obtain ⟨settings, hload, hgateway, hhandler⟩ := exists_loaded h
  constructor
  · rintro ⟨settings', hload', hgiven, haccepted⟩
    rw [hload] at hload'
    cases hload'
    exact ⟨fun k hk => (hgateway k hk).1 (hgiven k hk),
      fun handler hh hproblems => (hhandler handler hh hproblems).1 (haccepted handler hh hproblems)⟩
  · rintro ⟨hkeeps, hseparate⟩
    exact ⟨settings, hload, fun k hk => (hgateway k hk).2 (hkeeps k hk),
      fun handler hh hproblems => (hhandler handler hh hproblems).2 (hseparate handler hh hproblems)⟩

/-- **The environment overrides no setting of the handler**: where the settings of the handler are valid, compatible
sources do not both give one of them -/
theorem Compatible.not_overridden (h : Compatible file env) {handler : HandlerSettings}
    (hh : Values.handler (chosen file env) = some handler) (hproblems : handler.problems = [])
    (hk : k.handlerKey ≠ none) (hfile : file k ≠ none) : env k = none := by
  obtain ⟨c, hc⟩ := Option.ne_none_iff_exists'.1 hk
  by_contra henv
  exact (h.handler handler hh hproblems).1 c ⟨⟨k, hc, hfile⟩, k, hc, henv⟩

/-! ### A file and one variable -/

/-- a file that names the network and sets the time a request waits -/
def waitingFile : Setting → Option Json
  | donId => some (.string "file_don")
  | requestTimeoutMillis => some (.nat 2500)
  | _ => none

def waitingText : String :=
  "\x7b\"don\": \x7b\"don_id\": \"file_don\", \"members\": [\x7b\"name\": \"n\", \"address\": \"0x01\"\x7d], " ++
    "\"handler_config\": \x7b\"requestTimeoutMillis\": 2500\x7d\x7d\x7d"

theorem ofText_waitingText : Json.ofText waitingText = .ok (fileDocument waitingFile (some [⟨"n", "0x01"⟩])) := by
  cbv

/-- the file beside one variable -/
def waiting (name text : String) : Surroundings := ⟨[("config/don-gateway.json", waitingText)], [(name, text)]⟩

/-- the one setting that a variable gives -/
def only (k : Setting) (text : String) : Setting → Option String := fun k' => if k' = k then some text else none

theorem sources_waiting {name text : String} (hname : Text.lower name = k.variableName)
    (htext : (k.kind.ofText? text).isSome = true) :
    Sources (waiting name text) none waitingFile (some [⟨"n", "0x01"⟩]) (only k text) where
  text := ⟨waitingText, ofText_waitingText, .inl ⟨rfl, by cbv⟩⟩
  marked name' t hmem _ := by
    have henv : (waiting name text).withEnvFile.environment = [(name, text)] := rfl
    rw [henv, List.mem_singleton] at hmem
    cases hmem
    exact ⟨k, if_pos rfl, hname⟩
  given k' t hk' := by
    unfold only at hk'
    split_ifs at hk' with heq
    cases hk'
    subst heq
    exact ⟨name, List.mem_singleton_self _, hname⟩
  valid := {
    file := by
      intro k j hj
      cases k <;> cases hj <;> rfl
    env := by
      intro k' t hk'
      unfold only at hk'
      split_ifs at hk' with heq
      cases hk'
      subst heq
      exact htext }

/-- the environment names the network anew, and the file's time to wait stays -/
theorem overrides_donId :
    Sources (waiting "DON_GATEWAY__DON__DON_ID" "env_don") none waitingFile (some [⟨"n", "0x01"⟩])
        (only donId "env_don") ∧
      Loads (waiting "DON_GATEWAY__DON__DON_ID" "env_don") none (chosen waitingFile (only donId "env_don")) := by
  have hsources : Sources (waiting "DON_GATEWAY__DON__DON_ID" "env_don") none waitingFile (some [⟨"n", "0x01"⟩])
      (only donId "env_don") := sources_waiting (by decide +kernel) rfl
  refine ⟨hsources, (overrides_iff hsources).2 ⟨?_, ?_⟩⟩
  · intro k hk x hx
    cases k
    case donId =>
      cases hx
      show text? (variableValue "env_don") = some "env_don"
      decide +kernel
    all_goals first | exact absurd hk (by decide) | cases hx
  · intro handler hh hproblems
    refine ⟨?_, fun k hk x hx => ?_⟩
    · rintro c ⟨-, k, hk, hgiven⟩
      cases k
      case donId => exact nomatch hk
      all_goals exact hgiven rfl
    · cases k
      case requestTimeoutMillis =>
        cases hx
        show 2500 < 2 ^ 63
        decide
      all_goals first | exact absurd rfl hk | exact nomatch hx

/-- the environment does not set the time a request waits anew: both values stand side by side, and are refused as one
setting that is given twice -/
theorem requestTimeout_not_overridden :
    Sources (waiting "DON_GATEWAY__DON__HANDLER_CONFIG__REQUESTTIMEOUTMILLIS" "1500") none waitingFile
        (some [⟨"n", "0x01"⟩]) (only requestTimeoutMillis "1500") ∧
      Values.handler (chosen waitingFile (only requestTimeoutMillis "1500")) = some ⟨none, none, 0, 0, 1500⟩ ∧
      HandlerSettings.problems ⟨none, none, 0, 0, 1500⟩ = [] ∧
      ¬Loads (waiting "DON_GATEWAY__DON__HANDLER_CONFIG__REQUESTTIMEOUTMILLIS" "1500") none
        (chosen waitingFile (only requestTimeoutMillis "1500")) := by
  refine ⟨sources_waiting (by decide +kernel) (by decide +kernel), rfl, rfl, ?_⟩
  rintro ⟨settings, hload, -, haccepted⟩
  have hrefused : ((Settings.loadUnchecked (waiting "DON_GATEWAY__DON__HANDLER_CONFIG__REQUESTTIMEOUTMILLIS" "1500")
      none).toOption.map fun settings => (HandlerSettings.parse settings.network.handler).isOk) = some false := by
    decide +kernel
  have hparse : HandlerSettings.parse settings.network.handler = .ok ⟨none, none, 0, 0, 1500⟩ :=
    haccepted _ rfl rfl
  rw [hload] at hrefused
  simp [Except.toOption, hparse, Except.isOk, Except.toBool] at hrefused

end QuorumGateway.Setting
