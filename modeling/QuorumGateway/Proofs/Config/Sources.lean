import QuorumGateway.Config.Load
import QuorumGateway.Proofs.Config.Setting
/-!
What is left of the settings when the sources are laid over one another: the values that are there without any source,
then those of a file, then those of the environment.

- `at?_stack_gateway`: the value of a setting of the gateway itself is the environment's if there is one, and the file's
  otherwise.
- `at?_stack_handler`: a setting of the handler keeps the values of both sources side by side.
- `Sources.exists_merged`: a file and variables that give certain settings come to such a stack.
-/

namespace QuorumGateway

open Decimal Decode Layers

namespace Setting

/-! ## The file -/

/-- a member as an object, its fields in order -/
def memberDocument (m : Member) : Json := .object [("address", .string m.address), ("name", .string m.name)]

def fileEntries (file : Setting → Option Json) (members : Option (List Member)) : List (List String × Json) :=
  all.filterMap (fun k => (file k).map fun j => (k.path, j)) ++
    (members.map fun ms => (membersPath, .array (ms.map memberDocument))).toList

/-- the document that gives certain settings in their places, and the members if there are any -/
def fileDocument (file : Setting → Option Json) (members : Option (List Member)) : Json :=
  plants (fileEntries file members) (.object [])

variable {file : Setting → Option Json} {members : Option (List Member)} {env : Setting → Option String}
  {entries : List (List String × Json)} {k : Setting} {p : List String} {j : Json} {t : String}

theorem mem_fileEntries {e : List String × Json} :
    e ∈ fileEntries file members ↔
      (∃ k j, file k = some j ∧ e = (k.path, j)) ∨
        ∃ ms, members = some ms ∧ e = (membersPath, .array (ms.map memberDocument)) := by
  simp only [fileEntries, List.mem_append, List.mem_filterMap, Option.map_eq_some_iff, Option.mem_toList]
  constructor
  · rintro (⟨k, -, j, hj, rfl⟩ | ⟨ms, hms, rfl⟩)
    · exact .inl ⟨k, j, hj, rfl⟩
    · exact .inr ⟨ms, hms, rfl⟩
  · rintro (⟨k, j, hj, rfl⟩ | ⟨ms, hms, rfl⟩)
    · exact .inl ⟨k, mem_all k, j, hj, rfl⟩
    · exact .inr ⟨ms, hms, rfl⟩

/-- no setting is given as an object -/
def Leaves (file : Setting → Option Json) : Prop := ∀ k j, file k = some j → isLeaf j = true

theorem isLeaf_of_mem_fileEntries (hfile : Leaves file) : ∀ e ∈ fileEntries file members, isLeaf e.2 = true := by
  intro e he
  rcases mem_fileEntries.1 he with ⟨k, j, hj, rfl⟩ | ⟨ms, -, rfl⟩
  · exact hfile k j hj
  · rfl

theorem at?_fileDocument (hfile : Leaves file) (hj : file k = some j) :
    at? k.path (fileDocument file members) = some j := by
  refine at?_plants_of_mem (isLeaf_of_mem_fileEntries hfile) (fun e he => ?_) (mem_fileEntries.2 (.inl ⟨k, j, hj, rfl⟩))
  rcases mem_fileEntries.1 he with ⟨k', j', hj', rfl⟩ | ⟨ms, -, rfl⟩
  · rcases apart_path k' k with rfl | hapart
    · rw [hj] at hj'
      cases hj'
      exact .inl rfl
    · exact .inr hapart
  · exact .inr (apart_members k).2.1

theorem at?_fileDocument_members (hfile : Leaves file) {ms : List Member} (hms : members = some ms) :
    at? membersPath (fileDocument file members) = some (.array (ms.map memberDocument)) := by
  refine at?_plants_of_mem (isLeaf_of_mem_fileEntries hfile) (fun e he => ?_) (mem_fileEntries.2 (.inr ⟨ms, hms, rfl⟩))
  rcases mem_fileEntries.1 he with ⟨k, j, -, rfl⟩ | ⟨ms', hms', rfl⟩
  · exact .inr (apart_members k).1
  · rw [hms] at hms'
    cases hms'
    exact .inl rfl

theorem open_fileDocument (hfile : Leaves file) (hp : p ≠ []) (h : ∀ k, file k ≠ none → apart k.path p = true)
    (hmembers : members ≠ none → apart membersPath p = true) : Open p (fileDocument file members) := by
  refine open_plants (isLeaf_of_mem_fileEntries hfile) hp fun e he => ?_
  rcases mem_fileEntries.1 he with ⟨k, j, hj, rfl⟩ | ⟨ms, hms, rfl⟩
  · exact h k (by rw [hj]; nofun)
  · exact hmembers (by rw [hms]; nofun)

theorem exists_fileDocument (members : Option (List Member)) (hfile : Leaves file) :
    ∃ ms, fileDocument file members = .object ms := by
  have hnames : ∀ e ∈ fileEntries file members, e.1 ≠ [] := by
    intro e he
    rcases mem_fileEntries.1 he with ⟨k, j, -, rfl⟩ | ⟨ms, -, rfl⟩
    · exact path_ne_nil k
    · exact List.cons_ne_nil _ _
  exact exists_plants (isLeaf_of_mem_fileEntries hfile) hnames

/-! ## All sources -/

/-- what holds if nothing else is said -/
def base : Json := .object [("logging", .object [("format", .string "pretty"), ("level", .string "info")])]

def baseEntries : List (List String × Json) := [(level.path, .string "info"), (format.path, .string "pretty")]

theorem plants_baseEntries : plants baseEntries (.object []) = base := rfl

theorem lay_standard : lay (.object []) standard = base := by
  have hpaths : Layers.path "logging.level" = level.path.map .name ∧
      Layers.path "logging.format" = format.path.map .name := by
    decide +kernel
  refine (lay_paths (fun key => if key = "logging.level" then level.path else format.path) ?_).trans plants_baseEntries
  simp only [standard, List.forall_mem_cons]
  exact ⟨hpaths.1, hpaths.2, nofun⟩

/-- the values of variables over those of a file, and these over what holds if nothing is said -/
def stack (file : Setting → Option Json) (members : Option (List Member)) (entries : List (List String × Json)) :
    Json :=
  plants entries (overlayMembers base (membersOf (fileValue (fileDocument file members))))

/-- the values of the variables that give certain settings, in their places -/
def AreVariables (env : Setting → Option String) (entries : List (List String × Json)) : Prop :=
  ∀ e, e ∈ entries ↔ ∃ k t, env k = some t ∧ e = (k.variablePath, variableValue t)

theorem AreVariables.isLeaf (hentries : AreVariables env entries) : ∀ e ∈ entries, isLeaf e.2 = true := by
  intro e he
  obtain ⟨k, t, -, rfl⟩ := (hentries e).1 he
  exact isLeaf_variableValue t

theorem AreVariables.apart (hentries : AreVariables env entries)
    (h : ∀ k, env k ≠ none → apart k.variablePath p = true) : ∀ e ∈ entries, Layers.apart e.1 p = true := by
  intro e he
  obtain ⟨k, t, ht, rfl⟩ := (hentries e).1 he
  exact h k (by rw [ht]; nofun)

/-- the document of the file as a source: an object in order, with every value as a source keeps it -/
theorem exists_source (file : Setting → Option Json) (members : Option (List Member)) (hfile : Leaves file) :
    ∃ upper, membersOf (fileValue (fileDocument file members)) = upper ∧ Ordered (.object upper) ∧
      (∀ p, at? p (.object upper) = (at? p (fileDocument file members)).map fileValue) ∧
        ∀ p, Open p (fileDocument file members) → Open p (.object upper) := by
  have hordered : Ordered (fileValue (fileDocument file members)) :=
    memberwise_fileValue.ordered (ordered_plants (isLeaf_of_mem_fileEntries hfile) ordered_empty)
  obtain ⟨found, hfound⟩ := exists_fileDocument members hfile
  have hvalue : fileValue (fileDocument file members) =
      .object (membersOf (fileValue (fileDocument file members))) := by
    rw [hfound, memberwise_fileValue.object]
    rfl
  refine ⟨_, rfl, ?_, fun p => ?_, fun p hp => ?_⟩ <;> rw [← hvalue]
  · exact hordered
  · exact memberwise_fileValue.at? p _
  · exact memberwise_fileValue.opened hp

theorem ordered_stack (members : Option (List Member)) (hfile : Leaves file) (hentries : AreVariables env entries) :
    Ordered (stack file members entries) := by
  refine ordered_plants hentries.isLeaf (ordered_overlayMembers ?_ ?_)
  · rw [← plants_baseEntries]
    exact ordered_plants (by decide) ordered_empty
  · obtain ⟨upper, rfl, hordered, -⟩ := exists_source file members hfile
    exact hordered

theorem at?_stack_variable (hentries : AreVariables env entries) (ht : env k = some t) :
    at? k.variablePath (stack file members entries) = some (variableValue t) := by
  refine at?_plants_of_mem hentries.isLeaf (fun e he => ?_) ((hentries _).2 ⟨k, t, ht, rfl⟩)
  obtain ⟨k', t', ht', rfl⟩ := (hentries e).1 he
  rcases apart_variablePath k' k with rfl | hapart
  · rw [ht] at ht'
    cases ht'
    exact .inl rfl
  · exact .inr hapart

/-- what a file gives for a setting shows unless a variable gives the same place -/
theorem at?_stack_file (hfile : Leaves file) (hentries : AreVariables env entries) (hj : file k = some j)
    (h : ∀ k', env k' ≠ none → apart k'.variablePath k.path = true) :
    at? k.path (stack file members entries) = some (fileValue j) := by
  rw [stack, at?_plants_apart hentries.isLeaf (hentries.apart h)]
  obtain ⟨upper, rfl, hordered, hat, -⟩ := exists_source file members hfile
  refine at?_overlayMembers_leaf hordered (memberwise_fileValue.leaf j (hfile k j hj)) ?_
  rw [hat, at?_fileDocument hfile hj]
  rfl

theorem at?_stack_members (hfile : Leaves file) (hentries : AreVariables env entries) {ms : List Member}
    (hms : members = some ms) :
    at? membersPath (stack file members entries) = some (fileValue (.array (ms.map memberDocument))) := by
  rw [stack, at?_plants_apart hentries.isLeaf (hentries.apart fun k _ => (apart_members k).2.2.1)]
  obtain ⟨upper, rfl, hordered, hat, -⟩ := exists_source file members hfile
  refine at?_overlayMembers_leaf hordered rfl ?_
  rw [hat, at?_fileDocument_members hfile hms]
  rfl

/-- where neither a variable nor the file gives anything, nothing else holds than without them -/
theorem at?_stack_open (hfile : Leaves file) (hentries : AreVariables env entries) (hp : p ≠ [])
    (henv : ∀ k, env k ≠ none → apart k.variablePath p = true) (h : ∀ k, file k ≠ none → apart k.path p = true)
    (hmembers : members ≠ none → apart membersPath p = true) :
    at? p (stack file members entries) = at? p base := by
  rw [stack, at?_plants_apart hentries.isLeaf (hentries.apart henv)]
  obtain ⟨upper, rfl, hordered, -, hopen⟩ := exists_source file members hfile
  exact at?_overlayMembers_open hordered (hopen p (open_fileDocument hfile hp h hmembers))

/-- **A setting of the gateway itself** has the environment's value, or else the file's -/
theorem at?_stack_gateway (hfile : Leaves file) (hentries : AreVariables env entries) (hk : k.handlerKey = none) :
    at? k.path (stack file members entries) =
      (((env k).map variableValue).or ((file k).map fileValue)).or (at? k.path base) := by
  cases ht : env k with
  | some t =>
    rw [← variablePath_gateway hk, at?_stack_variable hentries ht]
    rfl
  | none =>
    have hothers : ∀ k', env k' ≠ none → apart k'.variablePath k.path = true := by
      intro k' hk'
      rcases apart_variablePath k' k with rfl | hapart
      · exact absurd ht hk'
      · rwa [variablePath_gateway hk] at hapart
    cases hj : file k with
    | some j => exact at?_stack_file hfile hentries hj hothers
    | none =>
      refine at?_stack_open hfile hentries (path_ne_nil k) hothers (fun k' hk' => ?_) fun _ => (apart_members k).2.1
      rcases apart_path k' k with rfl | hapart
      · exact absurd hj hk'
      · exact hapart

/-- **A setting of the handler** keeps the file's value under its name and the environment's under the name in small
letters -/
theorem at?_stack_handler (members : Option (List Member)) (hfile : Leaves file)
    (hentries : AreVariables env entries) (hk : k.handlerKey ≠ none) :
    at? k.path (stack file members entries) = (file k).map fileValue ∧
      at? k.variablePath (stack file members entries) = (env k).map variableValue := by
  have hbase : at? k.path base = none ∧ at? k.variablePath base = none := by
    have hall : ∀ k ∈ all, k.handlerKey ≠ none → k.path.head? = some "don" ∧ k.variablePath.head? = some "don" := by
      decide +kernel
    have hnone : ∀ q : List String, q.head? = some "don" → at? q base = none := by
      rintro (_ | ⟨first, rest⟩) hq
      · cases hq
      · cases hq
        rfl
    exact ⟨hnone _ (hall k (mem_all k) hk).1, hnone _ (hall k (mem_all k) hk).2⟩
  constructor
  · cases hj : file k with
    | some j => exact at?_stack_file hfile hentries hj fun k' _ => (apart_cross hk k').2
    | none =>
      refine (at?_stack_open hfile hentries (path_ne_nil k) (fun k' _ => (apart_cross hk k').2) (fun k' hk' => ?_)
        fun _ => (apart_members k).2.1).trans hbase.1
      rcases apart_path k' k with rfl | hapart
      · exact absurd hj hk'
      · exact hapart
  · cases ht : env k with
    | some t => exact at?_stack_variable hentries ht
    | none =>
      refine (at?_stack_open hfile hentries ?_ (fun k' hk' => ?_) (fun k' _ => (apart_cross hk k').1)
        fun _ => (apart_members k).2.2.2).trans hbase.2
      · exact mt List.map_eq_nil_iff.1 (path_ne_nil k)
      · rcases apart_variablePath k' k with rfl | hapart
        · exact absurd ht hk'
        · exact hapart

/-! ## Loading -/

/-- everything that is given is a value of its kind -/
structure Valid (file : Setting → Option Json) (env : Setting → Option String) : Prop where
  file : ∀ k j, file k = some j → (k.kind.ofJson? j).isSome = true
  env : ∀ k t, env k = some t → (k.kind.ofText? t).isSome = true

theorem Valid.leaves (h : Valid file env) : Leaves file := fun k j hj => Kind.isLeaf_of_isSome (h.file k j hj)

/-- the surroundings give certain settings: the text of the file that was asked for, or of the one that is looked for
where none is, spells the document with those of `file` and the members, and the variables with the mark of the gateway
are those of `env` -/
structure Sources (s : Surroundings) (path : Option String) (file : Setting → Option Json)
    (members : Option (List Member)) (env : Setting → Option String) : Prop where
  text : ∃ text, Json.ofText text = .ok (fileDocument file members) ∧
    ((path = none ∧ Settings.find s "config/don-gateway" = .text text) ∨
      ∃ name, path = some name ∧ Settings.find s "config/don-gateway" = .absent ∧ Settings.find s name = .text text)
  marked : ∀ name t, (name, t) ∈ s.withEnvFile.environment → mark <+: (Text.lower name).toList →
    ∃ k, env k = some t ∧ Text.lower name = k.variableName
  given : ∀ k t, env k = some t → ∃ name, (name, t) ∈ s.withEnvFile.environment ∧ Text.lower name = k.variableName
  valid : Valid file env

namespace Sources

variable {s : Surroundings} {path : Option String}

theorem find_withEnvFile (s : Surroundings) (name : String) :
    Settings.find s.withEnvFile name = Settings.find s name := by
  have hfiles : s.withEnvFile.files = s.files := by
    unfold Surroundings.withEnvFile
    split <;> rfl
  simp only [Settings.find, Surroundings.file?, hfiles]

/-- a text that is read as a document starts with no byte order mark -/
theorem ofFile_of_ofText {text : String} {found : List (String × Json)} (h : Json.ofText text = .ok (.object found)) :
    ofFile text = some (fileMembers found) := by
  have hchars : Decode.ofChars Decode.json text.toList = .ok (.object found) := h
  unfold ofFile
  split
  · next rest heq =>
    rw [heq] at hchars
    cases hchars
  · simp only [hchars]

/-- the names on the path of a key -/
def keyNames (key : String) : List String := (Layers.path key).filterMap fun
  | .name s => some s
  | .index _ => none

theorem keyNames_key (k : Setting) : keyNames (String.ofList k.variableKeyChars) = k.variablePath := by
  have hnames : ∀ names : List String, (names.map Step.name).filterMap (fun
      | .name s => some s
      | .index _ => none) = names := by
    intro names
    induction names with
    | nil => rfl
    | cons n names ih => simp [ih]
  rw [keyNames, path_key, hnames]

/-- the source that the variables are holds only what they give -/
theorem exists_of_mem_ofVariables (h : Sources s path file members env) {e : String × Json}
    (he : e ∈ ofVariables s.withEnvFile.environment) :
    ∃ k t, env k = some t ∧ e = (String.ofList k.variableKeyChars, variableValue t) := by
  obtain ⟨⟨name, t⟩, hmem, he⟩ := List.mem_filterMap.1 (SortedMap.mem_of_mem_ofPairs he)
  obtain ⟨key, hkey, rfl⟩ := Option.map_eq_some_iff.1 he
  have hmark : mark <+: (Text.lower name).toList := by
    by_contra hno
    rw [← List.isPrefixOf_iff_prefix] at hno
    simp [variableKey, hno] at hkey
  obtain ⟨k, ht, hname⟩ := h.marked name t hmem hmark
  rw [variableKey_eq hname] at hkey
  cases hkey
  exact ⟨k, t, ht, rfl⟩

theorem mem_ofVariables (h : Sources s path file members env) (ht : env k = some t) :
    (String.ofList k.variableKeyChars, variableValue t) ∈ ofVariables s.withEnvFile.environment := by
  obtain ⟨name, hmem, hname⟩ := h.given k t ht
  obtain ⟨v, hv⟩ : ∃ v, SortedMap.get? (String.ofList k.variableKeyChars)
      (ofVariables s.withEnvFile.environment) = some v := by
    refine SortedMap.exists_get?_ofPairs (v := variableValue t) (List.mem_filterMap.2 ⟨(name, t), hmem, ?_⟩)
    simp [variableKey_eq hname]
  -- every variable with the key of a setting has its text, so the last one has
  obtain ⟨k', t', ht', heq⟩ := h.exists_of_mem_ofVariables (SortedMap.mem_of_get? hv)
  obtain ⟨hkey, rfl⟩ := Prod.mk.inj heq
  have hpath : k.variablePath = k'.variablePath := by rw [← keyNames_key, ← keyNames_key, hkey]
  obtain rfl : k = k' := (apart_variablePath k k').resolve_right (by rw [hpath, apart_self]; decide)
  rw [ht] at ht'
  cases ht'
  exact SortedMap.mem_of_get? hv

theorem exists_variables (h : Sources s path file members env) :
    ∃ entries, AreVariables env entries ∧
      ∀ base, lay base (ofVariables s.withEnvFile.environment) = plants entries base := by
  have hnames : ∀ e ∈ ofVariables s.withEnvFile.environment, Layers.path e.1 = (keyNames e.1).map .name := by
    intro e he
    obtain ⟨k, t, -, rfl⟩ := h.exists_of_mem_ofVariables he
    dsimp only
    rw [path_key, keyNames_key]
  refine ⟨_, fun e => ?_, fun base => lay_paths keyNames hnames⟩
  rw [List.mem_map]
  constructor
  · rintro ⟨e', he', rfl⟩
    obtain ⟨k, t, ht, rfl⟩ := h.exists_of_mem_ofVariables he'
    exact ⟨k, t, ht, by rw [keyNames_key]⟩
  · rintro ⟨k, t, ht, rfl⟩
    exact ⟨_, h.mem_ofVariables ht, by rw [keyNames_key]⟩

/-- the file is laid over what holds if nothing is said -/
theorem lay_file (hfile : Leaves file) {found : List (String × Json)}
    (hfound : fileDocument file members = .object found) :
    lay base (fileMembers found) = overlayMembers base (membersOf (fileValue (fileDocument file members))) := by
  have hnames : ∀ e ∈ fileMembers found, Layers.path e.1 = [.name e.1] := by
    have hkey : ∀ name ∈ ["don", "logging"], Layers.path name = [.name name] := by decide +kernel
    intro e he
    refine hkey e.1 ?_
    rw [fileMembers_eq] at he
    obtain ⟨e', he', rfl⟩ := List.mem_map.1 he
    by_contra hno
    have hdon : "don" ≠ e'.1 := fun heq => hno (by simp [← heq])
    have hlogging : "logging" ≠ e'.1 := fun heq => hno (by simp [← heq])
    -- no setting stands under another name
    have hopen : Open [e'.1] (fileDocument file members) := by
      refine open_fileDocument hfile (List.cons_ne_nil _ _) (fun k _ => ?_) fun _ => ?_
      · have hfirst : ∀ k ∈ all, ∃ rest, k.path = "don" :: rest ∨ k.path = "logging" :: rest := by
          intro k _
          cases k <;> exact ⟨_, by first | exact .inl rfl | exact .inr rfl⟩
        obtain ⟨rest, hpath⟩ := hfirst k (mem_all k)
        rcases hpath with hpath | hpath <;> rw [hpath] <;> simp [apart, hdon, hlogging]
      · simp [apart, membersPath, hdon]
    have hmem : (e'.1, e'.2) ∈ found := he'
    have hordered : Ordered (fileDocument file members) :=
      ordered_plants (isLeaf_of_mem_fileEntries hfile) ordered_empty
    rw [hfound] at hopen hordered
    have hget := (SortedMap.get?_eq_some_iff hordered.names).2 hmem
    have hnone := hopen.1
    rw [at?_cons, membersOf_object, hget] at hnone
    cases hnone
  rw [lay_names hnames, hfound, memberwise_fileValue.object, membersOf_object, fileMembers_eq]

/-- **What the sources come to**: the values of the variables over those of the file -/
theorem exists_merged (h : Sources s path file members env) :
    ∃ entries, AreVariables env entries ∧ Settings.merged s.withEnvFile path = some (stack file members entries) := by
  obtain ⟨entries, hentries, hlay⟩ := h.exists_variables
  obtain ⟨found, hfound⟩ := exists_fileDocument members h.valid.leaves
  obtain ⟨text, htext, hplace⟩ := h.text
  rw [hfound] at htext
  have hsource := ofFile_of_ofText htext
  have hfile := lay_file h.valid.leaves hfound
  refine ⟨entries, hentries, ?_⟩
  rcases hplace with ⟨rfl, hfind⟩ | ⟨name, rfl, hshared, hfind⟩
  · simp only [Settings.merged, Settings.optionalSource, find_withEnvFile, hfind, hsource, Option.bind_eq_bind,
      Option.bind_some, List.foldl_cons, List.foldl_nil, lay_standard, hfile, hlay]
    rfl
  · simp only [Settings.merged, Settings.optionalSource, Settings.requiredSource, find_withEnvFile, hshared, hfind,
      hsource, Option.bind_eq_bind, Option.bind_some, List.foldl_cons, List.foldl_nil, lay_standard, hlay]
    have hnothing : lay base [] = base := rfl
    rw [hnothing, hfile]
    rfl

end Sources

end Setting

end QuorumGateway
