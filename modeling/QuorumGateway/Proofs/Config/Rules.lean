import Mathlib.Data.Set.Card
import QuorumGateway.Proofs.Config.Membership
import QuorumGateway.Proofs.Text.Trimming
/-!
The rules that settings have to keep, and what the checks report of those that are broken. Each part of the settings has
rules of its own, which are checked in a fixed order, and the rules of a whole are those of its parts, one part after
the other. A rule is said by what breaks it, with the problem that it makes (`Network.Breaks`, `HandlerSettings.Breaks`,
`Settings.Breaks`), without regard to how a check looks for it.

- `Lists`: going through rules in order, each broken one makes one problem and no other does.
- `Lists.append`, `Lists.map`: so the problems of a whole are listed when those of its parts are.
- `every_problem_reported`: hence every check passes exactly when no rule is broken, and otherwise reports the broken
  ones, each once, in order, and none inside a list of its own.
-/

namespace QuorumGateway

namespace Problem

variable {ρ ρ' α : Type}

/-- going through rules in order, the problems that the broken ones make -/
inductive Lists (Breaks : ρ → Problem → Prop) : List ρ → List Problem → Prop
  | nil : Lists Breaks [] []
  | kept {r : ρ} {rules : List ρ} {ps : List Problem} (h : ∀ p, ¬Breaks r p) (rest : Lists Breaks rules ps) :
      Lists Breaks (r :: rules) ps
  | broken {r : ρ} {p : Problem} {rules : List ρ} {ps : List Problem} (h : Breaks r p)
      (rest : Lists Breaks rules ps) : Lists Breaks (r :: rules) (p :: ps)

/-- how a check reports the rules that are broken -/
structure Reports (rules : List ρ) (Breaks : ρ → Problem → Prop) (result : Except Problem α) : Prop where
  /-- no rule is checked twice -/
  nodup : rules.Nodup
  /-- no rule that can be broken is left out -/
  all : ∀ r p, Breaks r p → r ∈ rules
  /-- a broken rule makes one problem -/
  unique : ∀ r p q, Breaks r p → Breaks r q → p = q
  passes : (∃ x, result = .ok x) ↔ ∀ r p, ¬Breaks r p
  /-- the problems are those of the broken rules in order -/
  listed : ∀ p, result = .error p → Lists Breaks rules p.parts
  /-- and as many as there are broken rules -/
  count : ∀ p, result = .error p → p.count = {r | ∃ q, Breaks r q}.ncard
  /-- a problem stands alone, and several are in one list -/
  flat : ∀ p, result = .error p → p.Single ∨ ∃ ps, p = .several ps ∧ 2 ≤ ps.length ∧ ∀ q ∈ ps, q.Single

namespace Lists

variable {Breaks : ρ → Problem → Prop} {Breaks' : ρ' → Problem → Prop} {r : ρ} {p : Problem} {rules rules' : List ρ}
  {ps ps' : List Problem}

theorem ite {c : Prop} [Decidable c] (hbroken : c → Breaks r p) (hkept : ¬c → ∀ q, ¬Breaks r q) :
    Lists Breaks [r] (if c then [p] else []) := by
  split_ifs with hc
  · exact .broken (hbroken hc) .nil
  · exact .kept (hkept hc) .nil

theorem append (h : Lists Breaks rules ps) (h' : Lists Breaks rules' ps') :
    Lists Breaks (rules ++ rules') (ps ++ ps') := by
  induction h with
  | nil => exact h'
  | kept hkept _ ih => exact .kept hkept ih
  | broken hbroken _ ih => exact .broken hbroken ih

theorem flatMap {β : Type} {xs : List β} {f : β → List ρ} {g : β → List Problem}
    (h : ∀ x ∈ xs, Lists Breaks (f x) (g x)) : Lists Breaks (xs.flatMap f) (xs.flatMap g) := by
  induction xs with
  | nil => exact .nil
  | cons x xs ih =>
    obtain ⟨hx, hxs⟩ := List.forall_mem_cons.1 h
    rw [List.flatMap_cons, List.flatMap_cons]
    exact hx.append (ih hxs)

/-- the rules of a part as rules of the whole -/
theorem map {f : ρ → ρ'} (h : Lists Breaks rules ps) (hpart : ∀ r p, Breaks' (f r) p ↔ Breaks r p) :
    Lists Breaks' (rules.map f) ps := by
  induction h with
  | nil => exact .nil
  | kept hkept _ ih => exact .kept (fun p hp => hkept p ((hpart _ p).1 hp)) ih
  | broken hbroken _ ih => exact .broken ((hpart _ _).2 hbroken) ih

theorem of_kept (h : ∀ r ∈ rules, ∀ p, ¬Breaks r p) : Lists Breaks rules [] := by
  induction rules with
  | nil => exact .nil
  | cons r rules ih =>
    obtain ⟨hr, hrules⟩ := List.forall_mem_cons.1 h
    exact .kept hr (ih hrules)

theorem eq_nil_iff (h : Lists Breaks rules ps) : ps = [] ↔ ∀ r ∈ rules, ∀ p, ¬Breaks r p := by
  induction h with
  | nil => simp
  | kept hkept _ ih => rw [ih, List.forall_mem_cons, and_iff_right hkept]
  | broken hbroken _ _ =>
    refine ⟨nofun, fun h => ?_⟩
    exact absurd hbroken (h _ List.mem_cons_self _)

theorem length_eq (h : Lists Breaks rules ps) (hnodup : rules.Nodup) :
    ps.length = {r | r ∈ rules ∧ ∃ q, Breaks r q}.ncard := by
  induction h with
  | nil => simp
  | @kept r rules ps hkept _ ih =>
    have hsame : {r' | r' ∈ r :: rules ∧ ∃ q, Breaks r' q} = {r' | r' ∈ rules ∧ ∃ q, Breaks r' q} := by
      ext r'
      simp only [List.mem_cons, Set.mem_ofPred_eq]
      constructor
      · rintro ⟨rfl | hmem, q, hq⟩
        · exact absurd hq (hkept q)
        · exact ⟨hmem, q, hq⟩
      · rintro ⟨hmem, hq⟩
        exact ⟨.inr hmem, hq⟩
    rw [ih (List.nodup_cons.1 hnodup).2, hsame]
  | @broken r p rules ps hbroken _ ih =>
    obtain ⟨hnew, hrest⟩ := List.nodup_cons.1 hnodup
    have hinsert : {r' | r' ∈ r :: rules ∧ ∃ q, Breaks r' q} = insert r {r' | r' ∈ rules ∧ ∃ q, Breaks r' q} := by
      ext r'
      simp only [List.mem_cons, Set.mem_ofPred_eq, Set.mem_insert_iff]
      constructor
      · rintro ⟨rfl | hmem, hq⟩
        · exact .inl rfl
        · exact .inr ⟨hmem, hq⟩
      · rintro (rfl | ⟨hmem, hq⟩)
        · exact ⟨.inl rfl, p, hbroken⟩
        · exact ⟨.inr hmem, hq⟩
    have hfinite : {r' | r' ∈ rules ∧ ∃ q, Breaks r' q}.Finite :=
      (List.finite_toSet rules).subset fun r' hr' => hr'.1
    rw [hinsert, Set.ncard_insert_of_notMem (fun hmem => hnew hmem.1) hfinite, List.length_cons, ih hrest]

end Lists

theorem flat_of_report {p : Problem} {ps : List Problem} (hsingle : ∀ q ∈ ps, q.Single) (h : report ps = .error p) :
    p.Single ∨ ∃ ps, p = .several ps ∧ 2 ≤ ps.length ∧ ∀ q ∈ ps, q.Single := by
  rcases ps with _ | ⟨q, _ | ⟨q', rest⟩⟩
  · cases h
  · obtain rfl : q = p := Except.error.inj h
    exact .inl (hsingle q List.mem_cons_self)
  · cases h
    refine .inr ⟨_, rfl, ?_, hsingle⟩
    rw [List.length_cons, List.length_cons]
    omega

/-- a check that reports the problems listed for its rules reports these rules -/
theorem Reports.of_lists {rules : List ρ} {Breaks : ρ → Problem → Prop} {result : Except Problem α} {ps : List Problem}
    (hlists : Lists Breaks rules ps) (hnodup : rules.Nodup) (hall : ∀ r p, Breaks r p → r ∈ rules)
    (hunique : ∀ r p q, Breaks r p → Breaks r q → p = q) (hsingle : ∀ q ∈ ps, q.Single)
    (hfails : ∀ p, result = .error p ↔ report ps = .error p) : Reports rules Breaks result := by
  have hevery : {r | r ∈ rules ∧ ∃ q, Breaks r q} = {r | ∃ q, Breaks r q} := by
    ext r
    exact ⟨And.right, fun ⟨q, hq⟩ => ⟨hall r q hq, q, hq⟩⟩
  refine ⟨hnodup, hall, hunique, ?_, fun p hp => ?_, fun p hp => ?_, fun p hp => ?_⟩
  · have hnone : (∃ x, result = .ok x) ↔ ps = [] := by
      rw [← report_eq_ok_iff]
      cases hresult : result with
      | ok x =>
        cases hreport : report ps with
        | ok u => simp
        | error p => rw [(hfails p).2 hreport] at hresult; cases hresult
      | error p =>
        rw [(hfails p).1 hresult]
        simp
    rw [hnone, hlists.eq_nil_iff]
    exact ⟨fun h r p hbroken => h r (hall r p hbroken) p hbroken, fun h r _ p => h r p⟩
  · rw [parts_of_report hsingle ((hfails p).1 hp)]
    exact hlists
  · rw [count_of_report hsingle ((hfails p).1 hp), hlists.length_eq hnodup, hevery]
  · exact flat_of_report hsingle ((hfails p).1 hp)

end Problem

open Problem

/-! ## The sections of the handler's settings -/

namespace AllowlistSettings

inductive Rule where
  /-- the contract has an address -/
  | contract
  | frequency
  | timeout
deriving DecidableEq

def Rule.inOrder : List Rule := [.contract, .frequency, .timeout]

/-- when settings of an allow-list break a rule, and the problem that this makes -/
inductive Breaks (s : AllowlistSettings) : Rule → Problem → Prop
  | contract {fault : Address.Fault} (h : Address.parse s.contractAddress = .error fault) :
      Breaks s .contract (.invalid ("allowlistConfig.contractAddress: " ++ fault.message s.contractAddress)
        "Use the 0x-prefixed 20-byte address of the allow-list contract")
  | frequency (h : s.updateFrequencySec = 0) :
      Breaks s .frequency (.invalid "allowlistConfig.updateFrequencySec must be positive"
        "Set how many seconds to wait between allow-list refreshes")
  | timeout (h : s.updateTimeoutSec = 0) :
      Breaks s .timeout (.invalid "allowlistConfig.updateTimeoutSec must be positive"
        "Set how many seconds a single allow-list fetch may take")

theorem lists (s : AllowlistSettings) : Lists s.Breaks Rule.inOrder s.problems := by
  refine .append (.append (?contract : Lists s.Breaks [.contract] _) (.ite .frequency ?frequency))
    (.ite .timeout ?timeout)
  case contract =>
    cases hparse : Address.parse s.contractAddress with
    | ok a =>
      refine .kept (fun p hp => ?_) .nil
      cases hp with
      | contract hfault =>
        rw [hparse] at hfault
        cases hfault
    | error fault => exact .broken (.contract hparse) .nil
  case frequency =>
    intro hpos p hp
    cases hp with
    | frequency hzero => exact hpos hzero
  case timeout =>
    intro hpos p hp
    cases hp with
    | timeout hzero => exact hpos hzero

theorem Breaks.unique {s : AllowlistSettings} {r : Rule} {p q : Problem} (hp : s.Breaks r p) (hq : s.Breaks r q) :
    p = q := by
  cases hp with
  | contract h =>
    cases hq with
    | contract h' => rw [Except.error.inj (h.symm.trans h')]
  | frequency | timeout =>
    cases hq
    rfl

theorem mem_inOrder (r : Rule) : r ∈ Rule.inOrder := by
  cases r <;> decide

theorem check_reports (s : AllowlistSettings) : Reports Rule.inOrder s.Breaks s.check :=
  .of_lists s.lists (by decide) (fun r _ _ => mem_inOrder r) (fun _ _ _ => Breaks.unique) (fun _ => single_of_mem)
    fun _ => by rw [s.check_eq]

end AllowlistSettings

namespace RateSettings

inductive Rule where
  | globalRps
  | perUserRps
  | globalBurst
  | perUserBurst
deriving DecidableEq

def Rule.inOrder : List Rule := [.globalRps, .perUserRps, .globalBurst, .perUserBurst]

/-- the problem with a rate that is not a finite number above zero -/
def noRate (name : String) (rps : Decimal.Binary64) : Problem :=
  .invalid ("rateLimiterConfig." ++ name ++ " must be positive, got " ++ Decimal.Layout.message.text rps)
    ("Set rateLimiterConfig." ++ name ++ " to a value greater than zero")

def noBurst (name : String) : Problem :=
  .invalid ("rateLimiterConfig." ++ name ++ " must be positive") ("Set rateLimiterConfig." ++ name ++ " to at least 1")

/-- when settings of a rate limiter break a rule, and the problem that this makes -/
inductive Breaks (s : RateSettings) : Rule → Problem → Prop
  | globalRps (h : ¬(s.globalRps.isFinite = true ∧ s.globalRps.isPositive = true)) :
      Breaks s .globalRps (noRate "globalRPS" s.globalRps)
  | perUserRps (h : ¬(s.perUserRps.isFinite = true ∧ s.perUserRps.isPositive = true)) :
      Breaks s .perUserRps (noRate "perUserRPS" s.perUserRps)
  | globalBurst (h : s.globalBurst = 0) : Breaks s .globalBurst (noBurst "globalBurst")
  | perUserBurst (h : s.perUserBurst = 0) : Breaks s .perUserBurst (noBurst "perUserBurst")

variable {s : RateSettings} {r : Rule}

theorem lists_rate {name : String} {rps : Decimal.Binary64}
    (hrule : ∀ p, s.Breaks r p ↔ ¬(rps.isFinite = true ∧ rps.isPositive = true) ∧ p = noRate name rps) :
    Lists s.Breaks [r] (rateProblems name rps) := by
  unfold rateProblems
  have hrate : isRate rps = true ↔ rps.isFinite = true ∧ rps.isPositive = true := Bool.and_eq_true_iff
  split_ifs with h
  · exact .kept (fun p hp => ((hrule p).1 hp).1 (hrate.1 h)) .nil
  · exact .broken ((hrule _).2 ⟨mt hrate.2 h, rfl⟩) .nil

theorem lists_burst {name : String} {burst : ℕ} (hrule : ∀ p, s.Breaks r p ↔ burst = 0 ∧ p = noBurst name) :
    Lists s.Breaks [r] (burstProblems name burst) :=
  .ite (fun h => (hrule _).2 ⟨h, rfl⟩) fun h p hp => h ((hrule p).1 hp).1

theorem breaks_globalRps (p : Problem) : s.Breaks .globalRps p ↔
    ¬(s.globalRps.isFinite = true ∧ s.globalRps.isPositive = true) ∧ p = noRate "globalRPS" s.globalRps :=
  ⟨fun hp => by cases hp with | globalRps h => exact ⟨h, rfl⟩, fun ⟨h, hp⟩ => hp ▸ .globalRps h⟩

theorem breaks_perUserRps (p : Problem) : s.Breaks .perUserRps p ↔
    ¬(s.perUserRps.isFinite = true ∧ s.perUserRps.isPositive = true) ∧ p = noRate "perUserRPS" s.perUserRps :=
  ⟨fun hp => by cases hp with | perUserRps h => exact ⟨h, rfl⟩, fun ⟨h, hp⟩ => hp ▸ .perUserRps h⟩

theorem breaks_globalBurst (p : Problem) : s.Breaks .globalBurst p ↔ s.globalBurst = 0 ∧ p = noBurst "globalBurst" :=
  ⟨fun hp => by cases hp with | globalBurst h => exact ⟨h, rfl⟩, fun ⟨h, hp⟩ => hp ▸ .globalBurst h⟩

theorem breaks_perUserBurst (p : Problem) :
    s.Breaks .perUserBurst p ↔ s.perUserBurst = 0 ∧ p = noBurst "perUserBurst" :=
  ⟨fun hp => by cases hp with | perUserBurst h => exact ⟨h, rfl⟩, fun ⟨h, hp⟩ => hp ▸ .perUserBurst h⟩

theorem lists (s : RateSettings) : Lists s.Breaks Rule.inOrder s.problems :=
  (((lists_rate breaks_globalRps).append (lists_rate breaks_perUserRps)).append
    (lists_burst breaks_globalBurst)).append (lists_burst breaks_perUserBurst)

theorem Breaks.unique {p q : Problem} (hp : s.Breaks r p) (hq : s.Breaks r q) : p = q := by
  cases hp <;> cases hq <;> rfl

theorem mem_inOrder (r : Rule) : r ∈ Rule.inOrder := by
  cases r <;> decide

theorem check_reports (s : RateSettings) : Reports Rule.inOrder s.Breaks s.check :=
  .of_lists s.lists (by decide) (fun r _ _ => mem_inOrder r) (fun _ _ _ => Breaks.unique) (fun _ => single_of_mem)
    fun _ => by rw [s.check_eq]

end RateSettings

/-! ## The handler's settings and its document -/

namespace HandlerSettings

inductive Rule where
  | allowlist (r : AllowlistSettings.Rule)
  | rateLimiter (r : RateSettings.Rule)
  | requestTimeout
deriving DecidableEq

def Rule.inOrder : List Rule :=
  AllowlistSettings.Rule.inOrder.map .allowlist ++ RateSettings.Rule.inOrder.map .rateLimiter ++ [.requestTimeout]

/-- when the settings of the handler break a rule, and the problem that this makes -/
inductive Breaks (s : HandlerSettings) : Rule → Problem → Prop
  | allowlist {a : AllowlistSettings} {r : AllowlistSettings.Rule} {p : Problem} (h : s.allowlist = some a)
      (hbroken : a.Breaks r p) : Breaks s (.allowlist r) p
  | rateLimiter {l : RateSettings} {r : RateSettings.Rule} {p : Problem} (h : s.rateLimiter = some l)
      (hbroken : l.Breaks r p) : Breaks s (.rateLimiter r) p
  | requestTimeout (h : s.requestTimeoutMillis = 0) :
      Breaks s .requestTimeout (.invalid "requestTimeoutMillis must be positive"
        "Set requestTimeoutMillis to how long a caller may wait for quorum")

theorem lists (s : HandlerSettings) : Lists s.Breaks Rule.inOrder s.problems := by
  refine (Lists.append ?_ ?_).append (.ite .requestTimeout ?_)
  · cases hlist : s.allowlist with
    | none =>
      refine .of_kept fun r hr p hp => ?_
      obtain ⟨r', -, rfl⟩ := List.mem_map.1 hr
      cases hp with
      | allowlist h =>
        rw [hlist] at h
        cases h
    | some a =>
      refine a.lists.map fun r p => ⟨fun hp => ?_, .allowlist hlist⟩
      cases hp with
      | allowlist h hbroken =>
        obtain rfl := Option.some.inj (hlist.symm.trans h)
        exact hbroken
  · cases hrates : s.rateLimiter with
    | none =>
      refine .of_kept fun r hr p hp => ?_
      obtain ⟨r', -, rfl⟩ := List.mem_map.1 hr
      cases hp with
      | rateLimiter h =>
        rw [hrates] at h
        cases h
    | some l =>
      refine l.lists.map fun r p => ⟨fun hp => ?_, .rateLimiter hrates⟩
      cases hp with
      | rateLimiter h hbroken =>
        obtain rfl := Option.some.inj (hrates.symm.trans h)
        exact hbroken
  · intro hpos p hp
    cases hp with
    | requestTimeout hzero => exact hpos hzero

theorem Breaks.unique {s : HandlerSettings} {r : Rule} {p q : Problem} (hp : s.Breaks r p) (hq : s.Breaks r q) :
    p = q := by
  cases hp with
  | allowlist h hbroken =>
    cases hq with
    | allowlist h' hbroken' =>
      obtain rfl := Option.some.inj (h.symm.trans h')
      exact hbroken.unique hbroken'
  | rateLimiter h hbroken =>
    cases hq with
    | rateLimiter h' hbroken' =>
      obtain rfl := Option.some.inj (h.symm.trans h')
      exact hbroken.unique hbroken'
  | requestTimeout =>
    cases hq
    rfl

theorem mem_inOrder (r : Rule) : r ∈ Rule.inOrder := by
  rw [Rule.inOrder, List.mem_append, List.mem_append]
  cases r with
  | allowlist r => exact .inl (.inl (List.mem_map_of_mem (AllowlistSettings.mem_inOrder r)))
  | rateLimiter r => exact .inl (.inr (List.mem_map_of_mem (RateSettings.mem_inOrder r)))
  | requestTimeout => exact .inr List.mem_cons_self

theorem check_reports (s : HandlerSettings) : Reports Rule.inOrder s.Breaks s.check :=
  .of_lists s.lists (by decide) (fun r _ _ => mem_inOrder r) (fun _ _ _ => Breaks.unique) (fun _ => single_of_mem)
    fun _ => by rw [s.check_eq]

/-- a document has to be readable as settings, and these have to keep their rules -/
inductive DocumentRule where
  | readable
  | settings (r : Rule)
deriving DecidableEq

def DocumentRule.inOrder : List DocumentRule := .readable :: Rule.inOrder.map .settings

/-- when a document breaks a rule, and the problem that this makes -/
inductive DocumentBreaks (raw : Json) : DocumentRule → Problem → Prop
  | readable {e : DecodeError} (h : decode raw = .error e) :
      DocumentBreaks raw .readable (.invalid ("handler config is malformed: " ++ e.message)
        "Check field names and types against the handler config reference")
  | settings {s : HandlerSettings} {r : Rule} {p : Problem} (h : decode raw = .ok s) (hbroken : s.Breaks r p) :
      DocumentBreaks raw (.settings r) p

theorem lists_document (raw : Json) : Lists (DocumentBreaks raw) DocumentRule.inOrder (problemsOf raw) := by
  unfold problemsOf
  cases hdecode : decode raw with
  | error e =>
    refine .broken (.readable hdecode) (.of_kept fun r hr p hp => ?_)
    obtain ⟨r', -, rfl⟩ := List.mem_map.1 hr
    cases hp with
    | settings h =>
      rw [hdecode] at h
      cases h
  | ok s =>
    refine .kept (fun p hp => ?_) (s.lists.map fun r p => ⟨fun hp => ?_, .settings hdecode⟩)
    · cases hp with
      | readable h =>
        rw [hdecode] at h
        cases h
    · cases hp with
      | settings h hbroken =>
        obtain rfl := Except.ok.inj (hdecode.symm.trans h)
        exact hbroken

theorem DocumentBreaks.unique {raw : Json} {r : DocumentRule} {p q : Problem} (hp : DocumentBreaks raw r p)
    (hq : DocumentBreaks raw r q) : p = q := by
  cases hp with
  | readable h =>
    cases hq with
    | readable h' => rw [Except.error.inj (h.symm.trans h')]
  | settings h hbroken =>
    cases hq with
    | settings h' hbroken' =>
      obtain rfl := Except.ok.inj (h.symm.trans h')
      exact hbroken.unique hbroken'

theorem mem_documentRules (r : DocumentRule) : r ∈ DocumentRule.inOrder := by
  cases r with
  | readable => exact List.mem_cons_self
  | settings r => exact List.mem_cons_of_mem _ (List.mem_map_of_mem (mem_inOrder r))

theorem parse_reports (raw : Json) : Reports DocumentRule.inOrder (DocumentBreaks raw) (parse raw) :=
  .of_lists (lists_document raw) (by decide) (fun r _ _ => mem_documentRules r) (fun _ _ _ => DocumentBreaks.unique)
    (fun _ => single_of_mem_problemsOf) fun _ => parse_eq_error_iff

end HandlerSettings

/-! ## The network -/

namespace Network

inductive Rule where
  | anyMember
  | fewFaulty
  /-- the member at a place has an address -/
  | address (i : ℕ)
  /-- it is not that of a member before -/
  | fresh (i : ℕ)
deriving DecidableEq

/-- the rules for the member at a place -/
def Rule.ofMember (i : ℕ) : List Rule := [.address i, .fresh i]

/-- the rules of a network: those for its size, and then those for each member -/
def rules (d : Network) : List Rule := [.anyMember, .fewFaulty] ++ (List.range d.members.length).flatMap Rule.ofMember

/-- when a network breaks a rule, and the problem that this makes -/
inductive Breaks (d : Network) : Rule → Problem → Prop
  | anyMember (h : d.members = []) :
      Breaks d .anyMember (.missing "don.members" "routing requests to a DON"
        "don.members in the config file or DON_GATEWAY__DON__MEMBERS")
  | fewFaulty (hne : d.members ≠ []) (h : d.members.length ≤ d.f) :
      Breaks d .fewFaulty (.invalid
        ("don.f is " ++ Text.ofNat d.f ++ " but the DON has only " ++ Text.ofNat d.members.length ++ " members")
        "F counts tolerated faulty nodes and must be smaller than the member count")
  | address {i : ℕ} {n : Member} (hn : d.members[i]? = some n) (h : Text.trim n.address = "") :
      Breaks d (.address i) (.invalid ("DON member '" ++ n.name ++ "' has an empty address")
        "Give every member the address its connection is registered under")
  | fresh {i j : ℕ} {n n' : Member} (hn : d.members[i]? = some n) (hgiven : Text.trim n.address ≠ "") (hlt : j < i)
      (hn' : d.members[j]? = some n')
      (h : Text.lower (Text.trim n'.address) = Text.lower (Text.trim n.address)) :
      Breaks d (.fresh i) (.invalid ("DON member address '" ++ n.address ++ "' is listed twice")
        "Each node may appear once; duplicates would count twice toward quorum")

variable {d : Network}

theorem lists_size (d : Network) : Lists d.Breaks [.anyMember, .fewFaulty] d.sizeProblems := by
  have hany : d.members ≠ [] → ∀ p, ¬d.Breaks .anyMember p := by
    intro hne p hp
    cases hp with
    | anyMember h => exact hne h
  unfold sizeProblems
  split_ifs with hempty hfaulty
  · have hnil : d.members = [] := List.isEmpty_iff.1 hempty
    refine .broken (.anyMember hnil) (.kept (fun p hp => ?_) .nil)
    cases hp with
    | fewFaulty hne => exact hne hnil
  · have hne : d.members ≠ [] := fun h => hempty (List.isEmpty_iff.2 h)
    exact .kept (hany hne) (.broken (.fewFaulty hne hfaulty) .nil)
  · have hne : d.members ≠ [] := fun h => hempty (List.isEmpty_iff.2 h)
    refine .kept (hany hne) (.kept (fun p hp => ?_) .nil)
    cases hp with
    | fewFaulty _ hle => exact hfaulty hle

/-- an address is found among those of the members before a place when one of them has it -/
theorem mem_addresses_before {members : List Member} {i : ℕ} {a : String} :
    a ∈ normalAddresses (members.take i) ↔ ∃ j n', j < i ∧ members[j]? = some n' ∧ normalAddress n'.address = a := by
  rw [normalAddresses, List.mem_map]
  constructor
  · rintro ⟨n', hmem, rfl⟩
    obtain ⟨j, hj, hget⟩ := List.mem_take_iff_getElem.1 hmem
    exact ⟨j, n', by omega, by rw [List.getElem?_eq_getElem (by omega), hget], rfl⟩
  · rintro ⟨j, n', hlt, hn', rfl⟩
    obtain ⟨hlength, hget⟩ := List.getElem?_eq_some_iff.1 hn'
    exact ⟨n', List.mem_take_iff_getElem.2 ⟨j, by omega, hget⟩, rfl⟩

theorem lists_member {n : Member} {i : ℕ} (hn : d.members[i]? = some n) :
    Lists d.Breaks (Rule.ofMember i) (memberProblems (normalAddresses (d.members.take i)) [n]) := by
  have hsame : ∀ {n'}, d.members[i]? = some n' → n = n' := fun h => Option.some.inj (hn.symm.trans h)
  have hblank : normalAddress n.address = "" ↔ Text.trim n.address = "" := by
    rw [normalAddress, lower_eq_empty_iff]
  have hgiven : normalAddress n.address ≠ "" → ∀ p, ¬d.Breaks (.address i) p := by
    intro hne p hp
    cases hp with
    | address hn' h => exact hne (hblank.2 (hsame hn' ▸ h))
  simp only [memberProblems]
  split_ifs with hempty hseen
  · refine .broken (.address hn (hblank.1 hempty)) (.kept (fun p hp => ?_) .nil)
    cases hp with
    | fresh hn' hne => exact hne (hsame hn' ▸ hblank.1 hempty)
  · rw [List.contains_eq_mem, decide_eq_true_eq] at hseen
    obtain ⟨j, n', hlt, hn', h⟩ := mem_addresses_before.1 hseen
    exact .kept (hgiven hempty) (.broken (.fresh hn (mt hblank.2 hempty) hlt hn' h) .nil)
  · rw [List.contains_eq_mem, decide_eq_true_eq] at hseen
    refine .kept (hgiven hempty) (.kept (fun p hp => ?_) .nil)
    cases hp with
    | fresh hni _ hlt hn' h => exact hseen (mem_addresses_before.2 ⟨_, _, hlt, hn', hsame hni ▸ h⟩)

theorem lists (d : Network) : Lists d.Breaks d.rules d.problems := by
  have hplaces : (List.range d.members.length).flatMap Rule.ofMember =
      d.members.zipIdx.flatMap fun p => Rule.ofMember p.2 := by
    rw [List.range_eq_range', ← List.zipIdx_map_snd 0 d.members, List.flatMap_map]
  refine d.lists_size.append ?_
  rw [hplaces, memberProblems_eq]
  refine .flatMap fun p hp => ?_
  exact lists_member (List.mem_zipIdx_iff_getElem?.1 hp)

theorem Breaks.unique {r : Rule} {p q : Problem} (hp : d.Breaks r p) (hq : d.Breaks r q) : p = q := by
  cases hp with
  | anyMember | fewFaulty =>
    cases hq
    rfl
  | address hn =>
    cases hq with
    | address hn' => rw [Option.some.inj (hn.symm.trans hn')]
  | fresh hn =>
    cases hq with
    | fresh hn' => rw [Option.some.inj (hn.symm.trans hn')]

theorem mem_rules {r : Rule} {p : Problem} (h : d.Breaks r p) : r ∈ d.rules := by
  have hplace : ∀ {i : ℕ} {n : Member} {r : Rule}, d.members[i]? = some n → r ∈ Rule.ofMember i →
      r ∈ (List.range d.members.length).flatMap Rule.ofMember := fun hn hr =>
    List.mem_flatMap.2 ⟨_, List.mem_range.2 (List.getElem?_eq_some_iff.1 hn).1, hr⟩
  rw [rules, List.mem_append]
  cases h with
  | anyMember | fewFaulty => exact .inl (by decide)
  | address hn => exact .inr (hplace hn List.mem_cons_self)
  | fresh hn => exact .inr (hplace hn (List.mem_cons_of_mem _ List.mem_cons_self))

theorem nodup_rules (d : Network) : d.rules.Nodup := by
  refine List.nodup_append.2 ⟨by decide, List.nodup_flatMap.2 ⟨fun i _ => ?_, ?_⟩, fun r hr r' hr' => ?_⟩
  · simp [Rule.ofMember]
  · refine List.nodup_range.imp fun hne => ?_
    simp [Function.onFun, List.disjoint_left, Rule.ofMember, hne]
  · obtain ⟨i, -, hi⟩ := List.mem_flatMap.1 hr'
    rintro rfl
    rcases List.mem_pair.1 hr with rfl | rfl <;> simp [Rule.ofMember] at hi

theorem check_reports (d : Network) : Reports d.rules d.Breaks d.check :=
  .of_lists d.lists d.nodup_rules (fun _ _ => mem_rules) (fun _ _ _ => Breaks.unique) (fun _ => single_of_mem)
    fun _ => by rw [d.check_eq]

end Network

/-! ## All settings -/

namespace Settings

inductive Rule where
  | network (r : Network.Rule)
  | handler (r : HandlerSettings.DocumentRule)
  | level
deriving DecidableEq

def rules (s : Settings) : List Rule :=
  s.network.rules.map .network ++ HandlerSettings.DocumentRule.inOrder.map .handler ++ [.level]

/-- when settings break a rule, and the problem that this makes -/
inductive Breaks (s : Settings) : Rule → Problem → Prop
  | network {r : Network.Rule} {p : Problem} (h : s.network.Breaks r p) : Breaks s (.network r) p
  | handler {r : HandlerSettings.DocumentRule} {p : Problem}
      (h : HandlerSettings.DocumentBreaks s.network.handler r p) : Breaks s (.handler r) p
  | level (h : Text.trim s.logging.level = "") :
      Breaks s .level (.invalid "logging.level is empty"
        "Set logging.level to a tracing filter such as 'info' or 'don_gateway=debug'")

variable {s : Settings}

theorem lists (s : Settings) : Lists s.Breaks s.rules s.problems := by
  have hnetwork : Lists s.Breaks (s.network.rules.map .network) s.network.problems :=
    s.network.lists.map fun r p => ⟨fun hp => by cases hp with | network h => exact h, .network⟩
  have hhandler : Lists s.Breaks (HandlerSettings.DocumentRule.inOrder.map .handler)
      (HandlerSettings.problemsOf s.network.handler) :=
    (HandlerSettings.lists_document s.network.handler).map fun r p =>
      ⟨fun hp => by cases hp with | handler h => exact h, .handler⟩
  have hlevel : Lists s.Breaks [.level] (loggingProblems s.logging) := by
    refine .ite (fun h => .level (Text.trim_eq_empty_iff.2 h)) fun hgiven p hp => ?_
    cases hp with
    | level hempty => exact hgiven (Text.trim_eq_empty_iff.1 hempty)
  exact (hnetwork.append hhandler).append hlevel

theorem Breaks.unique {r : Rule} {p q : Problem} (hp : s.Breaks r p) (hq : s.Breaks r q) : p = q := by
  cases hp with
  | network h =>
    cases hq with
    | network h' => exact h.unique h'
  | handler h =>
    cases hq with
    | handler h' => exact h.unique h'
  | level =>
    cases hq
    rfl

theorem mem_rules {r : Rule} {p : Problem} (h : s.Breaks r p) : r ∈ s.rules := by
  rw [rules, List.mem_append, List.mem_append]
  cases h with
  | network h => exact .inl (.inl (List.mem_map_of_mem (Network.mem_rules h)))
  | handler _ => exact .inl (.inr (List.mem_map_of_mem (HandlerSettings.mem_documentRules _)))
  | level => exact .inr List.mem_cons_self

theorem nodup_rules (s : Settings) : s.rules.Nodup := by
  have hnetwork : (s.network.rules.map Rule.network).Nodup :=
    s.network.nodup_rules.map fun _ _ => Rule.network.inj
  have hhandler : (HandlerSettings.DocumentRule.inOrder.map Rule.handler ++ [Rule.level]).Nodup := by decide
  rw [rules, List.append_assoc]
  refine List.nodup_append.2 ⟨hnetwork, hhandler, fun r hr r' hr' => ?_⟩
  obtain ⟨n, -, rfl⟩ := List.mem_map.1 hr
  rintro rfl
  simp at hr'

theorem check_reports (s : Settings) : Reports s.rules s.Breaks s.check :=
  .of_lists s.lists s.nodup_rules (fun _ _ => mem_rules) (fun _ _ _ => Breaks.unique) (fun _ => single_of_mem)
    fun _ => by rw [s.check_eq]

/-- the parts of settings that pass their check pass theirs -/
theorem parts_of_check (h : s.check = .ok ()) :
    s.network.check = .ok () ∧ ∃ settings, HandlerSettings.parse s.network.handler = .ok settings := by
  have hkept := s.check_reports.passes.1 ⟨(), h⟩
  obtain ⟨⟨⟩, hnetwork⟩ := s.network.check_reports.passes.2 fun _ _ hp => hkept _ _ (.network hp)
  exact ⟨hnetwork, (HandlerSettings.parse_reports _).passes.2 fun _ _ hp => hkept _ _ (.handler hp)⟩

end Settings

/-! ## Main result -/

/-- **Every problem is reported once, in order.** Settings pass their check exactly when no rule is broken. Otherwise
the report is one problem, or a list of two or more that are no lists: those of the network, then either that of a
document that cannot be read or those of the handler's settings, then that of the log level, each as often as its rule
is broken, which is once. So it is with each part on its own. -/
theorem every_problem_reported :
    (∀ s : Settings, Reports s.rules s.Breaks s.check) ∧
      (∀ d : Network, Reports d.rules d.Breaks d.check) ∧
      (∀ raw : Json, Reports HandlerSettings.DocumentRule.inOrder (HandlerSettings.DocumentBreaks raw)
        (HandlerSettings.parse raw)) ∧
      (∀ s : HandlerSettings, Reports HandlerSettings.Rule.inOrder s.Breaks s.check) ∧
      (∀ a : AllowlistSettings, Reports AllowlistSettings.Rule.inOrder a.Breaks a.check) ∧
      ∀ r : RateSettings, Reports RateSettings.Rule.inOrder r.Breaks r.check :=
  ⟨Settings.check_reports, Network.check_reports, HandlerSettings.parse_reports, HandlerSettings.check_reports,
    AllowlistSettings.check_reports, RateSettings.check_reports⟩

/-- too many faulty members, an address that is there twice, no time for requests, no log level -/
example :
    (match Settings.check ⟨⟨" ", .pretty⟩, "don", "functions", .object [("requestTimeoutMillis", .nat 0)],
        [⟨"first", "0x0a"⟩, ⟨"second", " 0X0A"⟩], 2⟩ with
      | .ok () => 0
      | .error p => p.count) = 4 := by
  decide +kernel

end QuorumGateway
