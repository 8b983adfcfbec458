import Mathlib.Tactic
import QuorumGateway.Config.Check
/-!
Reports that are made of reports. The check of a part ends with nothing, with its one problem, or with several; the
check of the whole takes that apart again before it makes its own report. As long as the problems that are found stand
for themselves, nothing is lost on the way, listed twice or left inside a list (`flatMap_parts_found`), so the check of
the whole reports the problems of its parts as if it had looked for them itself (`HandlerSettings.check_eq`,
`Settings.check_eq`).
-/

namespace QuorumGateway

namespace Problem

variable {α : Type} {p : Problem} {ps : List Problem}

/-- a problem that is no list of problems -/
def Single (p : Problem) : Prop := ∀ ps, p ≠ .several ps

theorem single_invalid (message hint : String) : (invalid message hint).Single := nofun

theorem single_missing (setting context source : String) : (missing setting context source).Single := nofun

theorem Single.parts (h : p.Single) : p.parts = [p] := by
  cases p with
  | several ps => exact absurd rfl (h ps)
  | invalid | missing => rfl

theorem Single.count (h : p.Single) : p.count = 1 := by
  cases p with
  | several ps => exact absurd rfl (h ps)
  | invalid | missing => rfl

/-! ## Reports -/

theorem report_eq_ok_iff : report ps = .ok () ↔ ps = [] := by
  rcases ps with _ | ⟨p, _ | ⟨p', rest⟩⟩ <;> simp [report]

theorem parts_of_report (hsingle : ∀ q ∈ ps, q.Single) (h : report ps = .error p) : p.parts = ps := by
  rcases ps with _ | ⟨q, _ | ⟨q', rest⟩⟩
  · cases h
  · obtain rfl : q = p := Except.error.inj h
    exact (hsingle q List.mem_cons_self).parts
  · cases h
    rfl

theorem count_of_report (hsingle : ∀ q ∈ ps, q.Single) (h : report ps = .error p) : p.count = ps.length := by
  rcases ps with _ | ⟨q, _ | ⟨q', rest⟩⟩
  · cases h
  · obtain rfl : q = p := Except.error.inj h
    exact (hsingle q List.mem_cons_self).count
  · cases h
    rfl

theorem flatMap_parts (hsingle : ∀ q ∈ ps, q.Single) : ps.flatMap parts = ps := by
  induction ps with
  | nil => rfl
  | cons q ps ih =>
    obtain ⟨hq, hps⟩ := List.forall_mem_cons.1 hsingle
    rw [List.flatMap_cons, hq.parts, ih hps]
    rfl

/-- **A report taken apart is what was reported** -/
theorem flatMap_parts_found (hsingle : ∀ q ∈ ps, q.Single) : (found (report ps)).flatMap parts = ps := by
  cases h : report ps with
  | ok u =>
    rw [report_eq_ok_iff.1 h]
    rfl
  | error p => rw [found, List.flatMap_singleton, parts_of_report hsingle h]

theorem collect_eq (hsingle : ∀ q ∈ ps, q.Single) : collect ps = report ps := by rw [collect, flatMap_parts hsingle]

/-- for the larger check only the problem counts that a check ends with -/
theorem found_eq {β : Type} {x : Except Problem α} {y : Except Problem β} (h : ∀ p, x = .error p ↔ y = .error p) :
    found x = found y := by
  cases x with
  | error p =>
    rw [(h p).1 rfl]
    rfl
  | ok a =>
    cases y with
    | error p => cases (h p).2 rfl
    | ok b => rfl

end Problem

/-! ## Problems that are found -/

open Problem

variable {p : Problem}

namespace AllowlistSettings

variable {a : AllowlistSettings}

theorem single_of_mem (h : p ∈ a.problems) : p.Single := by
  rcases List.mem_append.1 h with h | h
  · rcases List.mem_append.1 h with h | h
    · cases hparse : Address.parse a.contractAddress with
      | ok address =>
        rw [hparse] at h
        cases h
      | error fault =>
        rw [hparse] at h
        exact List.mem_singleton.1 h ▸ single_invalid _ _
    · split_ifs at h
      · exact List.mem_singleton.1 h ▸ single_invalid _ _
      · cases h
  · split_ifs at h
    · exact List.mem_singleton.1 h ▸ single_invalid _ _
    · cases h

theorem check_eq (a : AllowlistSettings) : a.check = report a.problems := collect_eq fun _ => single_of_mem

end AllowlistSettings

namespace RateSettings

variable {r : RateSettings}

theorem single_of_mem_rate {name : String} {rps : Decimal.Binary64} (h : p ∈ rateProblems name rps) : p.Single := by
  unfold rateProblems at h
  split_ifs at h
  · cases h
  · exact List.mem_singleton.1 h ▸ single_invalid _ _

theorem single_of_mem_burst {name : String} {burst : ℕ} (h : p ∈ burstProblems name burst) : p.Single := by
  unfold burstProblems at h
  split_ifs at h
  · exact List.mem_singleton.1 h ▸ single_invalid _ _
  · cases h

theorem single_of_mem (h : p ∈ r.problems) : p.Single := by
  rw [problems, List.mem_append, List.mem_append, List.mem_append] at h
  rcases h with ((h | h) | h) | h
  · exact single_of_mem_rate h
  · exact single_of_mem_rate h
  · exact single_of_mem_burst h
  · exact single_of_mem_burst h

theorem check_eq (r : RateSettings) : r.check = report r.problems := collect_eq fun _ => single_of_mem

end RateSettings

namespace HandlerSettings

variable {s : HandlerSettings} {raw : Json}

theorem single_of_mem_timeout (h : p ∈ s.timeoutProblems) : p.Single := by
  unfold timeoutProblems at h
  split_ifs at h
  · exact List.mem_singleton.1 h ▸ single_invalid _ _
  · cases h

theorem single_of_mem (h : p ∈ s.problems) : p.Single := by
  rw [problems, List.mem_append, List.mem_append] at h
  rcases h with (h | h) | h
  · cases hlist : s.allowlist with
    | none =>
      rw [hlist] at h
      cases h
    | some a =>
      rw [hlist] at h
      exact AllowlistSettings.single_of_mem h
  · cases hrates : s.rateLimiter with
    | none =>
      rw [hrates] at h
      cases h
    | some r =>
      rw [hrates] at h
      exact RateSettings.single_of_mem h
  · exact single_of_mem_timeout h

/-- **The check of the handler's settings reports the problems of the sections and its own** -/
theorem check_eq (s : HandlerSettings) : s.check = report s.problems := by
  have htimeout : s.timeoutProblems.flatMap parts = s.timeoutProblems := flatMap_parts fun _ => single_of_mem_timeout
  rw [check, collect, problems, List.flatMap_append, List.flatMap_append, htimeout]
  congr 3
  · cases s.allowlist with
    | none => rfl
    | some a =>
      dsimp only
      rw [a.check_eq, flatMap_parts_found fun _ => AllowlistSettings.single_of_mem]
  · cases s.rateLimiter with
    | none => rfl
    | some r =>
      dsimp only
      rw [r.check_eq, flatMap_parts_found fun _ => RateSettings.single_of_mem]

theorem single_of_mem_problemsOf (h : p ∈ problemsOf raw) : p.Single := by
  unfold problemsOf at h
  cases hdecode : decode raw with
  | error e =>
    rw [hdecode] at h
    exact List.mem_singleton.1 h ▸ single_invalid _ _
  | ok s =>
    rw [hdecode] at h
    exact single_of_mem h

/-- a document is refused with the report of its problems -/
theorem parse_eq_error_iff : parse raw = .error p ↔ report (problemsOf raw) = .error p := by
  unfold parse problemsOf
  cases decode raw with
  | error e => simp [report]
  | ok s =>
    dsimp only
    rw [s.check_eq]
    cases report s.problems with
    | ok u => simp
    | error q => simp

/-- settings are accepted when they are read and no check objects -/
theorem parse_eq_ok_iff : parse raw = .ok s ↔ decode raw = .ok s ∧ s.problems = [] := by
  unfold parse
  cases decode raw with
  | error e => simp
  | ok t =>
    dsimp only
    rw [t.check_eq]
    cases hreport : report t.problems with
    | ok u =>
      have hnone : t.problems = [] := report_eq_ok_iff.1 hreport
      simp only [Except.ok.injEq]
      exact ⟨fun heq => ⟨heq, heq ▸ hnone⟩, And.left⟩
    | error q =>
      simp only [reduceCtorEq, Except.ok.injEq, false_iff, not_and]
      rintro rfl hnone
      rw [hnone] at hreport
      cases hreport

end HandlerSettings

namespace Network

variable {d : Network} {seen : List String} {members : List Member}

theorem single_of_mem_memberProblems (h : p ∈ memberProblems seen members) : p.Single := by
  induction members generalizing seen with
  | nil => cases h
  | cons n members ih =>
    simp only [memberProblems] at h
    split_ifs at h
    · rcases List.mem_cons.1 h with rfl | h
      · exact single_invalid _ _
      · exact ih h
    · rcases List.mem_cons.1 h with rfl | h
      · exact single_invalid _ _
      · exact ih h
    · exact ih h

theorem single_of_mem (h : p ∈ d.problems) : p.Single := by
  rcases List.mem_append.1 h with h | h
  · unfold sizeProblems at h
    split_ifs at h
    · exact List.mem_singleton.1 h ▸ single_missing _ _ _
    · exact List.mem_singleton.1 h ▸ single_invalid _ _
    · cases h
  · exact single_of_mem_memberProblems h

theorem check_eq (d : Network) : d.check = report d.problems := collect_eq fun _ => single_of_mem

end Network

namespace Settings

variable {s : Settings}

theorem single_of_mem_logging {l : Logging} (h : p ∈ loggingProblems l) : p.Single := by
  unfold loggingProblems at h
  split_ifs at h
  · exact List.mem_singleton.1 h ▸ single_invalid _ _
  · cases h

theorem single_of_mem (h : p ∈ s.problems) : p.Single := by
  rw [problems, List.mem_append, List.mem_append] at h
  rcases h with (h | h) | h
  · exact Network.single_of_mem h
  · exact HandlerSettings.single_of_mem_problemsOf h
  · exact single_of_mem_logging h

/-- **The check of all settings reports the problems of the network, the handler's document and the log level** -/
theorem check_eq (s : Settings) : s.check = report s.problems := by
  have hlogging : (loggingProblems s.logging).flatMap parts = loggingProblems s.logging :=
    flatMap_parts fun _ => single_of_mem_logging
  have hhandler : found (HandlerSettings.parse s.network.handler) =
      found (report (HandlerSettings.problemsOf s.network.handler)) :=
    found_eq fun _ => HandlerSettings.parse_eq_error_iff
  rw [check, collect, problems, List.flatMap_append, List.flatMap_append, hlogging, hhandler, s.network.check_eq,
    flatMap_parts_found fun _ => Network.single_of_mem,
    flatMap_parts_found fun _ => HandlerSettings.single_of_mem_problemsOf]

end Settings

end QuorumGateway
