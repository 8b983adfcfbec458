import QuorumGateway.Proofs.Config.Collecting
/-!
Reports of reports, nested to any depth. However deep a list of problems stands in other lists, what it comes to is the
problems in it that are no lists, from left to right (`singles`). Collecting loses none of them, repeats none and keeps
their order (`flatMap_singles_found`). But it takes apart only the lists that it is given: a list inside one of them is
put into the report as it is.

- `flattened_iff_shallow`: so a report is flat exactly when no list stands inside a list that is given, or one that does
  is all there is and is a proper report itself (`Shallow`).
- `list_in_list_kept`: a list with a list in it gives a report with a list in it, and an empty list in a list gives a
  report of nothing.

The checks of the settings stay on the flat side: what they find is no list (`Settings.single_of_mem`).
-/

namespace QuorumGateway

namespace Problem

variable {p q : Problem} {ps qs : List Problem}

/-! ## What a report comes to -/

mutual

/-- the problems in a report that are no lists, from left to right -/
def singles : Problem → List Problem
  | .several ps => singlesOf ps
  | p => [p]

/-- the problems in a list of reports that are no lists -/
def singlesOf : List Problem → List Problem
  | [] => []
  | p :: ps => singles p ++ singlesOf ps

end

theorem singlesOf_eq (ps : List Problem) : singlesOf ps = ps.flatMap singles := by
  induction ps with
  | nil => rfl
  | cons p ps ih => rw [singlesOf, ih, List.flatMap_cons]

theorem singles_several (ps : List Problem) : singles (.several ps) = ps.flatMap singles := by
  rw [singles, singlesOf_eq]

theorem Single.singles (h : p.Single) : p.singles = [p] := by
  cases p with
  | several ps => exact absurd rfl (h ps)
  | invalid | missing => rfl

mutual

theorem single_of_mem_singles : ∀ p : Problem, ∀ q ∈ p.singles, q.Single
  | .invalid message hint => by
    intro q hq
    exact List.mem_singleton.1 hq ▸ single_invalid message hint
  | .missing setting context source => by
    intro q hq
    exact List.mem_singleton.1 hq ▸ single_missing setting context source
  | .several ps => by
    intro q hq
    rw [singles] at hq
    exact single_of_mem_singlesOf ps q hq

theorem single_of_mem_singlesOf : ∀ ps : List Problem, ∀ q ∈ singlesOf ps, q.Single
  | [] => nofun
  | p :: ps => by
    intro q hq
    rw [singlesOf, List.mem_append] at hq
    rcases hq with hq | hq
    · exact single_of_mem_singles p q hq
    · exact single_of_mem_singlesOf ps q hq

end

/-- nothing that a list comes to is a list -/
theorem single_of_mem_flatMap (hq : q ∈ ps.flatMap singles) : q.Single :=
  single_of_mem_singlesOf ps q (singlesOf_eq ps ▸ hq)

theorem flatMap_singles (hsingle : ∀ q ∈ ps, q.Single) : ps.flatMap singles = ps := by
  induction ps with
  | nil => rfl
  | cons q ps ih =>
    obtain ⟨hq, hps⟩ := List.forall_mem_cons.1 hsingle
    rw [List.flatMap_cons, hq.singles, ih hps]
    rfl

/-- taking a report apart by one level leaves what it comes to -/
theorem flatMap_singles_parts (p : Problem) : p.parts.flatMap singles = p.singles := by
  cases p with
  | several ps => rw [parts, singles_several]
  | invalid | missing => rfl

theorem flatMap_singles_flatMap_parts (ps : List Problem) :
    (ps.flatMap parts).flatMap singles = ps.flatMap singles := by
  rw [List.flatMap_assoc]
  exact List.flatMap_congr fun p _ => flatMap_singles_parts p

theorem report_of_two_le (h : 2 ≤ ps.length) : report ps = .error (.several ps) := by
  rcases ps with _ | ⟨p, _ | ⟨p', rest⟩⟩
  · cases h
  · exact absurd h (by simp)
  · rfl

theorem flatMap_singles_found_report (ps : List Problem) :
    (found (report ps)).flatMap singles = ps.flatMap singles := by
  rcases ps with _ | ⟨p, _ | ⟨p', rest⟩⟩
  · rfl
  · rfl
  · rw [report_of_two_le (by simp), found, List.flatMap_singleton, singles_several]

/-- **Collecting keeps every problem**, at whatever depth it stands, once and in its place -/
theorem flatMap_singles_found (ps : List Problem) : (found (collect ps)).flatMap singles = ps.flatMap singles := by
  rw [collect, flatMap_singles_found_report, flatMap_singles_flatMap_parts]

/-! ## Flat reports -/

/-- the report of a list is that of the problems it comes to -/
structure Flattened (ps : List Problem) : Prop where
  /-- nothing is wrong exactly when there is no problem at any depth -/
  nothing : collect ps = .ok () ↔ ps.flatMap singles = []
  /-- a problem that is the only one is reported itself -/
  alone : ∀ p, ps.flatMap singles = [p] → collect ps = .error p
  /-- several problems are reported as one list of them all -/
  together : 2 ≤ (ps.flatMap singles).length → collect ps = .error (.several (ps.flatMap singles))
  /-- no list stands in a list that is reported -/
  flat : ∀ qs, collect ps = .error (.several qs) → ∀ q ∈ qs, q.Single
  counted : ∀ p, collect ps = .error p → p.count = (ps.flatMap singles).length
  /-- to collect what has been collected changes nothing -/
  again : collect (found (collect ps)) = collect ps

/-- no list stands in a list that is given, or only one stands in them, with nothing beside it and with at least two
problems, none of which is a list -/
def Shallow (ps : List Problem) : Prop :=
  (∀ q ∈ ps.flatMap parts, q.Single) ∨
    ∃ qs, ps.flatMap parts = [.several qs] ∧ 2 ≤ qs.length ∧ ∀ q ∈ qs, q.Single

/-- in a shallow list the report is that of the problems it comes to -/
theorem Shallow.collect_eq (h : Shallow ps) : collect ps = report (ps.flatMap singles) := by
  rw [collect, ← flatMap_singles_flatMap_parts]
  rcases h with hsingle | ⟨qs, hparts, htwo, hsingle⟩
  · rw [flatMap_singles hsingle]
  · rw [hparts, List.flatMap_singleton, singles_several, flatMap_singles hsingle, report_of_two_le htwo]
    rfl

/-- a report of the problems that a list comes to is a flat one -/
theorem Flattened.of_collect_eq (h : collect ps = report (ps.flatMap singles)) : Flattened ps where
  nothing := by rw [h, report_eq_ok_iff]
  alone := by
    intro p hp
    rw [h, hp]
    rfl
  together := by
    intro htwo
    rw [h, report_of_two_le htwo]
  flat := by
    intro qs hqs q hq
    rw [h] at hqs
    have hparts : qs = ps.flatMap singles := parts_of_report (fun _ => single_of_mem_flatMap) hqs
    exact single_of_mem_flatMap (hparts ▸ hq)
  counted := by
    intro p hp
    rw [h] at hp
    exact count_of_report (fun _ => single_of_mem_flatMap) hp
  again := by rw [h, collect, flatMap_parts_found fun _ => single_of_mem_flatMap]

/-- a list that has a flat report is shallow -/
theorem Flattened.shallow (h : Flattened ps) : Shallow ps := by
  have hcomes := flatMap_singles_flatMap_parts ps
  rcases hparts : ps.flatMap parts with _ | ⟨p, _ | ⟨p', rest⟩⟩
  · exact .inl (hparts ▸ nofun)
  · -- one part, which is the report: a problem, or a list that was given inside a list
    have hcollect : collect ps = .error p := by rw [collect, hparts, report]
    cases p with
    | several qs =>
      have hsingle : ∀ q ∈ qs, q.Single := h.flat qs hcollect
      rw [hparts, List.flatMap_singleton, singles_several, flatMap_singles hsingle] at hcomes
      refine .inr ⟨qs, hparts, ?_, hsingle⟩
      rcases qs with _ | ⟨q, _ | ⟨q', rest⟩⟩
      · rw [h.nothing.2 hcomes.symm] at hcollect
        cases hcollect
      · rw [h.alone q hcomes.symm] at hcollect
        exact absurd (Except.error.inj hcollect) (hsingle q List.mem_cons_self _)
      · simp
    | invalid message hint => exact .inl (hparts ▸ List.forall_mem_singleton.2 (single_invalid message hint))
    | missing setting context source =>
      exact .inl (hparts ▸ List.forall_mem_singleton.2 (single_missing setting context source))
  · exact .inl (hparts ▸ h.flat _ (by rw [collect, hparts, report_of_two_le (by simp)]))

/-! ## Main result -/

/-- **Which lists are reported flat.** Whatever lists of problems are collected, the report has all problems in them,
once and in their order. It is nothing, the only problem or one list of problems that are no lists, and stays what it is
when it is collected again, exactly when the lists that are given are shallow. -/
theorem flattened_iff_shallow (ps : List Problem) :
    (found (collect ps)).flatMap singles = ps.flatMap singles ∧ (Flattened ps ↔ Shallow ps) := by
  constructor
  · exact flatMap_singles_found ps
  · constructor
    · exact Flattened.shallow
    · intro h
      have hcollect : collect ps = report (ps.flatMap singles) := h.collect_eq
      exact .of_collect_eq hcollect

/-- a list that is all there is in another is taken out of it, as long as it has two problems -/
example : collect [.several [.several [.invalid "1" "fix", .invalid "2" "fix"]]] =
    .error (.several [.invalid "1" "fix", .invalid "2" "fix"]) := rfl

/-- two problems in a list, beside a third one in the list around it -/
def nested : List Problem :=
  [.several [.several [.invalid "1" "fix", .invalid "2" "fix"], .invalid "3" "fix"]]

/-- **A list in a list is kept.** Three problems are counted as two, one of which is a list; and where there is no
problem at all, an empty list in a list is reported as an error. -/
theorem list_in_list_kept :
    collect nested = .error (.several [.several [.invalid "1" "fix", .invalid "2" "fix"], .invalid "3" "fix"]) ∧
      (nested.flatMap singles).length = 3 ∧ ¬ Flattened nested ∧
      collect [.several [.several []]] = .error (.several []) ∧ ¬ Flattened [.several [.several []]] := by
  have hnested : ¬ Flattened nested := by
    intro h
    exact absurd rfl (h.flat _ rfl _ List.mem_cons_self [.invalid "1" "fix", .invalid "2" "fix"])
  have hempty : ¬ Flattened [.several [.several []]] := by
    intro h
    cases h.nothing.2 rfl
  exact ⟨rfl, rfl, hnested, rfl, hempty⟩

end Problem

end QuorumGateway
