import Mathlib.Data.List.Lex
import Mathlib.Data.String.Basic
import Mathlib.Tactic
import QuorumGateway.Metrics
/-!
What counters count. A tally keeps its series in ascending order of their labels (`ascending_add`), so counting once
more adds one to one series and to no other (`get_add`); and so it does to the sum of any of the series (`totalOf_add`).
-/

namespace QuorumGateway.Tally

variable {t : Tally} {labels ls : List String} {p : List String → Bool}

/-- the sum of the series whose labels are picked out -/
def totalOf (p : List String → Bool) (t : Tally) : Nat := ((t.filter fun s => p s.1).map Prod.snd).sum

theorem totalOf_cons (s : List String × Nat) (rest : Tally) :
    totalOf p (s :: rest) = (if p s.1 then s.2 else 0) + totalOf p rest := by
  unfold totalOf
  rw [List.filter_cons]
  split_ifs with hs
  · rw [List.map_cons, List.sum_cons]
  · rw [Nat.zero_add]

theorem totalOf_add : totalOf p (add labels t) = totalOf p t + if p labels then 1 else 0 := by
  induction t with
  | nil =>
    rw [add, totalOf_cons]
    exact Nat.add_comm _ _
  | cons s rest ih =>
    obtain ⟨ls, n⟩ := s
    simp only [add]
    split_ifs with hlt heq <;> simp_all [totalOf_cons] <;> omega

/-- counting adds no series but the one that is counted -/
theorem labels_of_mem_add {s : List String × Nat} (h : s ∈ add labels t) : s.1 = labels ∨ s.1 ∈ t.map Prod.fst := by
  induction t with
  | nil => simp_all [add]
  | cons s' rest ih =>
    obtain ⟨ls, n⟩ := s'
    simp only [add] at h
    split_ifs at h with hlt heq
    · rcases List.mem_cons.1 h with rfl | h
      · exact .inl rfl
      · exact .inr (List.mem_map_of_mem h)
    · rcases List.mem_cons.1 h with rfl | h
      · exact .inl heq.symm
      · exact .inr (List.mem_cons_of_mem _ (List.mem_map_of_mem h))
    · rcases List.mem_cons.1 h with rfl | h
      · exact .inr List.mem_cons_self
      · exact (ih h).imp id (List.mem_cons_of_mem _)

/-- the series stand in ascending order of their labels, each once -/
def Ascending (t : Tally) : Prop := (t.map Prod.fst).Pairwise (· < ·)

theorem ascending_nil : Ascending [] := List.Pairwise.nil

theorem ascending_add (labels : List String) (h : t.Ascending) : (add labels t).Ascending := by
  unfold Ascending at h ⊢
  induction t with
  | nil => simp [add]
  | cons s rest ih =>
    obtain ⟨ls, n⟩ := s
    obtain ⟨hhead, hrest⟩ := List.pairwise_cons.1 h
    simp only [add]
    split_ifs with hlt heq
    · refine List.pairwise_cons.2 ⟨fun x hx => ?_, h⟩
      rcases List.mem_cons.1 hx with rfl | hx
      · exact hlt
      · exact hlt.trans (hhead x hx)
    · exact h
    · refine List.pairwise_cons.2 ⟨fun x hx => ?_, ih hrest⟩
      obtain ⟨s, hs, rfl⟩ := List.mem_map.1 hx
      rcases labels_of_mem_add hs with hnew | hold
      · exact hnew ▸ lt_of_le_of_ne (not_lt.1 hlt) (Ne.symm heq)
      · exact hhead _ hold

theorem get_of_not_mem (h : ls ∉ t.map Prod.fst) : t.get ls = 0 := by
  induction t with
  | nil => rfl
  | cons s rest ih =>
    obtain ⟨ls', n⟩ := s
    obtain ⟨hne, hrest⟩ := not_or.1 (mt List.mem_cons.2 h)
    rw [get, if_neg (Ne.symm hne), ih hrest]

/-- **Counting adds one to one series** and leaves the others alone -/
theorem get_add (h : t.Ascending) : (add labels t).get ls = t.get ls + if labels = ls then 1 else 0 := by
  unfold Ascending at h
  induction t with
  | nil => simp [add, get]
  | cons s rest ih =>
    obtain ⟨ls', n⟩ := s
    obtain ⟨hhead, hrest⟩ := List.pairwise_cons.1 h
    rcases lt_trichotomy labels ls' with hlt | rfl | hgt
    · -- a series before the first one is new
      have hnew : labels ∉ ((ls', n) :: rest).map Prod.fst := by
        intro hmem
        rcases List.mem_cons.1 hmem with heq | hmem
        · exact hlt.ne heq
        · exact lt_irrefl _ (hlt.trans (hhead _ hmem))
      rw [add, if_pos hlt, get]
      split_ifs with hsame
      · rw [← hsame, get_of_not_mem hnew]
      · rfl
    · rw [add, if_neg (lt_irrefl _), if_pos rfl, get, get]
      split_ifs <;> rfl
    · rw [add, if_neg hgt.not_gt, if_neg hgt.ne', get, get, ih hrest]
      split_ifs with hsame hlater
      · exact absurd (hsame.trans hlater.symm) hgt.ne
      · rfl
      · rfl
      · rfl

end QuorumGateway.Tally
