import Mathlib.Data.List.TakeWhile
import Mathlib.Tactic
import QuorumGateway.Text.Blank
/-!
What is left of a text without the blanks around it: the part that neither starts nor ends with a blank and has only
blanks around it, of which there is one (`trimChars_eq_iff`). It is empty exactly when all characters are blanks
(`trim_eq_empty_iff`).
-/

namespace QuorumGateway.Text

variable {cs t before after : List Char}

def AllBlank (cs : List Char) : Prop := ∀ c ∈ cs, isBlank c = true

/-- neither the first nor the last character is a blank -/
def Trimmed (t : List Char) : Prop := (∀ c ∈ t.head?, isBlank c = false) ∧ ∀ c ∈ t.getLast?, isBlank c = false

/-! ## Blanks at the end -/

theorem trimEnd_eq_nil_iff : trimEnd cs = [] ↔ AllBlank cs := by
  unfold AllBlank
  induction cs with
  | nil => simp [trimEnd]
  | cons c cs ih =>
    rw [trimEnd, List.forall_mem_cons, ← ih]
    cases trimEnd cs with
    | nil => by_cases hc : isBlank c = true <;> simp [hc]
    | cons d rest => simp

theorem trimEnd_append (hafter : AllBlank after) : trimEnd (t ++ after) = trimEnd t := by
  induction t with
  | nil => exact trimEnd_eq_nil_iff.2 hafter
  | cons c t ih => rw [List.cons_append, trimEnd, trimEnd, ih]

theorem trimEnd_self (hlast : ∀ c ∈ t.getLast?, isBlank c = false) : trimEnd t = t := by
  induction t with
  | nil => rfl
  | cons c t ih =>
    cases t with
    | nil =>
      have hc : isBlank c = false := hlast c rfl
      simp [trimEnd, hc]
    | cons d rest =>
      rw [trimEnd, ih fun x hx => hlast x (by rwa [List.getLast?_cons_cons])]

theorem exists_trimEnd (cs : List Char) :
    (∀ c ∈ (trimEnd cs).getLast?, isBlank c = false) ∧ ∃ after, AllBlank after ∧ cs = trimEnd cs ++ after := by
  induction cs with
  | nil => exact ⟨nofun, [], nofun, rfl⟩
  | cons c cs ih =>
    obtain ⟨hlast, after, hafter, hsplit⟩ := ih
    rw [trimEnd]
    cases hrest : trimEnd cs with
    | nil =>
      have hblank : AllBlank cs := trimEnd_eq_nil_iff.1 hrest
      by_cases hc : isBlank c = true
      · rw [if_pos hc]
        exact ⟨nofun, c :: cs, List.forall_mem_cons.2 ⟨hc, hblank⟩, rfl⟩
      · rw [if_neg hc]
        exact ⟨by simpa using hc, cs, hblank, rfl⟩
    | cons d rest =>
      rw [hrest] at hlast hsplit
      exact ⟨by rwa [List.getLast?_cons_cons], after, hafter, by rw [hsplit]; rfl⟩

/-! ## Blanks at both ends -/

theorem dropWhile_append (hbefore : AllBlank before) (hhead : ∀ c ∈ t.head?, isBlank c = false)
    (hafter : AllBlank after) : trimEnd ((before ++ t ++ after).dropWhile isBlank) = trimEnd (t ++ after) := by
  rw [List.append_assoc, List.dropWhile_append_of_pos hbefore]
  cases t with
  | nil =>
    have hall : after.dropWhile isBlank = [] := List.dropWhile_eq_nil_iff.2 hafter
    rw [List.nil_append, hall, trimEnd_eq_nil_iff.2 hafter]
    rfl
  | cons c t => rw [List.cons_append, List.dropWhile_cons_of_neg (by simpa using hhead)]

/-- **The text without the blanks around it** -/
theorem trimChars_eq_iff :
    trimChars cs = t ↔
      Trimmed t ∧ ∃ before after, AllBlank before ∧ AllBlank after ∧ cs = before ++ t ++ after := by
  constructor
  · rintro rfl
    obtain ⟨hlast, after, hafter, hsplit⟩ := exists_trimEnd (cs.dropWhile isBlank)
    refine ⟨⟨fun c hc => ?_, hlast⟩, cs.takeWhile isBlank, after, fun c => List.mem_takeWhile_imp, hafter, ?_⟩
    · -- the first character that is kept is the first that was not dropped
      have hfirst : c ∈ (cs.dropWhile isBlank).head? := by
        rw [hsplit]
        exact List.mem_head?_append_of_mem_head? hc
      have hdropped := List.head?_dropWhile_not isBlank cs
      rw [Option.mem_def.1 hfirst] at hdropped
      simpa using hdropped
    · rw [List.append_assoc, trimChars, ← hsplit, List.takeWhile_append_dropWhile]
  · rintro ⟨⟨hhead, hlast⟩, before, after, hbefore, hafter, rfl⟩
    rw [trimChars, dropWhile_append hbefore hhead hafter, trimEnd_append hafter, trimEnd_self hlast]

theorem trim_eq_empty_iff {s : String} : trim s = "" ↔ allBlank s = true := by
  rw [← String.toList_inj, trim, String.toList_ofList, allBlank, List.all_eq_true, trimChars, String.toList_empty,
    trimEnd_eq_nil_iff]
  constructor
  · intro h c hc
    rw [← List.takeWhile_append_dropWhile (p := isBlank) (l := s.toList), List.mem_append] at hc
    rcases hc with hc | hc
    · exact List.mem_takeWhile_imp hc
    · exact h c hc
  · intro h c hc
    exact h c ((List.dropWhile_suffix isBlank).subset hc)

end QuorumGateway.Text
