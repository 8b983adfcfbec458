import Mathlib.Data.String.Basic
import Mathlib.Tactic
import QuorumGateway.SortedMap
/-!
What a finite map holds after puts. A map stays in ascending order (`ascending_put`), so it holds each key once, and
looking a key up is membership (`get?_eq_some_iff`). The map of a list of pairs has the keys of the list, each with the
value of its last pair (`get?_ofPairs`).
-/

namespace QuorumGateway.SortedMap

variable {α : Type} {m : SortedMap α} {key k : String} {value v : α}

/-! ## Putting -/

theorem mem_put {p : String × α} (h : p ∈ put key value m) : p = (key, value) ∨ p ∈ m := by
  induction m with
  | nil => simpa [put] using h
  | cons q rest ih =>
    obtain ⟨k', v'⟩ := q
    simp only [put] at h
    split_ifs at h with hlt heq
    · simpa using h
    · rcases List.mem_cons.1 h with h | h
      · exact .inl h
      · exact .inr (List.mem_cons_of_mem _ h)
    · rcases List.mem_cons.1 h with h | h
      · exact .inr (h ▸ List.mem_cons_self)
      · exact (ih h).imp id (List.mem_cons_of_mem _)

theorem ascending_put (key : String) (value : α) (hm : m.Ascending) : (put key value m).Ascending := by
  unfold Ascending keys at hm ⊢
  induction m with
  | nil => simp [put]
  | cons q rest ih =>
    obtain ⟨k', v'⟩ := q
    obtain ⟨hhead, hrest⟩ := List.pairwise_cons.1 hm
    simp only [put]
    split_ifs with hlt heq
    · refine List.pairwise_cons.2 ⟨fun x hx => ?_, hm⟩
      rcases List.mem_cons.1 hx with rfl | hx
      · exact hlt
      · exact hlt.trans (hhead x hx)
    · exact List.pairwise_cons.2 ⟨fun x hx => heq ▸ hhead x hx, hrest⟩
    · refine List.pairwise_cons.2 ⟨fun x hx => ?_, ih hrest⟩
      obtain ⟨p, hp, rfl⟩ := List.mem_map.1 hx
      rcases mem_put hp with rfl | hp
      · exact lt_of_le_of_ne (not_lt.1 hlt) (Ne.symm heq)
      · exact hhead _ (List.mem_map_of_mem hp)

/-! ## Looking up -/

theorem Ascending.nodup_keys (hm : m.Ascending) : m.keys.Nodup := hm.imp fun h => h.ne

theorem mem_of_get? (h : m.get? k = some v) : (k, v) ∈ m := by
  induction m with
  | nil => cases h
  | cons q rest ih =>
    obtain ⟨k', v'⟩ := q
    rw [get?] at h
    split_ifs at h with heq
    · cases h
      exact heq ▸ List.mem_cons_self
    · exact List.mem_cons_of_mem _ (ih h)

theorem get?_eq_some_iff (hm : m.Ascending) : m.get? k = some v ↔ (k, v) ∈ m := by
  induction m with
  | nil => simp [get?]
  | cons q rest ih =>
    obtain ⟨k', v'⟩ := q
    obtain ⟨hhead, hrest⟩ := List.pairwise_cons.1 hm
    simp only [get?, List.mem_cons, Prod.mk.injEq]
    split_ifs with heq
    · subst heq
      constructor
      · intro h
        exact .inl ⟨rfl, (Option.some.inj h).symm⟩
      · rintro (⟨-, rfl⟩ | hmem)
        · rfl
        · exact absurd (hhead k' (List.mem_map_of_mem hmem)) (lt_irrefl k')
    · rw [ih hrest]
      constructor
      · exact .inr
      · rintro (⟨rfl, -⟩ | hmem)
        · exact absurd rfl heq
        · exact hmem

/-- maps in which every key stands for the same value are the same -/
theorem Ascending.ext {m' : SortedMap α} (hm : m.Ascending) (hm' : m'.Ascending) (h : ∀ k, m.get? k = m'.get? k) :
    m = m' := by
  have hperm : m.Perm m' := by
    refine (List.perm_ext_iff_of_nodup hm.nodup_keys.of_map hm'.nodup_keys.of_map).2 fun p => ?_
    rw [← get?_eq_some_iff hm, h, get?_eq_some_iff hm']
  exact hperm.eq_of_pairwise (fun p q _ _ hlt hgt => absurd hgt hlt.not_gt) (List.pairwise_map.1 hm)
    (List.pairwise_map.1 hm')

/-! ## The map of a list of pairs -/

theorem ofPairs_concat (pairs : List (String × α)) (p : String × α) :
    ofPairs (pairs ++ [p]) = put p.1 p.2 (ofPairs pairs) := by
  simp [ofPairs, List.foldl_append]

theorem ascending_ofPairs (pairs : List (String × α)) : (ofPairs pairs).Ascending := by
  induction pairs using List.reverseRecOn with
  | nil => exact List.Pairwise.nil
  | append_singleton pairs p ih =>
    rw [ofPairs_concat]
    exact ascending_put p.1 p.2 ih

/-- a key stands for the value of its last pair -/
theorem get?_ofPairs (pairs : List (String × α)) (k : String) :
    (ofPairs pairs).get? k = ((pairs.filter fun p => p.1 = k).getLast?).map Prod.snd := by
  induction pairs using List.reverseRecOn with
  | nil => rfl
  | append_singleton pairs p ih =>
    rw [ofPairs_concat, List.filter_append]
    by_cases hk : p.1 = k
    · simp [← hk, get?_put_self]
    · simp [get?_put_of_ne _ _ hk, hk, ih]

theorem exists_get?_ofPairs {pairs : List (String × α)} (h : (k, v) ∈ pairs) :
    ∃ w, (ofPairs pairs).get? k = some w := by
  rw [get?_ofPairs]
  have hne : (pairs.filter fun p => p.1 = k) ≠ [] := List.ne_nil_of_mem (List.mem_filter.2 ⟨h, by simp⟩)
  exact ⟨_, by rw [List.getLast?_eq_some_getLast hne]; rfl⟩

theorem mem_of_mem_ofPairs {pairs : List (String × α)} {p : String × α} (h : p ∈ ofPairs pairs) : p ∈ pairs := by
  induction pairs using List.reverseRecOn with
  | nil => exact h
  | append_singleton pairs q ih =>
    rw [ofPairs_concat] at h
    rcases mem_put h with rfl | h
    · exact List.mem_append_right _ List.mem_cons_self
    · exact List.mem_append_left _ (ih h)

theorem mem_keys_ofPairs {pairs : List (String × α)} : k ∈ (ofPairs pairs).keys ↔ k ∈ pairs.map Prod.fst := by
  constructor
  · intro hk
    obtain ⟨p, hp, rfl⟩ := List.mem_map.1 hk
    exact List.mem_map_of_mem (mem_of_mem_ofPairs hp)
  · intro hk
    obtain ⟨p, hp, rfl⟩ := List.mem_map.1 hk
    obtain ⟨w, hw⟩ := exists_get?_ofPairs (k := p.1) (v := p.2) hp
    exact List.mem_map.2 ⟨(p.1, w), mem_of_get? hw, rfl⟩

/-- the map of a list of pairs has one pair for each of their keys -/
theorem length_ofPairs (pairs : List (String × α)) : (ofPairs pairs).length = (pairs.map Prod.fst).dedup.length := by
  have hperm : (ofPairs pairs).keys.Perm (pairs.map Prod.fst).dedup :=
    (List.perm_ext_iff_of_nodup (ascending_ofPairs pairs).nodup_keys (List.nodup_dedup _)).2 fun k => by
      rw [mem_keys_ofPairs, List.mem_dedup]
  rw [← hperm.length_eq, keys, List.length_map]

/-- a new key only adds its pair -/
theorem put_perm (h : key ∉ m.keys) : (put key value m).Perm ((key, value) :: m) := by
  unfold keys at h
  induction m with
  | nil => exact .refl _
  | cons q rest ih =>
    obtain ⟨k', v'⟩ := q
    obtain ⟨hne, hrest⟩ := not_or.1 (mt List.mem_cons.2 h)
    simp only [put]
    split_ifs with hlt
    · exact .refl _
    · exact ((ih hrest).cons _).trans (.swap _ _ _)

/-- the map of a list of pairs with different keys holds these pairs -/
theorem ofPairs_perm {pairs : List (String × α)} (h : (pairs.map Prod.fst).Nodup) : (ofPairs pairs).Perm pairs := by
  induction pairs using List.reverseRecOn with
  | nil => exact .refl _
  | append_singleton pairs p ih =>
    rw [List.map_append, List.map_singleton] at h
    obtain ⟨hpairs, -, hfresh⟩ := List.nodup_append.1 h
    have hperm := ih hpairs
    have hnew : p.1 ∉ (ofPairs pairs).keys := fun hmem =>
      hfresh p.1 ((hperm.map Prod.fst).subset hmem) p.1 List.mem_cons_self rfl
    rw [ofPairs_concat]
    exact (put_perm hnew).trans ((hperm.cons p).trans (List.perm_append_singleton p pairs).symm)

theorem put_of_forall_lt (h : ∀ k ∈ m.keys, k < key) : put key value m = m ++ [(key, value)] := by
  unfold keys at h
  induction m with
  | nil => rfl
  | cons q rest ih =>
    obtain ⟨k', v'⟩ := q
    have hlt : k' < key := h k' List.mem_cons_self
    simp only [put]
    rw [if_neg hlt.not_gt, if_neg hlt.ne', ih fun k hk => h k (List.mem_cons_of_mem _ hk), List.cons_append]

/-- pairs in ascending order are a map already -/
theorem Ascending.ofPairs_eq (hm : m.Ascending) : ofPairs m = m := by
  induction m using List.reverseRecOn with
  | nil => rfl
  | append_singleton m p ih =>
    unfold Ascending keys at hm ih
    rw [List.map_append, List.pairwise_append] at hm
    obtain ⟨hfront, -, hlast⟩ := hm
    rw [ofPairs_concat, ih hfront, put_of_forall_lt]
    intro k hk
    exact hlast k hk p.1 (by simp)

end QuorumGateway.SortedMap
