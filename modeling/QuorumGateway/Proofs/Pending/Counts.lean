import QuorumGateway.Proofs.Pending.Table
/-!
The numbers that the table keeps by sender. They are the numbers of open requests, one for each sender that has any, and
none of them is zero (`Accounted`); every operation keeps it so. Operations other than registrations add no keys
(`keys_record`, `keys_expire`), so a registration is the only way to come nearer to a cap, and it keeps to the caps
(`Accounted.below_caps`).
-/

namespace QuorumGateway.Pending

variable {sender other : String} {counts : List (String × Nat)}

/-! ## Counts by sender -/

theorem countOf_eq_zero (h : sender ∉ counts.map Prod.fst) : countOf sender counts = 0 := by
  induction counts with
  | nil => rfl
  | cons p rest ih =>
    obtain ⟨s, n⟩ := p
    rw [List.map_cons, List.mem_cons, not_or] at h
    rw [countOf, if_neg (Ne.symm h.1)]
    exact ih h.2

/-! ### One more -/

theorem countOf_countUp (sender other : String) (counts : List (String × Nat)) :
    countOf other (countUp sender counts) = countOf other counts + if sender = other then 1 else 0 := by
  induction counts with
  | nil => simp [countUp, countOf]
  | cons p rest ih =>
    obtain ⟨s, n⟩ := p
    by_cases hs : s = sender
    · subst hs
      by_cases ho : s = other <;> simp [countUp, countOf, ho]
    · by_cases ho : s = other
      · subst ho
        simp [countUp, countOf, hs, Ne.symm hs]
      · simp [countUp, countOf, hs, ho, ih]

theorem mem_countUp : other ∈ (countUp sender counts).map Prod.fst ↔ other = sender ∨ other ∈ counts.map Prod.fst := by
  induction counts with
  | nil => simp [countUp]
  | cons p rest ih =>
    obtain ⟨s, n⟩ := p
    by_cases hs : s = sender
    · simp [countUp, hs]
    · simp only [countUp, if_neg hs, List.map_cons, List.mem_cons, ih]
      tauto

theorem nodup_countUp (h : (counts.map Prod.fst).Nodup) : ((countUp sender counts).map Prod.fst).Nodup := by
  induction counts with
  | nil => simp [countUp]
  | cons p rest ih =>
    obtain ⟨s, n⟩ := p
    obtain ⟨hnew, hrest⟩ := List.nodup_cons.1 h
    by_cases hs : s = sender
    · simpa [countUp, hs] using h
    · rw [countUp, if_neg hs, List.map_cons, List.nodup_cons, mem_countUp, not_or]
      exact ⟨⟨hs, hnew⟩, ih hrest⟩

theorem pos_countUp (h : ∀ p ∈ counts, 0 < p.2) : ∀ p ∈ countUp sender counts, 0 < p.2 := by
  induction counts with
  | nil => simp [countUp]
  | cons p rest ih =>
    obtain ⟨s, n⟩ := p
    obtain ⟨hfirst, hrest⟩ := List.forall_mem_cons.1 h
    by_cases hs : s = sender
    · rw [countUp, if_pos hs]
      exact List.forall_mem_cons.2 ⟨Nat.succ_pos n, hrest⟩
    · rw [countUp, if_neg hs]
      exact List.forall_mem_cons.2 ⟨hfirst, ih hrest⟩

/-! ### One less -/

theorem countDown_sublist (sender : String) (counts : List (String × Nat)) :
    ((countDown sender counts).map Prod.fst).Sublist (counts.map Prod.fst) := by
  induction counts with
  | nil => exact .slnil
  | cons p rest ih =>
    obtain ⟨s, n⟩ := p
    by_cases hs : s = sender
    · by_cases hn : n ≤ 1 <;> simp [countDown, hs, hn]
    · simpa [countDown, hs] using ih

theorem countOf_countDown (h : (counts.map Prod.fst).Nodup) :
    countOf other (countDown sender counts) = countOf other counts - if sender = other then 1 else 0 := by
  induction counts with
  | nil => simp [countDown, countOf]
  | cons p rest ih =>
    obtain ⟨s, n⟩ := p
    obtain ⟨hnew, hrest⟩ := List.nodup_cons.1 h
    by_cases hs : s = sender
    · subst hs
      -- a count that comes to zero is dropped, and there is no second one for the sender
      have hzero : countOf s rest = 0 := countOf_eq_zero hnew
      by_cases hn : n ≤ 1
      · by_cases ho : s = other
        · subst ho
          simp [countDown, countOf, hn, hzero]
        · simp [countDown, countOf, hn, ho]
      · by_cases ho : s = other <;> simp [countDown, countOf, hn, ho]
    · by_cases ho : s = other
      · subst ho
        simp [countDown, countOf, hs, Ne.symm hs]
      · simp [countDown, countOf, hs, ho, ih hrest]

theorem pos_countDown (h : ∀ p ∈ counts, 0 < p.2) : ∀ p ∈ countDown sender counts, 0 < p.2 := by
  induction counts with
  | nil => simp [countDown]
  | cons p rest ih =>
    obtain ⟨s, n⟩ := p
    obtain ⟨hfirst, hrest⟩ := List.forall_mem_cons.1 h
    by_cases hs : s = sender
    · by_cases hn : n ≤ 1
      · rw [countDown, if_pos hs, if_pos hn]
        exact hrest
      · rw [countDown, if_pos hs, if_neg hn]
        exact List.forall_mem_cons.2 ⟨by simp only; omega, hrest⟩
    · rw [countDown, if_neg hs]
      exact List.forall_mem_cons.2 ⟨hfirst, ih hrest⟩

namespace Table

variable {t t' : Table} {key : RequestKey}

/-! ## Keys -/

/-- the keys of the open requests -/
def keys (t : Table) : List RequestKey := t.entries.map Entry.key

theorem mem_keys : key ∈ t.keys ↔ ∃ e ∈ t.entries, e.key = key := List.mem_map

theorem keys_register {limits : Limits} {callback deadline : Nat}
    (h : t.register limits key callback deadline = .ok t') : t'.keys = t.keys ++ [key] := by
  obtain ⟨-, -, hentries, -⟩ := register_ok h
  simp [keys, hentries]

theorem keys_erase (t : Table) (key : RequestKey) : (t.erase key).keys.Sublist t.keys := by
  unfold keys
  rw [entries_erase]
  exact List.filter_sublist.map _

theorem keys_record (t : Table) (q : Quorum) (key : RequestKey) (node : String) (m : Message) :
    (t.record q key node m).1.keys.Sublist t.keys := by
  rcases record_cases t q key node m with ⟨-, h⟩ | ⟨e, -, -, h⟩ | ⟨e, reply, -, -, h⟩ <;> rw [h]
  · rw [keys, keys, keys_replace]
  · exact keys_erase t key

theorem keys_expire (t : Table) (q : Quorum) (now : Nat) : (t.expire q now).1.keys.Sublist t.keys := by
  unfold keys expire
  rw [entries_erase_all]
  exact List.filter_sublist.map _

/-! ## The counts are right -/

/-- the table counts the open requests of every sender that has any, and no others -/
structure Accounted (t : Table) : Prop where
  senders : (t.counts.map Prod.fst).Nodup
  pos : ∀ p ∈ t.counts, 0 < p.2
  count : ∀ sender, countOf sender t.counts = t.keys.countP fun k => k.sender = sender

theorem accounted_empty : Accounted empty := ⟨List.nodup_nil, fun _ hp => absurd hp List.not_mem_nil, fun _ => rfl⟩

theorem accounted_failAll (t : Table) (code : ErrorCode) (reason : String) : (t.failAll code reason).1.Accounted :=
  ⟨List.nodup_nil, fun _ hp => absurd hp List.not_mem_nil, fun _ => rfl⟩

theorem Accounted.register {limits : Limits} {callback deadline : Nat} (ha : t.Accounted)
    (h : t.register limits key callback deadline = .ok t') : t'.Accounted := by
  have hkeys := keys_register h
  have hcounts : t'.counts = countUp key.sender t.counts := by
    unfold Table.register at h
    split_ifs at h
    cases h
    rfl
  refine ⟨hcounts ▸ nodup_countUp ha.senders, hcounts ▸ pos_countUp ha.pos, fun sender => ?_⟩
  rw [hcounts, hkeys, countOf_countUp, ha.count, List.countP_append, List.countP_singleton]
  simp

theorem Accounted.erase (ha : t.Accounted) (hd : t.Distinct) (key : RequestKey) : (t.erase key).Accounted := by
  cases hf : t.find? key with
  | none =>
    rw [erase_of_find?_none hf]
    exact ha
  | some e =>
    have hcounts : (t.erase key).counts = countDown key.sender t.counts := by simp [Table.erase, contains, hf]
    have hperm : t.keys.Perm (key :: (t.erase key).keys) := by
      have h := (perm_erase hd hf).map Entry.key
      rwa [List.map_cons, key_of_find? hf] at h
    refine ⟨hcounts ▸ ha.senders.sublist (countDown_sublist _ _), hcounts ▸ pos_countDown ha.pos, fun sender => ?_⟩
    rw [hcounts, countOf_countDown ha.senders, ha.count, hperm.countP_eq, List.countP_cons]
    simp

theorem Accounted.erase_all (ha : t.Accounted) (hd : t.Distinct) (l : List Entry) :
    Accounted (l.foldl (fun t e => t.erase e.key) t) := by
  induction l generalizing t with
  | nil => exact ha
  | cons e l ih => exact ih (ha.erase hd e.key) (hd.erase e.key)

theorem Accounted.record (ha : t.Accounted) (hd : t.Distinct) (q : Quorum) (key : RequestKey) (node : String)
    (m : Message) : (t.record q key node m).1.Accounted := by
  rcases record_cases t q key node m with ⟨-, h⟩ | ⟨e, -, -, h⟩ | ⟨e, reply, -, -, h⟩ <;> rw [h]
  · exact ha
  · refine ⟨ha.senders, ha.pos, fun sender => ?_⟩
    rw [keys, keys_replace]
    exact ha.count sender
  · exact ha.erase hd key

theorem Accounted.expire (ha : t.Accounted) (hd : t.Distinct) (q : Quorum) (now : Nat) : (t.expire q now).1.Accounted :=
  ha.erase_all hd _

/-- **A registration keeps to the caps**: before it there is room for one more request, and for one more of its
sender -/
theorem Accounted.below_caps {limits : Limits} {callback deadline : Nat} (ha : t.Accounted)
    (h : t.register limits key callback deadline = .ok t') :
    (0 < limits.global → t.keys.length < limits.global) ∧
      (0 < limits.perSender → (t.keys.countP fun k => k.sender = key.sender) < limits.perSender) := by
  unfold Table.register at h
  split_ifs at h with _ _ hglobal hsender
  rw [ha.count] at hsender
  have hsize : t.size = t.keys.length := (List.length_map _).symm
  constructor
  · intro hpos
    rw [← hsize]
    omega
  · intro hpos
    omega

end Table

end QuorumGateway.Pending
