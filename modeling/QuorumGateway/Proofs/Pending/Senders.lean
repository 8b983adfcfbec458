import QuorumGateway.Proofs.Pending.Table
/-!
What one sender sees of the table: its own open requests, its own number, and whether the table is closed
(`Table.seenBy`); its callbacks may go by other numbers. Without a cap on all requests together, an operation on a key
of the sender does to what the sender sees just what it does to the table (`register_own`, `record_own`, `erase_own`),
an operation on a key of another sender does nothing to it (`register_other`, `record_other`, `erase_other`), and an
expiry does to it what an expiry does (`expire_seenBy`).
-/

namespace QuorumGateway.Pending

/-- a request whose callback goes by another number -/
def Entry.relabel (f : ℕ → ℕ) (e : Entry) : Entry := { e with callback := f e.callback }

@[simp] theorem Entry.key_relabel (f : ℕ → ℕ) (e : Entry) : (e.relabel f).key = e.key := rfl

/-- a value for a callback that goes by another number -/
def Delivery.relabel (f : ℕ → ℕ) (d : Delivery) : Delivery := { d with callback := f d.callback }

/-! ## Numbers by sender -/

section Counts

variable {sender other : String} {counts : List (String × ℕ)}

theorem countOf_filter (sender : String) (counts : List (String × ℕ)) :
    countOf sender (counts.filter fun p => p.1 = sender) = countOf sender counts := by
  induction counts with
  | nil => rfl
  | cons p rest ih => by_cases hp : p.1 = sender <;> simp [countOf, hp, ih]

theorem countUp_filter (sender : String) (counts : List (String × ℕ)) :
    (countUp sender counts).filter (fun p => p.1 = sender) = countUp sender (counts.filter fun p => p.1 = sender) := by
  induction counts with
  | nil => simp [countUp]
  | cons p rest ih => by_cases hp : p.1 = sender <;> simp [countUp, hp, ih]

theorem countUp_filter_other (hother : other ≠ sender) (counts : List (String × ℕ)) :
    (countUp other counts).filter (fun p => p.1 = sender) = counts.filter fun p => p.1 = sender := by
  induction counts with
  | nil => simp [countUp, hother]
  | cons p rest ih =>
    obtain ⟨s, n⟩ := p
    by_cases hp : s = other
    · simp [countUp, hp, hother]
    · by_cases hs : s = sender <;> simp_all [countUp]

theorem countDown_filter (sender : String) (counts : List (String × ℕ)) :
    (countDown sender counts).filter (fun p => p.1 = sender) =
      countDown sender (counts.filter fun p => p.1 = sender) := by
  induction counts with
  | nil => rfl
  | cons p rest ih =>
    by_cases hp : p.1 = sender
    · by_cases hn : p.2 ≤ 1 <;> simp [countDown, hp, hn]
    · simp [countDown, hp, ih]

theorem countDown_filter_other (hother : other ≠ sender) (counts : List (String × ℕ)) :
    (countDown other counts).filter (fun p => p.1 = sender) = counts.filter fun p => p.1 = sender := by
  induction counts with
  | nil => rfl
  | cons p rest ih =>
    obtain ⟨s, n⟩ := p
    by_cases hp : s = other
    · by_cases hn : n ≤ 1 <;> simp [countDown, hp, hn, hother]
    · by_cases hs : s = sender <;> simp_all [countDown]

end Counts

namespace Table

/-- what a sender sees of the table -/
def seenBy (sender : String) (f : ℕ → ℕ) (t : Table) : Table :=
  ⟨(t.entries.filter fun e => e.key.sender = sender).map (Entry.relabel f), t.counts.filter fun p => p.1 = sender,
    t.closed⟩

variable {sender : String} {f : ℕ → ℕ} {t t' : Table} {key : RequestKey} {limits : Limits}

/-! ## Looking up and erasing -/

theorem find?_seenBy (hkey : key.sender = sender) :
    (t.seenBy sender f).find? key = (t.find? key).map (Entry.relabel f) := by
  simp only [find?, seenBy, List.find?_map, List.find?_filter, Function.comp_def, Entry.key_relabel]
  congr 2
  funext e
  by_cases he : e.key = key <;> simp [he, hkey]

theorem contains_seenBy (hkey : key.sender = sender) : (t.seenBy sender f).contains key = t.contains key := by
  simp [contains, find?_seenBy hkey]

/-- an own request taken out of the table is taken out of what the sender sees -/
theorem erase_own (hkey : key.sender = sender) : (t.erase key).seenBy sender f = (t.seenBy sender f).erase key := by
  unfold erase
  rw [contains_seenBy hkey]
  split_ifs with hopen
  · simp only [seenBy, hkey, countDown_filter, mk.injEq, and_true]
    simp only [List.filter_map, List.filter_filter, Bool.and_comm]
    rfl
  · rfl

theorem erase_other (hkey : key.sender ≠ sender) : (t.erase key).seenBy sender f = t.seenBy sender f := by
  unfold erase
  split_ifs with hopen
  · simp only [seenBy, countDown_filter_other hkey, List.filter_filter, mk.injEq, and_true]
    refine congrArg (List.map _) (List.filter_congr fun e _ => ?_)
    by_cases he : e.key.sender = sender
    · have hne : e.key ≠ key := fun heq => hkey (heq ▸ he)
      simp [he, hne]
    · simp [he]
  · rfl

/-! ## Registering -/

/-- with no cap on all requests together, an own registration is admitted by what the sender sees -/
theorem register_own (hglobal : limits.global = 0) (hkey : key.sender = sender) (callback deadline : ℕ) :
    (t.seenBy sender f).register limits key (f callback) deadline =
      (t.register limits key callback deadline).map (seenBy sender f) := by
  have hclosed : (t.seenBy sender f).closed = t.closed := rfl
  have hcount : countOf key.sender (t.seenBy sender f).counts = countOf key.sender t.counts := by
    rw [hkey]
    exact countOf_filter sender t.counts
  simp only [register, hclosed, contains_seenBy hkey, hcount, hglobal, lt_irrefl, false_and, if_false]
  split_ifs
  · rfl
  · rfl
  · rfl
  · simp [Except.map, seenBy, hkey, countUp_filter, Entry.relabel]

theorem register_other (hkey : key.sender ≠ sender) {callback deadline : ℕ}
    (hok : t.register limits key callback deadline = .ok t') : t'.seenBy sender f = t.seenBy sender f := by
  unfold register at hok
  split_ifs at hok
  cases hok
  simp [seenBy, hkey, countUp_filter_other hkey]

/-! ## Responses -/

theorem filter_replace (entry : Entry) (t : Table) :
    (t.replace entry).entries.filter (fun e => e.key.sender = sender) =
      (t.entries.filter fun e => e.key.sender = sender).map fun e => if e.key = entry.key then entry else e := by
  simp only [replace, List.filter_map]
  refine congrArg (List.map _) (List.filter_congr fun e _ => ?_)
  simp only [Function.comp_apply]
  split_ifs with heq <;> simp [heq]

theorem replace_own {entry : Entry} :
    (t.replace entry).seenBy sender f = (t.seenBy sender f).replace (entry.relabel f) := by
  simp only [seenBy, filter_replace]
  simp only [replace, List.map_map, mk.injEq, and_true]
  refine List.map_congr_left fun e _ => ?_
  by_cases heq : e.key = entry.key <;> simp [heq]

theorem replace_other {entry : Entry} (hkey : entry.key.sender ≠ sender) :
    (t.replace entry).seenBy sender f = t.seenBy sender f := by
  simp only [seenBy, filter_replace]
  simp only [replace, List.map_map, mk.injEq, and_true]
  refine List.map_congr_left fun e he => ?_
  have hown : e.key.sender = sender := by simpa using (List.mem_filter.1 he).2
  have hne : e.key ≠ entry.key := fun heq => hkey (heq ▸ hown)
  simp only [Function.comp_apply, if_neg hne]

theorem record_own (hkey : key.sender = sender) (q : Quorum) (node : String) (m : Message) :
    (t.seenBy sender f).record q key node m =
      ((t.record q key node m).1.seenBy sender f, (t.record q key node m).2.1,
        (t.record q key node m).2.2.map (Delivery.relabel f)) := by
  unfold record
  rw [find?_seenBy hkey]
  cases hf : t.find? key with
  | none => rfl
  | some e =>
    simp only [Option.map_some]
    cases hreply : replyTo (q.decision (SortedMap.put (Text.lower node) m e.responses)) with
    | none => simp only [Entry.relabel, hreply, replace_own, List.map_nil]
    | some reply => simp only [Entry.relabel, hreply, erase_own hkey, Delivery.relabel, List.map_cons, List.map_nil]

theorem record_other (hkey : key.sender ≠ sender) (q : Quorum) (node : String) (m : Message) :
    (t.record q key node m).1.seenBy sender f = t.seenBy sender f := by
  rcases record_cases t q key node m with ⟨-, h⟩ | ⟨e, hf, -, h⟩ | ⟨e, reply, -, -, h⟩ <;> rw [h]
  · exact replace_other (by rw [← key_of_find? hf] at hkey; exact hkey)
  · exact erase_other hkey

/-! ## Expiring and failing -/

theorem erase_all_seenBy (l : List Entry) (t : Table) :
    (l.foldl (fun t e => t.erase e.key) t).seenBy sender f =
      (((l.filter fun e => e.key.sender = sender).map (Entry.relabel f)).foldl (fun t e => t.erase e.key)
        (t.seenBy sender f)) := by
  induction l generalizing t with
  | nil => rfl
  | cons e l ih =>
    by_cases he : e.key.sender = sender
    · simp [he, ih, erase_own he]
    · simp [he, ih, erase_other he]

/-- an expiry does to what a sender sees what an expiry does -/
theorem expire_seenBy (q : Quorum) (now : ℕ) :
    (t.seenBy sender f).expire q now =
      ((t.expire q now).1.seenBy sender f,
        ((t.entries.filter fun e => e.deadline ≤ now).filter fun e => e.key.sender = sender).map fun e =>
          (timeout q e).relabel f) := by
  have hoverdue : (t.seenBy sender f).entries.filter (fun e => e.deadline ≤ now) =
      ((t.entries.filter fun e => e.deadline ≤ now).filter fun e => e.key.sender = sender).map (Entry.relabel f) := by
    simp only [seenBy, List.filter_map, List.filter_filter, Bool.and_comm]
    rfl
  simp only [expire, hoverdue, erase_all_seenBy, List.map_map]
  rfl

/-- failing all requests settles those that a sender sees -/
theorem failAll_seenBy (code : ErrorCode) (reason : String) :
    (t.seenBy sender f).failAll code reason =
      ((t.failAll code reason).1.seenBy sender f,
        (t.entries.filter fun e => e.key.sender = sender).map fun e => ⟨f e.callback, .failure code reason⟩) := by
  simp [failAll, seenBy, Function.comp_def, Entry.relabel]

end Table

end QuorumGateway.Pending
