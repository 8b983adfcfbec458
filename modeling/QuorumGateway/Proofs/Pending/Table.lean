import Mathlib.Tactic
import QuorumGateway.Pending
/-!
What the operations do to the table of open requests, one lemma for each. As long as no two open requests have one key
(`Distinct`), taking requests out of the table loses none: the requests before are, up to their order, those that are
left and those that were handed out (`perm_erase`, `perm_expire`), and so are their callbacks.

- `register_ok`: a registration adds one request at the end, under a key that was free.
- `record_cases`: a response finds no request, or is kept, or settles the request.
- `entries_erase`, `entries_expire`: what is left after an eviction and after an expiry.
- `callbacks_record`, `callbacks_evict`, `callbacks_expire`, `callbacks_failAll`: no callback is lost or handed out
  twice.
-/

namespace QuorumGateway.Pending

/-- a request with the responses it has after one more -/
def Entry.answered (e : Entry) (node : String) (response : Message) : Entry :=
  { e with responses := SortedMap.put (Text.lower node) response e.responses }

namespace Table

variable {t t' : Table} {key : RequestKey} {e : Entry}

/-- no two open requests have one key -/
def Distinct (t : Table) : Prop := (t.entries.map Entry.key).Nodup

/-- the callbacks of the open requests -/
def callbacks (t : Table) : List Nat := t.entries.map Entry.callback

theorem distinct_empty : Distinct empty := List.nodup_nil

theorem mem_callbacks {c : Nat} : c ∈ t.callbacks ↔ ∃ e ∈ t.entries, e.callback = c := List.mem_map

/-! ## Looking up -/

theorem mem_of_find? (h : t.find? key = some e) : e ∈ t.entries := List.mem_of_find?_eq_some h

theorem key_of_find? (h : t.find? key = some e) : e.key = key := by
  simpa using List.find?_some h

theorem find?_eq_none_iff : t.find? key = none ↔ ∀ e ∈ t.entries, e.key ≠ key := by
  simp [find?, List.find?_eq_none]

theorem Distinct.eq_of_key (hd : t.Distinct) {e' : Entry} (he : e ∈ t.entries) (he' : e' ∈ t.entries)
    (hk : e.key = e'.key) : e = e' :=
  List.inj_on_of_nodup_map hd he he' hk

theorem Distinct.find?_eq_some_iff (hd : t.Distinct) : t.find? key = some e ↔ e ∈ t.entries ∧ e.key = key := by
  constructor
  · intro h
    exact ⟨mem_of_find? h, key_of_find? h⟩
  · rintro ⟨he, rfl⟩
    cases hf : t.find? e.key with
    | none => exact absurd rfl (find?_eq_none_iff.1 hf e he)
    | some e' => rw [hd.eq_of_key (mem_of_find? hf) he (key_of_find? hf)]

theorem contains_eq_false_iff : t.contains key = false ↔ ∀ e ∈ t.entries, e.key ≠ key := by
  rw [← find?_eq_none_iff]
  simp [contains]

/-! ## Erasing -/

/-- erasing a key filters it out, whether or not it was there -/
theorem entries_erase : (t.erase key).entries = t.entries.filter fun e => e.key ≠ key := by
  unfold erase
  split_ifs with h
  · rfl
  · have hnone := contains_eq_false_iff.1 (Bool.eq_false_iff.2 h)
    exact (List.filter_eq_self.2 fun e he => by simpa using hnone e he).symm

theorem mem_erase : e ∈ (t.erase key).entries ↔ e ∈ t.entries ∧ e.key ≠ key := by
  simp [entries_erase]

theorem Distinct.erase (hd : t.Distinct) (key : RequestKey) : (t.erase key).Distinct := by
  unfold Distinct
  rw [entries_erase]
  exact hd.sublist ((List.filter_sublist).map _)

theorem erase_of_find?_none (h : t.find? key = none) : t.erase key = t := by
  simp [Table.erase, contains, h]

theorem find?_erase_self (t : Table) (key : RequestKey) : (t.erase key).find? key = none :=
  find?_eq_none_iff.2 fun _ he => (mem_erase.1 he).2

/-- what differs in a property from all else in a list is the only one with it -/
theorem filter_eq_singleton {α β : Type} [DecidableEq β] {f : α → β} {l : List α} {a : α} (h : (l.map f).Nodup)
    (ha : a ∈ l) : (l.filter fun x => f x = f a) = [a] := by
  obtain ⟨before, after, rfl⟩ := List.append_of_mem ha
  rw [List.map_append, List.map_cons] at h
  obtain ⟨-, hafter, hdisjoint⟩ := List.nodup_append.1 h
  have hb : ∀ x ∈ before, f x ≠ f a := fun x hx => hdisjoint _ (List.mem_map_of_mem hx) _ List.mem_cons_self
  have ha : ∀ x ∈ after, f x ≠ f a := fun x hx heq => (List.nodup_cons.1 hafter).1 (heq ▸ List.mem_map_of_mem hx)
  rw [List.filter_append, List.filter_cons_of_pos (by simp), List.filter_eq_nil_iff.2 (by simpa using hb),
    List.filter_eq_nil_iff.2 (by simpa using ha)]
  rfl

/-- the requests with a key are the one that is found -/
theorem Distinct.filter_key (hd : t.Distinct) (hf : t.find? key = some e) :
    (t.entries.filter fun x => x.key = key) = [e] := by
  have h := filter_eq_singleton hd (mem_of_find? hf)
  rwa [key_of_find? hf] at h

/-- **Erasing loses nothing**: the requests are the erased one and those that are left -/
theorem perm_erase (hd : t.Distinct) (hf : t.find? key = some e) :
    t.entries.Perm (e :: (t.erase key).entries) := by
  have h := List.filter_append_perm (fun x : Entry => decide (x.key = key)) t.entries
  rw [hd.filter_key hf] at h
  simpa [entries_erase] using h.symm

/-! ## Registering -/

/-- a registration that succeeds -/
theorem register_ok {limits : Limits} {callback deadline : Nat}
    (h : t.register limits key callback deadline = .ok t') :
    t.closed = false ∧ (∀ e ∈ t.entries, e.key ≠ key) ∧
      t'.entries = t.entries ++ [⟨key, callback, [], deadline⟩] ∧ t'.closed = t.closed := by
  unfold register at h
  split_ifs at h with h1 h2 h3 h4
  simp only [Except.ok.injEq] at h
  subst h
  exact ⟨by simpa using h1, contains_eq_false_iff.1 (by simpa using h2), rfl, rfl⟩

theorem Distinct.register {limits : Limits} {callback deadline : Nat} (hd : t.Distinct)
    (h : t.register limits key callback deadline = .ok t') : t'.Distinct := by
  obtain ⟨-, hfree, hentries, -⟩ := register_ok h
  unfold Distinct
  rw [hentries, List.map_append, List.nodup_append]
  refine ⟨hd, by simp, ?_⟩
  rintro k hk k' hk' rfl
  obtain ⟨e, he, rfl⟩ := List.mem_map.1 hk
  exact hfree e he (by simpa using hk')

theorem callbacks_register {limits : Limits} {callback deadline : Nat}
    (h : t.register limits key callback deadline = .ok t') : t'.callbacks = t.callbacks ++ [callback] := by
  obtain ⟨-, -, hentries, -⟩ := register_ok h
  simp [callbacks, hentries]

/-! ## Responses -/

theorem replyTo_eq_some_iff {d : Decision} {reply : Reply} :
    replyTo d = some reply ↔ (∃ m, d = .agreed m ∧ reply = .success m) ∨
      ∃ reason, d = .failed reason ∧ reply = .failure .nodeResponseEncodingError reason := by
  cases d <;> simp [replyTo, eq_comm]

/-- what a response can do: nothing, for want of a request; be kept; settle the request -/
theorem record_cases (t : Table) (q : Quorum) (key : RequestKey) (node : String) (m : Message) :
    (t.find? key = none ∧ t.record q key node m = (t, .unmatched, [])) ∨
    (∃ e, t.find? key = some e ∧ q.decision (e.answered node m).responses = .pending ∧
      t.record q key node m =
        (t.replace (e.answered node m), .recorded (e.answered node m).responses.length, [])) ∨
    (∃ e reply, t.find? key = some e ∧ replyTo (q.decision (e.answered node m).responses) = some reply ∧
      t.record q key node m = (t.erase key, .resolved reply.code, [⟨e.callback, reply⟩])) := by
  unfold record
  cases hf : t.find? key with
  | none => exact .inl ⟨rfl, rfl⟩
  | some e =>
    simp only [Entry.answered]
    cases hq : q.decision (SortedMap.put (Text.lower node) m e.responses) with
    | pending => exact .inr (.inl ⟨e, rfl, hq, rfl⟩)
    | agreed m' => exact .inr (.inr ⟨e, .success m', rfl, by rw [hq]; rfl, rfl⟩)
    | failed reason =>
      exact .inr (.inr ⟨e, .failure .nodeResponseEncodingError reason, rfl, by rw [hq]; rfl, rfl⟩)

theorem mem_replace {entry : Entry} :
    e ∈ (t.replace entry).entries ↔
      (e ∈ t.entries ∧ e.key ≠ entry.key) ∨ (e = entry ∧ ∃ e' ∈ t.entries, e'.key = entry.key) := by
  simp only [replace, List.mem_map]
  constructor
  · rintro ⟨e', he', rfl⟩
    split_ifs with hk
    · exact .inr ⟨rfl, e', he', hk⟩
    · exact .inl ⟨he', hk⟩
  · rintro (⟨he, hk⟩ | ⟨rfl, e', he', hk⟩)
    · exact ⟨e, he, if_neg hk⟩
    · exact ⟨e', he', if_pos hk⟩

theorem find?_replace_self {entry : Entry} (hf : t.find? key = some e) (hkey : entry.key = key) :
    (t.replace entry).find? key = some entry := by
  have hsame : (fun x : Entry => decide ((if x.key = entry.key then entry else x).key = key)) =
      fun x => decide (x.key = key) := by
    funext x
    by_cases hx : x.key = key <;> simp [hx, hkey]
  simp only [replace, find?, List.find?_map, Function.comp_def, hsame]
  have hfound : t.entries.find? (fun x => decide (x.key = key)) = some e := hf
  rw [hfound, Option.map_some, if_pos ((key_of_find? hf).trans hkey.symm)]

theorem keys_replace {entry : Entry} : (t.replace entry).entries.map Entry.key = t.entries.map Entry.key := by
  simp only [replace, List.map_map]
  refine List.map_congr_left fun e _ => ?_
  simp only [Function.comp_apply]
  split_ifs with hk
  · exact hk.symm
  · rfl

/-- a response that takes no request out of the table leaves as many as there were -/
theorem size_record {q : Quorum} {node : String} {m : Message}
    (hstays : (t.record q key node m).2.1.isResolved = false) : (t.record q key node m).1.size = t.size := by
  rcases record_cases t q key node m with ⟨-, h⟩ | ⟨e, -, -, h⟩ | ⟨e, reply, -, -, h⟩
  · rw [h]
  · rw [h]
    exact List.length_map _
  · simp [h, Outcome.isResolved] at hstays

theorem Distinct.replace (hd : t.Distinct) (entry : Entry) : (t.replace entry).Distinct := by
  unfold Distinct
  rw [keys_replace]
  exact hd

/-- a request replaced by one with the same callback keeps all callbacks in their places -/
theorem callbacks_replace (hd : t.Distinct) (he : e ∈ t.entries) {entry : Entry} (hk : entry.key = e.key)
    (hc : entry.callback = e.callback) : (t.replace entry).callbacks = t.callbacks := by
  simp only [callbacks, Table.replace, List.map_map]
  refine List.map_congr_left fun x hx => ?_
  simp only [Function.comp_apply]
  split_ifs with hxk
  · rw [hc, hd.eq_of_key hx he (hxk.trans hk)]
  · rfl

/-! ## Expiring -/

/-- erasing the keys of a list of requests one after the other filters them all out -/
theorem entries_erase_all (l : List Entry) (t : Table) :
    (l.foldl (fun t e => t.erase e.key) t).entries = t.entries.filter fun x => ∀ e ∈ l, x.key ≠ e.key := by
  induction l generalizing t with
  | nil => simp
  | cons e l ih =>
    rw [List.foldl_cons, ih, entries_erase, List.filter_filter]
    refine List.filter_congr fun x _ => ?_
    simp [Bool.and_comm]

theorem Distinct.erase_all (hd : t.Distinct) (l : List Entry) :
    Distinct (l.foldl (fun t e => t.erase e.key) t) := by
  induction l generalizing t with
  | nil => exact hd
  | cons e l ih => exact ih (hd.erase e.key)

/-- what is left after an expiry is what is not overdue -/
theorem entries_expire (hd : t.Distinct) (q : Quorum) (now : Nat) :
    (t.expire q now).1.entries = t.entries.filter fun e => now < e.deadline := by
  simp only [expire, entries_erase_all]
  refine List.filter_congr fun x hx => ?_
  simp only [List.mem_filter, decide_eq_true_eq, decide_eq_decide]
  constructor
  · intro h
    by_contra hlate
    exact h x ⟨hx, by omega⟩ rfl
  · rintro h e ⟨he, hlate⟩ hk
    rw [hd.eq_of_key hx he hk] at h
    omega

theorem Distinct.expire (hd : t.Distinct) (q : Quorum) (now : Nat) : (t.expire q now).1.Distinct :=
  hd.erase_all _

/-- **An expiry loses nothing**: the requests are those that are left and the overdue ones -/
theorem perm_expire (hd : t.Distinct) (q : Quorum) (now : Nat) :
    t.entries.Perm ((t.expire q now).1.entries ++ t.entries.filter fun e => e.deadline ≤ now) := by
  rw [entries_expire hd]
  have h := List.filter_append_perm (fun e : Entry => decide (now < e.deadline)) t.entries
  simpa [← decide_not, not_lt] using h.symm

/-! ## Requests kept -/

/-- the requests of a table were in another one before, under their keys and with their callbacks -/
def Kept (t t' : Table) : Prop := ∀ e' ∈ t'.entries, ∃ e ∈ t.entries, e'.key = e.key ∧ e'.callback = e.callback

theorem kept_record (t : Table) (q : Quorum) (key : RequestKey) (node : String) (m : Message) :
    Kept t (t.record q key node m).1 := by
  rcases record_cases t q key node m with ⟨-, h⟩ | ⟨e, hf, -, h⟩ | ⟨e, reply, -, -, h⟩ <;> rw [h] <;>
    intro e' he'
  · exact ⟨e', he', rfl, rfl⟩
  · rcases mem_replace.1 he' with ⟨he', -⟩ | ⟨rfl, -⟩
    · exact ⟨e', he', rfl, rfl⟩
    · exact ⟨e, mem_of_find? hf, rfl, rfl⟩
  · exact ⟨e', (mem_erase.1 he').1, rfl, rfl⟩

theorem kept_expire {t : Table} (hd : t.Distinct) (q : Quorum) (now : Nat) : Kept t (t.expire q now).1 := by
  intro e he
  rw [entries_expire hd] at he
  exact ⟨e, (List.mem_filter.1 he).1, rfl, rfl⟩

/-! ## Callbacks handed out

Every operation that settles or evicts requests hands out the callbacks that it takes out of the table, each once. -/

theorem Distinct.record (hd : t.Distinct) (q : Quorum) (key : RequestKey) (node : String) (m : Message) :
    (t.record q key node m).1.Distinct := by
  rcases record_cases t q key node m with ⟨-, h⟩ | ⟨e, -, -, h⟩ | ⟨e, reply, -, -, h⟩ <;> rw [h]
  · exact hd
  · exact hd.replace _
  · exact hd.erase key

theorem callbacks_erase (hd : t.Distinct) (hf : t.find? key = some e) :
    t.callbacks.Perm ((t.erase key).callbacks ++ [e.callback]) :=
  ((perm_erase hd hf).map Entry.callback).trans (List.perm_append_singleton _ _).symm

theorem callbacks_record (hd : t.Distinct) (q : Quorum) (key : RequestKey) (node : String) (m : Message) :
    t.callbacks.Perm
      ((t.record q key node m).1.callbacks ++ (t.record q key node m).2.2.map Delivery.callback) := by
  rcases record_cases t q key node m with ⟨-, h⟩ | ⟨e, hf, -, h⟩ | ⟨e, reply, hf, -, h⟩ <;> rw [h]
  · simp
  · have hc : (t.replace (e.answered node m)).callbacks = t.callbacks :=
      callbacks_replace hd (mem_of_find? hf) rfl rfl
    simp [hc]
  · exact callbacks_erase hd hf

theorem callbacks_evict (hd : t.Distinct) (key : RequestKey) :
    t.callbacks.Perm ((t.evict key).1.callbacks ++ (t.evict key).2.toList.map Entry.callback) := by
  unfold evict
  cases hf : t.find? key with
  | none => simp [erase_of_find?_none hf]
  | some e => exact callbacks_erase hd hf

theorem callbacks_expire (hd : t.Distinct) (q : Quorum) (now : Nat) :
    t.callbacks.Perm ((t.expire q now).1.callbacks ++ (t.expire q now).2.map Delivery.callback) := by
  have h := (perm_expire hd q now).map Entry.callback
  simpa [callbacks, expire, timeout, Function.comp_def] using h

theorem callbacks_failAll (t : Table) (code : ErrorCode) (reason : String) :
    t.callbacks.Perm
      ((t.failAll code reason).1.callbacks ++ (t.failAll code reason).2.map Delivery.callback) := by
  simp [callbacks, failAll, Function.comp_def]

end Table

end QuorumGateway.Pending
