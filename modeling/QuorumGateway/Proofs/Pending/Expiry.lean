import QuorumGateway.Proofs.Pending.Accounts
import QuorumGateway.Proofs.Pending.Hearing
/-!
Requests that run out of time. An expiry takes the overdue requests out of the table one by one, in no particular order.
The order makes no difference: taking out one request and then another leaves the same table, counts included, as the
other way round (`erase_comm`). So an expiry is given by the requests it takes out (`expire_of_perm`), and a later
expiry takes out what an earlier one has taken, and more (`overdue_perm`).

- `expiry_exact`: an expiry settles the overdue requests and no others, tells each how many nodes have answered it, and
  makes room for as many new requests; two expiries, one after the other, do what the later one does by itself.
-/

namespace QuorumGateway.Pending

/-! ## The order of removals -/

theorem countDown_comm (sender other : String) (counts : List (String × Nat)) :
    countDown other (countDown sender counts) = countDown sender (countDown other counts) := by
  induction counts with
  | nil => rfl
  | cons p rest ih =>
    obtain ⟨s, n⟩ := p
    by_cases hsame : sender = other
    · rw [hsame]
    · by_cases hs : s = sender
      · have ho : s ≠ other := fun h => hsame (hs.symm.trans h)
        by_cases hn : n ≤ 1 <;> simp [countDown, hs, hs ▸ ho, hn]
      · by_cases ho : s = other
        · by_cases hn : n ≤ 1 <;> simp [countDown, ho, ho ▸ hs, hn]
        · simp [countDown, hs, ho, ih]

namespace Table

variable {t : Table} {key other : RequestKey} {e : Entry} {gone gone' : List RequestKey}

theorem contains_erase (t : Table) (key other : RequestKey) :
    (t.erase key).contains other = (t.contains other && decide (other ≠ key)) := by
  rw [Bool.eq_iff_iff]
  simp only [contains_iff_mem_keys, mem_keys, mem_erase, Bool.and_eq_true, decide_eq_true_eq]
  constructor
  · rintro ⟨e, ⟨he, hne⟩, rfl⟩
    exact ⟨⟨e, he, rfl⟩, hne⟩
  · rintro ⟨⟨e, he, rfl⟩, hne⟩
    exact ⟨e, ⟨he, hne⟩, rfl⟩

theorem erase_of_contains (h : t.contains key = true) :
    t.erase key =
      { t with entries := t.entries.filter fun e => e.key ≠ key, counts := countDown key.sender t.counts } :=
  if_pos h

theorem erase_of_not_contains (h : ¬ t.contains key = true) : t.erase key = t := if_neg h

theorem erase_comm (t : Table) (key other : RequestKey) : (t.erase key).erase other = (t.erase other).erase key := by
  by_cases hsame : key = other
  · rw [hsame]
  have hkey : (t.erase other).contains key = t.contains key := by simp [contains_erase, hsame]
  have hother : (t.erase key).contains other = t.contains other := by simp [contains_erase, Ne.symm hsame]
  by_cases hk : t.contains key = true
  · by_cases ho : t.contains other = true
    · rw [erase_of_contains (hother.trans ho), erase_of_contains (hkey.trans hk), erase_of_contains hk,
        erase_of_contains ho]
      simp only [List.filter_filter, countDown_comm other.sender, Bool.and_comm]
    · rw [erase_of_not_contains (t := t.erase key) (by rwa [hother]), erase_of_not_contains ho]
  · rw [erase_of_not_contains (t := t.erase other) (by rwa [hkey]), erase_of_not_contains hk]

theorem erase_perm (h : gone.Perm gone') (t : Table) : gone.foldl Table.erase t = gone'.foldl Table.erase t :=
  h.foldl_eq' (fun key _ other _ t => erase_comm t key other) t

/-! ## Overdue requests -/

def overdue (t : Table) (now : Nat) : List Entry := t.entries.filter fun e => e.deadline ≤ now

theorem mem_overdue {now : Nat} : e ∈ t.overdue now ↔ e ∈ t.entries ∧ e.deadline ≤ now := by
  simp [overdue]

theorem delivered_expire (t : Table) (q : Quorum) (now : Nat) :
    (t.expire q now).2 = (t.overdue now).map (timeout q) := rfl

/-- an expiry takes out the overdue requests, in any order -/
theorem expire_of_perm (q : Quorum) {now : Nat} (h : gone.Perm ((t.overdue now).map Entry.key)) :
    (t.expire q now).1 = gone.foldl Table.erase t := by
  rw [erase_perm h, List.foldl_map]
  rfl

theorem keys_perm_expire (hd : t.Distinct) (q : Quorum) (now : Nat) :
    t.keys.Perm ((t.expire q now).1.keys ++ (t.overdue now).map Entry.key) := by
  have h := (perm_expire hd q now).map Entry.key
  rwa [List.map_append] at h

/-- the open requests of a sender are those that an expiry leaves and those that it takes out -/
theorem openOf_expire (hd : t.Distinct) (q : Quorum) (now : Nat) (sender : String) :
    t.openOf sender = (t.expire q now).1.openOf sender + (t.overdue now).countP fun e => e.key.sender = sender := by
  rw [openOf, (keys_perm_expire hd q now).countP_eq, List.countP_append, List.countP_map]
  rfl

/-! ## Two expiries -/

/-- what is overdue at a later instant was overdue at the earlier one, or is among what was left then -/
theorem overdue_perm (hd : t.Distinct) (q : Quorum) {early late : Nat} (h : early ≤ late) :
    (t.overdue early ++ (t.expire q early).1.overdue late).Perm (t.overdue late) := by
  have hboth : t.overdue early = (t.overdue late).filter fun e => e.deadline ≤ early := by
    rw [overdue, overdue, List.filter_filter]
    refine List.filter_congr fun e _ => ?_
    rw [← Bool.decide_and, decide_eq_decide]
    omega
  have hleft : (t.expire q early).1.overdue late = (t.overdue late).filter fun e => !decide (e.deadline ≤ early) := by
    rw [overdue, overdue, entries_expire hd, List.filter_filter, List.filter_filter]
    refine List.filter_congr fun e _ => ?_
    rw [← decide_not, ← Bool.decide_and, ← Bool.decide_and, decide_eq_decide]
    omega
  rw [hboth, hleft]
  exact List.filter_append_perm _ _

/-- what two expiries do, one after the other -/
structure Composes (q : Quorum) (t : Table) (early late : Nat) : Prop where
  table : ((t.expire q early).1.expire q late).1 = (t.expire q late).1
  deliveries : ((t.expire q early).2 ++ ((t.expire q early).1.expire q late).2).Perm (t.expire q late).2
  number : (t.expire q early).2.length + ((t.expire q early).1.expire q late).2.length = (t.expire q late).2.length
  /-- nothing that was overdue is left for another expiry -/
  again : ∀ now ≤ late, (t.expire q late).1.expire q now = ((t.expire q late).1, [])

theorem composes (hd : t.Distinct) (q : Quorum) {early late : Nat} (h : early ≤ late) : Composes q t early late := by
  have hperm := overdue_perm hd q h
  have hdeliveries : ((t.expire q early).2 ++ ((t.expire q early).1.expire q late).2).Perm (t.expire q late).2 := by
    simpa only [delivered_expire, List.map_append] using hperm.map (timeout q)
  refine ⟨?_, hdeliveries, ?_, fun now hnow => ?_⟩
  · calc ((t.expire q early).1.expire q late).1
        = (((t.expire q early).1.overdue late).map Entry.key).foldl Table.erase (t.expire q early).1 :=
          expire_of_perm q (.refl _)
      _ = (((t.overdue early).map Entry.key) ++ ((t.expire q early).1.overdue late).map Entry.key).foldl
            Table.erase t := by
          rw [List.foldl_append, expire_of_perm q (.refl ((t.overdue early).map Entry.key))]
      _ = (t.expire q late).1 := by
          refine (expire_of_perm q ?_).symm
          rw [← List.map_append]
          exact hperm.map Entry.key
  · rw [← List.length_append, hdeliveries.length_eq]
  · have hnone : (t.expire q late).1.overdue now = [] := by
      rw [overdue, entries_expire hd, List.filter_filter, List.filter_eq_nil_iff]
      intro e _
      rw [← Bool.decide_and, decide_eq_true_eq]
      omega
    have hsame : ((t.expire q late).1.expire q now).1 = (t.expire q late).1 := by
      rw [expire_of_perm q (.refl _), hnone]
      rfl
    have hquiet : ((t.expire q late).1.expire q now).2 = [] := by
      rw [delivered_expire, hnone]
      rfl
    exact Prod.ext hsame hquiet

end Table

namespace Fates

variable {q : Quorum} {limits : Limits} {t t' : Table} {s : State} {fresh : List (RequestKey × Nat)}

/-! ## Room for new requests -/

/-- room in a table for requests with some keys and deadlines -/
structure Room (limits : Limits) (t : Table) (fresh : List (RequestKey × Nat)) : Prop where
  nodup : (fresh.map Prod.fst).Nodup
  free : ∀ p ∈ fresh, p.1 ∉ t.keys
  global : 0 < limits.global → t.keys.length + fresh.length ≤ limits.global
  perSender : 0 < limits.perSender → ∀ sender,
    (t.openOf sender + fresh.countP fun p => p.1.sender = sender) ≤ limits.perSender

/-- where there is room for a request, it is registered -/
theorem Room.admits {p : RequestKey × Nat} (hr : Room limits t (p :: fresh)) (ha : t.Accounted)
    (hopen : t.closed = false) (callback : Nat) : ∃ t', t.register limits p.1 callback p.2 = .ok t' := by
  have hfree : ¬ t.contains p.1 = true := fun h => hr.free p List.mem_cons_self (Table.contains_iff_mem_keys.1 h)
  have hglobal : ¬ (0 < limits.global ∧ limits.global ≤ t.size) := by
    rintro ⟨hpos, hfull⟩
    have hroom := hr.global hpos
    rw [Table.size_eq_length_keys] at hfull
    rw [List.length_cons] at hroom
    omega
  have hsender : ¬ (0 < limits.perSender ∧ limits.perSender ≤ countOf p.1.sender t.counts) := by
    rintro ⟨hpos, hfull⟩
    have hroom := hr.perSender hpos p.1.sender
    rw [ha.count] at hfull
    rw [List.countP_cons_of_pos (by simp), Table.openOf] at hroom
    omega
  exact ⟨_, by rw [Table.register, if_neg (by simp [hopen]), if_neg hfree, if_neg hglobal, if_neg hsender]⟩

theorem Room.tail {p : RequestKey × Nat} (hr : Room limits t (p :: fresh)) {callback : Nat}
    (hok : t.register limits p.1 callback p.2 = .ok t') : Room limits t' fresh := by
  obtain ⟨hnew, hnodup⟩ := List.nodup_cons.1 hr.nodup
  refine ⟨hnodup, fun p' hp' hmem => ?_, fun hpos => ?_, fun hpos sender => ?_⟩
  · rw [Table.keys_register hok, List.mem_append, List.mem_singleton] at hmem
    rcases hmem with hmem | heq
    · exact hr.free p' (List.mem_cons_of_mem _ hp') hmem
    · exact hnew (heq ▸ List.mem_map_of_mem hp')
  · have hroom := hr.global hpos
    rw [Table.keys_register hok, List.length_append, List.length_singleton]
    rw [List.length_cons] at hroom
    omega
  · have hroom := hr.perSender hpos sender
    rw [Table.openOf_register hok]
    simp only [List.countP_cons, decide_eq_true_eq] at hroom
    omega

/-- **Where there is room, nobody is refused.** -/
theorem run_registers (q : Quorum) (hr : Room limits s.table fresh) (hbooks : Books limits s.table)
    (hopen : s.table.closed = false) :
    (run q limits s (fresh.map fun p => .register p.1 p.2)).refused = s.refused ∧
      (run q limits s (fresh.map fun p => .register p.1 p.2)).table.keys = s.table.keys ++ fresh.map Prod.fst := by
  induction fresh generalizing s with
  | nil => simp [run]
  | cons p fresh ih =>
    obtain ⟨t', hok⟩ := hr.admits hbooks.accounted hopen s.opened.length
    have hstep : step q limits s (.register p.1 p.2) = { s with opened := s.opened ++ [p.1], table := t' } := by
      simp [step, hok]
    have hrun : run q limits s ((p :: fresh).map fun p => .register p.1 p.2) =
        run q limits { s with opened := s.opened ++ [p.1], table := t' } (fresh.map fun p => .register p.1 p.2) := by
      rw [← hstep]
      rfl
    obtain ⟨hrefused, hkeys⟩ := ih (s := { s with opened := s.opened ++ [p.1], table := t' }) (hr.tail hok)
      (hbooks.register hok) ((Table.register_ok hok).2.2.2.trans hopen)
    rw [hrun, hrefused, hkeys, Table.keys_register hok]
    simp

/-- an expiry makes room for as many requests as it takes out, of each sender and of all -/
theorem room_expire (hbooks : Books limits t) (q : Quorum) (now : Nat) (hnodup : (fresh.map Prod.fst).Nodup)
    (hfree : ∀ p ∈ fresh, p.1 ∉ (t.expire q now).1.keys) (hlength : fresh.length ≤ (t.overdue now).length)
    (hsenders : ∀ sender, (fresh.countP fun p => p.1.sender = sender) ≤
      (t.overdue now).countP fun e => e.key.sender = sender) :
    Room limits (t.expire q now).1 fresh := by
  refine ⟨hnodup, hfree, fun hpos => ?_, fun hpos sender => ?_⟩
  · have hsplit := (Table.keys_perm_expire hbooks.distinct q now).length_eq
    rw [List.length_append, List.length_map, ← Table.size_eq_length_keys] at hsplit
    have := hbooks.global hpos
    omega
  · have hsplit := Table.openOf_expire hbooks.distinct q now sender
    have := hbooks.perSender hpos sender
    have := hsenders sender
    omega

/-! ## Main result -/

theorem Inv.nodup_callbacks (h : Inv s) : s.table.callbacks.Nodup := by
  have hnodup := h.once.nodup_iff.2 List.nodup_range
  exact (List.nodup_append.1 (List.nodup_append.1 hnodup).2.1).1

/-- what an expiry of the table does after the steps `ops` -/
structure Expired (q : Quorum) (limits : Limits) (ops : List Op) (s : State) (now : Nat) : Prop where
  /-- the overdue requests are taken out, and all others stay as they are -/
  left : (s.table.expire q now).1.entries = s.table.entries.filter fun e => now < e.deadline
  number : (s.table.expire q now).2.length = s.table.entries.countP fun e => e.deadline ≤ now
  /-- the callback of an overdue request receives one value, which says how many nodes have answered it -/
  informed : ∀ e ∈ s.table.entries, e.deadline ≤ now → ∃ before since, Registered q limits ops e before since ∧
    ((s.table.expire q now).2.filter fun d => d.callback = e.callback) =
      [⟨e.callback, .failure .requestTimeoutError ("request timed out with "
        ++ Text.ofNat (nodes (heard e.key since)).length ++ " of " ++ Text.ofNat (q.f + 1) ++ " required responses")⟩]
  /-- no other callback receives anything -/
  others : ∀ d ∈ (s.table.expire q now).2, ∃ e ∈ s.table.entries, e.deadline ≤ now ∧ d.callback = e.callback
  accounted : (s.table.expire q now).1.Accounted
  /-- the number of a sender goes down by as many of its requests as are overdue -/
  counts : ∀ sender, countOf sender s.table.counts = countOf sender (s.table.expire q now).1.counts +
    s.table.entries.countP fun e => e.key.sender = sender ∧ e.deadline ≤ now
  /-- the requests may be taken out one by one in any order -/
  anyOrder : ∀ gone : List RequestKey, gone.Perm ((s.table.overdue now).map Entry.key) →
    gone.foldl Table.erase s.table = (s.table.expire q now).1
  /-- as many requests as have been taken out, of each sender and of all, are registered at once -/
  reuse : ∀ fresh : List (RequestKey × Nat), (fresh.map Prod.fst).Nodup →
    (∀ p ∈ fresh, p.1 ∉ (s.table.expire q now).1.keys) → fresh.length ≤ (s.table.overdue now).length →
    (∀ sender, (fresh.countP fun p => p.1.sender = sender) ≤
      (s.table.overdue now).countP fun e => e.key.sender = sender) →
    (run q limits s (.expire now :: fresh.map fun p => .register p.1 p.2)).refused = s.refused ∧
      (run q limits s (.expire now :: fresh.map fun p => .register p.1 p.2)).table.keys =
        (s.table.expire q now).1.keys ++ fresh.map Prod.fst

theorem expired (q : Quorum) (limits : Limits) (ops : List Op) (now : Nat) :
    Expired q limits ops (run q limits .start ops) now := by
  have hinv := run_inv q limits .start ops inv_start
  have hbooks : Books limits (run q limits .start ops).table := run_books _ ops books_empty
  have hregistered : ∀ e ∈ (run q limits .start ops).table.entries, ∃ before since,
      Registered q limits ops e before since := fun e he => registered q limits ops he
  set s := run q limits .start ops
  have hd := hbooks.distinct
  have haccounted := hbooks.accounted.expire hd q now
  refine ⟨Table.entries_expire hd q now, ?_, fun e he hlate => ?_, fun d hmem => ?_, haccounted, fun sender => ?_,
    fun gone hgone => (Table.expire_of_perm q hgone).symm, fun fresh hnodup hfree hlength hsenders => ?_⟩
  · rw [Table.delivered_expire, List.length_map, Table.overdue, List.countP_eq_length_filter]
  · obtain ⟨before, since, h⟩ := hregistered e he
    refine ⟨before, since, h, ?_⟩
    have honce : ((s.table.overdue now).map Entry.callback).Nodup :=
      hinv.nodup_callbacks.sublist (List.filter_sublist.map _)
    have hone := Table.filter_eq_singleton honce (Table.mem_overdue.2 ⟨he, hlate⟩)
    have hlength : e.responses.length = (nodes (heard e.key since)).length := by
      rw [h.holds, SortedMap.length_ofPairs]
      rfl
    rw [Table.delivered_expire, List.filter_map]
    calc ((s.table.overdue now).filter fun e' => e'.callback = e.callback).map (Table.timeout q)
        = [Table.timeout q e] := by rw [hone]; rfl
      _ = _ := by rw [Table.timeout, hlength]; rfl
  · obtain ⟨e, he, rfl⟩ := List.mem_map.1 hmem
    obtain ⟨hmem, hlate⟩ := Table.mem_overdue.1 he
    exact ⟨e, hmem, hlate, rfl⟩
  · have hsplit := Table.openOf_expire hd q now sender
    rw [Table.overdue, List.countP_filter] at hsplit
    rw [hbooks.accounted.count, haccounted.count]
    simpa only [Table.openOf, Bool.decide_and] using hsplit
  · cases hfresh : fresh with
    | nil => exact ⟨rfl, (List.append_nil _).symm⟩
    | cons p rest =>
      rw [← hfresh]
      -- a closed table has no requests that could be taken out of it
      have hopen : s.table.closed = false := by
        by_contra hclosed
        rw [hfresh, Table.overdue, hbooks.closed (by simpa using hclosed)] at hlength
        simp at hlength
      have hroom := room_expire hbooks q now hnodup hfree hlength hsenders
      exact run_registers (s := step q limits s (.expire now)) q hroom (step_books s (.expire now) hbooks)
        ((Table.closed_expire s.table q now).trans hopen)

/-- **Expiry is exact, and it composes.** Whatever operations have been run on the table, an expiry at any instant takes
out the requests that are overdue then and no others, whichever comes first; it tells each of them how many nodes have
answered it, keeps the numbers of the others, and makes room for as many new requests. An expiry and a later one leave
the table and bring the deliveries that the later one does by itself, and then there is nothing more to expire. -/
theorem expiry_exact (q : Quorum) (limits : Limits) (ops : List Op) {early late : Nat} (h : early ≤ late) :
    (∀ now, Expired q limits ops (run q limits .start ops) now) ∧
      Table.Composes q (run q limits .start ops).table early late :=
  ⟨expired q limits ops, Table.composes (distinct_run q limits ops) q h⟩

/-- two requests of one sender and one of another, all with the same answer from one node, and each with its own
deadline -/
def staggeredTrace : List Op :=
  [.register ⟨"0xab", "m"⟩ 5, .register ⟨"0xcd", "m"⟩ 6, .register ⟨"0xab", "n"⟩ 9,
    .record ⟨"0xab", "m"⟩ "0x0A" (.unsigned "m" "secrets_list" "don" .null),
    .record ⟨"0xcd", "m"⟩ "0x0A" (.unsigned "m" "secrets_list" "don" .null),
    .record ⟨"0xab", "n"⟩ "0x0A" (.unsigned "n" "secrets_list" "don" .null)]

/-- at the later instant two of them are told that one node has answered, and the third is left -/
theorem expiry_exact_staggered :
    5 ≤ 8 ∧ (∀ now, Expired ⟨4, 1⟩ ⟨3, 2⟩ staggeredTrace (run ⟨4, 1⟩ ⟨3, 2⟩ .start staggeredTrace) now) ∧
      Table.Composes ⟨4, 1⟩ (run ⟨4, 1⟩ ⟨3, 2⟩ .start staggeredTrace).table 5 8 ∧
      ((run ⟨4, 1⟩ ⟨3, 2⟩ .start staggeredTrace).table.expire ⟨4, 1⟩ 8).2 =
        [⟨0, .failure .requestTimeoutError "request timed out with 1 of 2 required responses"⟩,
          ⟨1, .failure .requestTimeoutError "request timed out with 1 of 2 required responses"⟩] ∧
      ((run ⟨4, 1⟩ ⟨3, 2⟩ .start staggeredTrace).table.expire ⟨4, 1⟩ 8).1.keys = [⟨"0xab", "n"⟩] := by
  obtain ⟨hexpired, hcomposes⟩ := expiry_exact ⟨4, 1⟩ ⟨3, 2⟩ staggeredTrace (by decide : 5 ≤ 8)
  exact ⟨by decide, hexpired, hcomposes, by with_unfolding_all rfl, by decide +kernel⟩

end Fates

end QuorumGateway.Pending
