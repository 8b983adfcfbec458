import QuorumGateway.Proofs.Pending.Fates
import QuorumGateway.Proofs.Quorum.Completion
/-!
What an open request has heard. The table keeps one response for each node, in place of the node's earlier ones, so a
request holds the last response of each node since the call that registered it (`registered`). As long as it is open
these do not decide it: a response that does takes it out of the table at once (`pending_run`), although a later
response may take a vote away from a payload.

- `resolved_when_decided`: hence no request waits in the table for longer than it has to, and a response either finds no
  request, or leaves it open and undecided, or settles it as the decision says; whatever it does, it does to the request
  with its key alone.
-/

namespace QuorumGateway.Pending

open Quorum (Believed Completion)

/-! ## One response -/

namespace Table

variable {t : Table} {key other : RequestKey} {e' : Entry}

/-- where the requests come from that a response leaves open -/
theorem mem_record {q : Quorum} {node : String} {m : Message} (h : e' ∈ (t.record q key node m).1.entries) :
    (e' ∈ t.entries ∧ e'.key ≠ key) ∨
      ∃ e ∈ t.entries, e.key = key ∧ e' = e.answered node m ∧ q.decision e'.responses = .pending := by
  rcases record_cases t q key node m with ⟨hnone, heq⟩ | ⟨e, hf, hpending, heq⟩ | ⟨e, reply, -, -, heq⟩ <;>
    rw [heq] at h
  · exact .inl ⟨h, find?_eq_none_iff.1 hnone e' h⟩
  · have hkey := key_of_find? hf
    rcases mem_replace.1 h with ⟨hmem, hne⟩ | ⟨rfl, -⟩
    · exact .inl ⟨hmem, fun heq => hne (heq.trans hkey.symm)⟩
    · exact .inr ⟨e, mem_of_find? hf, hkey, rfl, hpending⟩
  · exact .inl (mem_erase.1 h)

/-- a response changes only the request with its key -/
theorem find?_record_other (hd : t.Distinct) (q : Quorum) (node : String) (m : Message) (hne : other ≠ key) :
    (t.record q key node m).1.find? other = t.find? other := by
  refine Option.ext fun e' => ?_
  rw [(hd.record q key node m).find?_eq_some_iff, hd.find?_eq_some_iff]
  refine and_congr_left fun hkey => ?_
  have hother : e'.key ≠ key := hkey ▸ hne
  rcases record_cases t q key node m with ⟨-, heq⟩ | ⟨e, hf, -, heq⟩ | ⟨e, reply, -, -, heq⟩ <;> rw [heq]
  · have hsame : e.key = key := key_of_find? hf
    rw [mem_replace]
    constructor
    · rintro (⟨hmem, -⟩ | ⟨rfl, -⟩)
      · exact hmem
      · exact absurd hsame hother
    · exact fun hmem => .inl ⟨hmem, fun heq => hother (heq.trans hsame)⟩
  · simp [mem_erase, hother]

end Table

namespace Fates

variable {q : Quorum} {limits : Limits} {s : State} {o : Op} {ops : List Op} {key : RequestKey} {e e' : Entry}

theorem run_snoc (q : Quorum) (limits : Limits) (s : State) (ops : List Op) (o : Op) :
    run q limits s (ops ++ [o]) = step q limits (run q limits s ops) o := by
  simp [run, List.foldl_append]

/-! ## Hearing -/

/-- the response to a request that a step brings, with its node in small letters -/
def Op.answer? (key : RequestKey) : Op → Option (String × Message)
  | .record k node m => if k = key then some (Text.lower node, m) else none
  | _ => none

/-- the responses to a request that steps bring, in their order -/
def heard (key : RequestKey) (ops : List Op) : List (String × Message) := ops.filterMap (Op.answer? key)

/-- the last of the responses of a node; the node is given in small letters -/
def latest (node : String) (rs : List (String × Message)) : Option Message :=
  ((rs.filter fun r => r.1 = node).getLast?).map Prod.snd

/-- the nodes that have answered, each once -/
def nodes (rs : List (String × Message)) : List String := (rs.map Prod.fst).dedup

/-- the request that a step registers, as the table holds it after the steps since -/
def openEntry (key : RequestKey) (callback deadline : Nat) (since : List Op) : Entry :=
  ⟨key, callback, SortedMap.ofPairs (heard key since), deadline⟩

theorem heard_snoc (key : RequestKey) (ops : List Op) (o : Op) :
    heard key (ops ++ [o]) = heard key ops ++ (o.answer? key).toList := by
  cases h : o.answer? key <;> simp [heard, h]

/-! ## One step -/

/-- a request is open after a step because the step registers it, or it was open before and does not concern the step,
or because the step brings a response to it that does not decide it -/
theorem entry_of_step (hd : s.table.Distinct) (h : e' ∈ (step q limits s o).table.entries) :
    (o = .register e'.key e'.deadline ∧ e' = openEntry e'.key s.opened.length e'.deadline []) ∨
      (e' ∈ s.table.entries ∧ o.answer? e'.key = none) ∨
      ∃ e ∈ s.table.entries, ∃ node m, o = .record e.key node m ∧ e' = e.answered node m ∧
        q.decision e'.responses = .pending := by
  cases o with
  | register key deadline =>
    simp only [step] at h
    split at h
    · rename_i table hok
      obtain ⟨-, -, hentries, -⟩ := Table.register_ok hok
      rw [hentries] at h
      rcases List.mem_append.1 h with h | h
      · exact .inr (.inl ⟨h, rfl⟩)
      · rw [List.mem_singleton] at h
        subst h
        exact .inl ⟨rfl, rfl⟩
    · exact .inr (.inl ⟨h, rfl⟩)
  | record key node m =>
    rcases Table.mem_record h with ⟨hmem, hne⟩ | ⟨e, hmem, rfl, heq, hpending⟩
    · exact .inr (.inl ⟨hmem, by simp [Op.answer?, Ne.symm hne]⟩)
    · exact .inr (.inr ⟨e, hmem, node, m, rfl, heq, hpending⟩)
  | evict key => exact .inr (.inl ⟨(Table.mem_erase.1 h).1, rfl⟩)
  | expire now =>
    have hmem : e' ∈ (s.table.expire q now).1.entries := h
    rw [Table.entries_expire hd] at hmem
    exact .inr (.inl ⟨(List.mem_filter.1 hmem).1, rfl⟩)
  | failAll code reason => exact absurd h List.not_mem_nil
  | deliver position =>
    simp only [step] at h
    split at h <;> exact .inr (.inl ⟨h, rfl⟩)

/-! ## Runs -/

/-- a run begins with no open requests, and no two have one key -/
theorem distinct_run (q : Quorum) (limits : Limits) (ops : List Op) : (run q limits .start ops).table.Distinct :=
  (run_inv q limits .start ops inv_start).distinct

/-- an open request was registered by a step of the run, has been open ever since, and holds what it has heard since -/
structure Registered (q : Quorum) (limits : Limits) (ops : List Op) (e : Entry) (before since : List Op) : Prop where
  split : ops = before ++ .register e.key e.deadline :: since
  callback : e.callback = (before.filterMap Op.registers?).length
  stays : ∀ part, part <+: since → openEntry e.key e.callback e.deadline part ∈
    (run q limits .start (before ++ .register e.key e.deadline :: part)).table.entries
  holds : e.responses = SortedMap.ofPairs (heard e.key since)

/-- one more step leaves a request open, with what it brings to it -/
theorem Registered.snoc {before since : List Op} (h : Registered q limits ops e before since)
    (hkey : e'.key = e.key) (hcallback : e'.callback = e.callback) (hdeadline : e'.deadline = e.deadline)
    (hholds : e'.responses = SortedMap.ofPairs (heard e.key (since ++ [o])))
    (hopen : e' ∈ (run q limits .start (ops ++ [o])).table.entries) :
    Registered q limits (ops ++ [o]) e' before (since ++ [o]) := by
  have hsplit : ops ++ [o] = before ++ .register e'.key e'.deadline :: (since ++ [o]) := by
    rw [hkey, hdeadline, h.split, List.append_assoc, List.cons_append]
  refine ⟨hsplit, hcallback.trans h.callback, fun part hpart => ?_, hkey ▸ hholds⟩
  rcases List.prefix_concat_iff.1 hpart with rfl | hpart
  · rw [← hsplit]
    have heq : e' = openEntry e'.key e'.callback e'.deadline (since ++ [o]) := by rw [openEntry, hkey, ← hholds, ← hkey]
    rwa [← heq]
  · rw [hkey, hcallback, hdeadline]
    exact h.stays part hpart

/-- **Where open requests come from.** Every open request was registered by a step of the run, has been open ever since,
and holds what it has heard since. -/
theorem registered (q : Quorum) (limits : Limits) (ops : List Op) {e : Entry}
    (he : e ∈ (run q limits .start ops).table.entries) :
    ∃ before since, Registered q limits ops e before since := by
  induction ops using List.reverseRecOn generalizing e with
  | nil => exact absurd he List.not_mem_nil
  | append_singleton ops o ih =>
    have hopen := he
    rw [run_snoc] at he
    rcases entry_of_step (distinct_run q limits ops) he with
      ⟨rfl, heq⟩ | ⟨he, hnone⟩ | ⟨e₀, he₀, node, m, rfl, rfl, -⟩
    · have hcallback : e.callback = (run q limits .start ops).opened.length := congrArg Entry.callback heq
      have hfresh : openEntry e.key e.callback e.deadline [] = e := by rw [hcallback, ← heq]
      refine ⟨ops, [], rfl, ?_, fun part hpart => ?_, congrArg Entry.responses heq⟩
      · rw [hcallback, opened_run]
        rfl
      · obtain rfl := List.prefix_nil.1 hpart
        rwa [hfresh]
    · obtain ⟨before, since, h⟩ := ih he
      refine ⟨before, _, h.snoc rfl rfl rfl ?_ hopen⟩
      rw [heard_snoc, hnone, h.holds]
      simp
    · obtain ⟨before, since, h⟩ := ih he₀
      refine ⟨before, _, h.snoc rfl rfl rfl ?_ hopen⟩
      rw [heard_snoc]
      simp [Op.answer?, SortedMap.ofPairs_concat, Entry.answered, h.holds]

/-- **No open request is decided.** -/
theorem pending_run (q : Quorum) (limits : Limits) (hf : q.f < q.members) (ops : List Op) {e : Entry}
    (he : e ∈ (run q limits .start ops).table.entries) : q.decision e.responses = .pending := by
  induction ops using List.reverseRecOn generalizing e with
  | nil => exact absurd he List.not_mem_nil
  | append_singleton ops o ih =>
    rw [run_snoc] at he
    rcases entry_of_step (distinct_run q limits ops) he with ⟨-, heq⟩ | ⟨he, -⟩ | ⟨-, -, -, -, -, -, hpending⟩
    · rw [heq]
      exact Quorum.decision_nil hf
    · exact ih he
    · exact hpending

/-! ## Main result -/

/-- what becomes of a response to an open request for which `answers` have been heard, the response included -/
structure Received (q : Quorum) (t : Table) (e : Entry) (node : String) (m : Message)
    (answers : List (String × Message)) : Prop where
  /-- it is kept exactly when the request stays undecided, and the nodes that have answered are counted -/
  recorded : ∀ n, (t.record q e.key node m).2.1 = .recorded n ↔
    q.decision (SortedMap.ofPairs answers) = .pending ∧ n = (nodes answers).length
  pending : q.decision (SortedMap.ofPairs answers) = .pending →
    (t.record q e.key node m).1.find? e.key = some { e with responses := SortedMap.ofPairs answers } ∧
      (t.record q e.key node m).2.2 = []
  agreed : ∀ m', q.decision (SortedMap.ofPairs answers) = .agreed m' →
    (t.record q e.key node m).2 = (.resolved .noError, [⟨e.callback, .success m'⟩]) ∧
      (t.record q e.key node m).1.find? e.key = none
  failed : ∀ reason, q.decision (SortedMap.ofPairs answers) = .failed reason →
    (t.record q e.key node m).2 =
        (.resolved .nodeResponseEncodingError, [⟨e.callback, .failure .nodeResponseEncodingError reason⟩]) ∧
      (t.record q e.key node m).1.find? e.key = none

theorem received {t : Table} (hd : t.Distinct) (he : e ∈ t.entries) {node : String} {m : Message}
    {answers : List (String × Message)} (hanswers : (e.answered node m).responses = SortedMap.ofPairs answers) :
    Received q t e node m answers := by
  have hopen : t.find? e.key = some e := hd.find?_eq_some_iff.2 ⟨he, rfl⟩
  have hlength : (nodes answers).length = (SortedMap.ofPairs answers).length := (SortedMap.length_ofPairs answers).symm
  rcases Table.record_cases t q e.key node m with ⟨hnone, -⟩ | ⟨e₀, hf, hpending, heq⟩ | ⟨e₀, reply, hf, hreply, heq⟩
  · exact absurd (hnone.symm.trans hopen) (by simp)
  · obtain rfl : e = e₀ := Option.some.inj (hopen.symm.trans hf)
    rw [hanswers] at hpending
    refine ⟨fun n => ?_, fun _ => ?_, fun m' h => ?_, fun reason h => ?_⟩
    · simp [heq, hpending, hanswers, hlength, eq_comm]
    · rw [heq]
      have hentry : e.answered node m = { e with responses := SortedMap.ofPairs answers } := by rw [← hanswers]; rfl
      exact ⟨hentry ▸ Table.find?_replace_self hf rfl, rfl⟩
    · exact absurd (hpending.symm.trans h) (by simp)
    · exact absurd (hpending.symm.trans h) (by simp)
  · obtain rfl : e = e₀ := Option.some.inj (hopen.symm.trans hf)
    rw [hanswers] at hreply
    have hgone : (t.record q e.key node m).1.find? e.key = none := heq ▸ Table.find?_erase_self t e.key
    refine ⟨fun n => ?_, fun h => ?_, fun m' h => ⟨?_, hgone⟩, fun reason h => ⟨?_, hgone⟩⟩
    · have hdecided : q.decision (SortedMap.ofPairs answers) ≠ .pending := by
        intro h
        rw [h] at hreply
        cases hreply
      simp [heq, hdecided]
    · rw [h] at hreply
      cases hreply
    · rw [h] at hreply
      cases hreply
      rw [heq]
      rfl
    · rw [h] at hreply
      cases hreply
      rw [heq]
      rfl

/-- what the table holds of its open requests, and what a response does next -/
structure Prompt (q : Quorum) (limits : Limits) (ops : List Op) (t : Table) : Prop where
  /-- an open request holds the last response of each node since the call that registered it -/
  heard : ∀ e ∈ t.entries, ∃ before since, Registered q limits ops e before since ∧
    (∀ node, e.responses.get? node = latest node (heard e.key since)) ∧
    ∀ node m, Received q t e node m (Fates.heard e.key (since ++ [.record e.key node m]))
  /-- no payload has come from `f + 1` nodes, and one still can -/
  undecided : ∀ e ∈ t.entries, q.decision e.responses = .pending ∧ ¬ Believed q e.responses ∧
    ∃ rs, Completion q e.responses rs ∧ Believed q rs
  unmatched : ∀ key node m, t.find? key = none → t.record q key node m = (t, .unmatched, [])
  others : ∀ key node m, ∀ other ≠ key, (t.record q key node m).1.find? other = t.find? other

/-- **Requests are settled as soon as they are decided.** Whatever operations have been run on the table, every open
request holds the last response of each node since its registration, and these decide nothing. A response for which
there is no request changes nothing; one that leaves its request undecided is kept and counted; any other settles its
request at once, as the decision says. No response changes another request. -/
theorem resolved_when_decided (q : Quorum) (limits : Limits) (ops : List Op) (hf : q.f < q.members) :
    Prompt q limits ops (run q limits .start ops).table := by
  have hd := distinct_run q limits ops
  refine ⟨fun e he => ?_, fun e he => ?_, fun key node m hnone => ?_, fun key node m other hne => ?_⟩
  · obtain ⟨before, since, h⟩ := registered q limits ops he
    refine ⟨before, since, h, fun node => ?_, fun node m => received hd he ?_⟩
    · rw [h.holds]
      exact SortedMap.get?_ofPairs _ _
    · rw [heard_snoc]
      simp [Op.answer?, SortedMap.ofPairs_concat, Entry.answered, h.holds]
  · have hpending := pending_run q limits hf ops he
    have hascending : e.responses.Ascending := by
      obtain ⟨before, since, h⟩ := registered q limits ops he
      rw [h.holds]
      exact SortedMap.ascending_ofPairs _
    obtain ⟨hbelow, hopen⟩ := Quorum.decision_pending_iff.1 hpending
    have hfits := (Quorum.length_lt_of_pending hpending).le
    exact ⟨hpending, hbelow, (Quorum.exists_completion_iff hascending hfits).2 hopen⟩
  · simp [Table.record, hnone]
  · exact Table.find?_record_other hd q node m hne

/-- two requests of one sender; a node agrees with another one and then, in other letters, takes its word back -/
def waveringTrace : List Op :=
  [.register ⟨"0xab", "m"⟩ 5, .register ⟨"0xab", "n"⟩ 6,
    .record ⟨"0xab", "m"⟩ "0x0A" (.unsigned "m" "secrets_list" "don" .null),
    .record ⟨"0xab", "m"⟩ "0x0a" (.unsigned "m" "secrets_list" "don" (.bool true)),
    .record ⟨"0xab", "m"⟩ "0x0b" (.unsigned "m" "secrets_list" "don" .null)]

/-- a third node leaves the request open with an answer of its own, and settles it when it agrees with the second -/
theorem resolved_when_decided_wavering :
    1 < 4 ∧ Prompt ⟨4, 1⟩ ⟨0, 0⟩ waveringTrace (run ⟨4, 1⟩ ⟨0, 0⟩ .start waveringTrace).table ∧
      ((run ⟨4, 1⟩ ⟨0, 0⟩ .start waveringTrace).table.record ⟨4, 1⟩ ⟨"0xab", "m"⟩ "0x0c"
        (.unsigned "m" "secrets_list" "don" (.bool false))).2 = (.recorded 3, []) ∧
      ((run ⟨4, 1⟩ ⟨0, 0⟩ .start waveringTrace).table.record ⟨4, 1⟩ ⟨"0xab", "m"⟩ "0x0c"
        (.unsigned "m" "secrets_list" "don" .null)).2 =
          (.resolved .noError, [⟨0, .success (.unsigned "m" "secrets_list" "don" .null)⟩]) := by
  have hprompt := resolved_when_decided ⟨4, 1⟩ ⟨0, 0⟩ waveringTrace (by decide)
  exact ⟨by decide, hprompt, by with_unfolding_all rfl, by with_unfolding_all rfl⟩

end Fates

end QuorumGateway.Pending
