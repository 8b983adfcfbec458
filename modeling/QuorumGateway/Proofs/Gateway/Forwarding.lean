import QuorumGateway.Proofs.Gateway.Arrival
/-!
Responses around the end of the sends of their request. They are forwarded on their own, so some may come in while the
request is still being sent, and others after that. Where too few sends have failed, the end of the sends changes
nothing for them; where too many have, it evicts the request, and the responses after it find none.

- `trace_forwarded`: a request that its responses settle is settled with the same reply wherever the end falls.
- `trace_forwarded_evicted`: one that they do not settle is evicted at the end.
- `settled_same`, `settled_same_few`: of equal responses, `f + 1` settle a request, and fewer do not.
-/

namespace QuorumGateway

/-! ## Settling -/

namespace Quorum

variable {q : Quorum} {a : Message} {rs done : List (String × Message)}

/-- the responses that an open request has after some more -/
def held (hs : Responses) (rs : List (String × Message)) : Responses :=
  rs.foldl (fun hs r => SortedMap.put r.1 r.2 hs) hs

theorem settled_append (q : Quorum) (hs : Responses) (rs rs' : List (String × Message)) :
    settled q hs (rs ++ rs') = (settled q hs rs).or (settled q (held hs rs) rs') := by
  induction rs generalizing hs with
  | nil => rfl
  | cons r rs ih => rw [List.cons_append, settled, settled, ih, Option.or_assoc]; rfl

/-- all responses vote for the ballot that they have in common -/
theorem votes_same (hsame : ∀ r ∈ rs, r.2 = a) : votes rs (ballot a) = rs.length :=
  List.countP_eq_length.2 fun r hr => by simp [hsame r hr]

theorem votes_other (hsame : ∀ r ∈ rs, r.2 = a) {v : List UInt8} (hv : v ≠ ballot a) : votes rs v = 0 :=
  List.countP_eq_zero.2 fun r hr => by simp [hsame r hr, hv.symm]

/-- **Enough equal responses settle a request** with their message -/
theorem settled_same (hdistinct : (rs.map Prod.fst).Nodup) (hfits : rs.length ≤ q.members)
    (hsame : ∀ r ∈ rs, r.2 = a) (henough : q.threshold ≤ rs.length) : settled q [] rs = some (.success a) := by
  have hone : OneQuorum q (ballot a) rs := by
    refine ⟨hdistinct, hfits, fun v => ⟨fun hv => ?_, fun hv => ?_⟩⟩
    · by_contra hne
      rw [votes_other hsame hne] at hv
      exact Nat.not_succ_le_zero _ hv
    · rw [hv, votes_same hsame]
      exact henough
  obtain ⟨r, ⟨hr, -⟩, hsettled⟩ := settled_eq hone
  rw [hsettled, hsame r ((firstVotes_sublist q _ rs).subset hr)]

/-- too few equal responses leave a request open, as long as the silent nodes can still make them enough -/
theorem decision_same_few (hdistinct : (done.map Prod.fst).Nodup) (hfits : done.length ≤ q.members)
    (hsame : ∀ r ∈ done, r.2 = a) (hfew : done.length < q.threshold) (hpossible : q.threshold ≤ q.members) :
    q.decision (SortedMap.ofPairs done) = .pending := by
  have hlength := (SortedMap.ofPairs_perm hdistinct).length_eq
  cases hd : q.decision (SortedMap.ofPairs done) with
  | pending => rfl
  | agreed m =>
    have henough := (enough_of_agreed hd).2
    have hle : votes (SortedMap.ofPairs done) (ballot m) ≤ done.length := hlength ▸ List.countP_le_length
    omega
  | failed reason =>
    have hlost := votes_add_silent_lt_of_failed hd (ballot a)
    rw [votes_ofPairs hdistinct, votes_same hsame, silent, hlength] at hlost
    omega

theorem settled_same_few_from (todo : List (String × Message)) (hdistinct : ((done ++ todo).map Prod.fst).Nodup)
    (hfits : (done ++ todo).length ≤ q.members) (hsame : ∀ r ∈ done ++ todo, r.2 = a)
    (hfew : (done ++ todo).length < q.threshold) (hpossible : q.threshold ≤ q.members) :
    settled q (SortedMap.ofPairs done) todo = none := by
  induction todo generalizing done with
  | nil => rfl
  | cons x todo ih =>
    have hnext : done ++ x :: todo = (done ++ [x]) ++ todo := by rw [List.append_assoc]; rfl
    rw [hnext] at hdistinct hfits hsame hfew
    have hfront : (done ++ [x]).Sublist ((done ++ [x]) ++ todo) := List.sublist_append_left _ _
    have hpending := decision_same_few (hdistinct.sublist (hfront.map _)) (hfront.length_le.trans hfits)
      (fun r hr => hsame r (hfront.subset hr)) (hfront.length_le.trans_lt hfew) hpossible
    rw [settled, ← SortedMap.ofPairs_concat, hpending]
    exact ih hdistinct hfits hsame hfew

/-- **Fewer do not** -/
theorem settled_same_few (hdistinct : (rs.map Prod.fst).Nodup) (hfits : rs.length ≤ q.members)
    (hsame : ∀ r ∈ rs, r.2 = a) (hfew : rs.length < q.threshold) (hpossible : q.threshold ≤ q.members) :
    settled q [] rs = none :=
  @settled_same_few_from q a [] rs hdistinct hfits hsame hfew hpossible

end Quorum

/-! ## The end of the sends -/

namespace Gateway

open Pending (Entry Table)
open Quorum

variable {S : Crypto.Scheme} {g : Setup} {s : State} {c : Call} {e : Entry} {key : RequestKey} {call : Nat}
  {legs : List FanOut.Leg} {rs early late : List (String × Message)}

/-- responses end no call -/
theorem calls_answers (S : Crypto.Scheme) (g : Setup) (s : State) (rs : List (String × Message)) :
    (run S g s (answers rs)).calls = s.calls := by
  induction rs generalizing s with
  | nil => rfl
  | cons r rs ih =>
    have hone : (respond g s r.1 r.2).calls = s.calls := by
      unfold respond
      split <;> rfl
    exact (ih _).trans hone

/-- where there is no open request, responses open none -/
theorem find?_answers_closed (hnone : s.table.find? key = none) (hmembers : ∀ r ∈ rs, g.network.isMember r.1 = true)
    (hkeys : ∀ r ∈ rs, RequestKey.ofMessage r.2 = key) : (run S g s (answers rs)).table.find? key = none := by
  induction rs generalizing s with
  | nil => exact hnone
  | cons r rs ih =>
    obtain ⟨hmember, hmembers⟩ := List.forall_mem_cons.1 hmembers
    obtain ⟨hkey, hkeys⟩ := List.forall_mem_cons.1 hkeys
    have htable : (respond g s r.1 r.2).table = s.table := by
      rw [(respond_member hmember r.2).1, hkey, Table.record, hnone]
    exact ih (s := respond g s r.1 r.2) (htable ▸ hnone) hmembers hkeys

/-- what responses leave of the request that they belong to -/
theorem find?_answers (hopen : s.table.find? key = some e) (hmembers : ∀ r ∈ rs, g.network.isMember r.1 = true)
    (hkeys : ∀ r ∈ rs, RequestKey.ofMessage r.2 = key) :
    (run S g s (answers rs)).table.find? key =
      match settled g.quorum e.responses (rs.map low) with
      | some _ => none
      | none => some { e with responses := held e.responses (rs.map low) } := by
  induction rs generalizing s e with
  | nil => exact hopen
  | cons r rs ih =>
    obtain ⟨hmember, hmembers⟩ := List.forall_mem_cons.1 hmembers
    obtain ⟨hkey, hkeys⟩ := List.forall_mem_cons.1 hkeys
    have htable := (respond_member (s := s) hmember r.2).1
    rw [hkey] at htable
    have hrun : run S g s (answers (r :: rs)) = run S g (respond g s r.1 r.2) (answers rs) := rfl
    have hsettled : settled g.quorum e.responses ((r :: rs).map low) =
        (Table.replyTo (g.quorum.decision (e.answered r.1 r.2).responses)).or
          (settled g.quorum (e.answered r.1 r.2).responses (rs.map low)) := rfl
    rw [hrun, hsettled]
    rcases Table.record_cases s.table g.quorum key r.1 r.2 with ⟨hf, -⟩ | ⟨e', hf, hd, h⟩ | ⟨e', reply, hf, hd, h⟩
    · exact absurd (hopen.symm.trans hf) (by simp)
    · obtain rfl : e = e' := Option.some.inj (hopen.symm.trans hf)
      rw [h] at htable
      have hnext : (respond g s r.1 r.2).table.find? key = some (e.answered r.1 r.2) := by
        have hkept : e.key = key := Table.key_of_find? hopen
        rw [htable]
        exact Table.find?_replace_self hopen hkept
      rw [ih hnext hmembers hkeys, hd]
      rfl
    · obtain rfl : e = e' := Option.some.inj (hopen.symm.trans hf)
      rw [h] at htable
      have hnext : (respond g s r.1 r.2).table.find? key = none := htable ▸ Table.find?_erase_self _ _
      rw [find?_answers_closed hnext hmembers hkeys, hd]
      rfl

/-- where enough sends have reached their node, the call returns and the table stays as it is -/
theorem finish_accepts (hcall : s.calls.find? (fun c => c.id = call) = some c) (henough : ¬ tooFew g legs) :
    (finish g s call legs).trace = s.trace ++ [.returned call (.ok ())] ∧
      (finish g s call legs).table = s.table := by
  have hid : c.id = call := by simpa using List.find?_some hcall
  have hless : (FanOut.report legs).failed.length < g.quorum.maxSendFailures := Nat.lt_of_not_le henough
  simp only [finish, hcall, State.count, if_pos hless, accept, State.emit, hid, and_self]

/-- where too few have, the open request is evicted and the call fails -/
theorem finish_evicts (hcall : s.calls.find? (fun c => c.id = call) = some c) (hfew : tooFew g legs)
    (hopen : s.table.find? c.key = some e) :
    (finish g s call legs).trace = s.trace ++ [.dropped e.callback, .returned call
        (.error (.insufficientNodes (FanOut.report legs).failed.length (FanOut.report legs).total))] ∧
      (finish g s call legs).table = s.table.erase c.key := by
  have hid : c.id = call := by simpa using List.find?_some hcall
  have hless : ¬ (FanOut.report legs).failed.length < g.quorum.maxSendFailures := Nat.not_lt.2 hfew
  simp only [finish, hcall, State.count, if_neg hless, Table.evict, hopen, State.emit, State.withTable, hid, and_self]

/-- the responses to a call that is on its way, some before and some after the end of its sends -/
def forwarded (call : Nat) (legs : List FanOut.Leg) (early late : List (String × Message)) : List Op :=
  answers early ++ .finish call legs :: answers late

/-- **Responses that settle a request do so wherever the end of its sends falls** -/
theorem trace_forwarded (hcall : s.calls.find? (fun c => c.id = call) = some c) (hopen : s.table.find? c.key = some e)
    (hnew : e.responses = []) (henough : ¬ tooFew g legs)
    (hmembers : ∀ r ∈ early ++ late, g.network.isMember r.1 = true)
    (hkeys : ∀ r ∈ early ++ late, RequestKey.ofMessage r.2 = c.key) {reply : Reply}
    (hsettled : settled g.quorum [] ((early ++ late).map low) = some reply) :
    (run S g s (forwarded call legs early late)).trace =
        s.trace ++ [.delivered e.callback reply, .returned call (.ok ())] ∨
      (run S g s (forwarded call legs early late)).trace =
        s.trace ++ [.returned call (.ok ()), .delivered e.callback reply] := by
  obtain ⟨hmembers, hmembers'⟩ := List.forall_mem_append.1 hmembers
  obtain ⟨hkeys, hkeys'⟩ := List.forall_mem_append.1 hkeys
  rw [List.map_append, settled_append, ← hnew] at hsettled
  have htrace := trace_answers (S := S) hopen hmembers hkeys
  have hfound := find?_answers (S := S) hopen hmembers hkeys
  rw [← calls_answers S g s early] at hcall
  obtain ⟨hended, htable⟩ := finish_accepts hcall henough
  have hrun : run S g s (forwarded call legs early late) =
      run S g (finish g (run S g s (answers early)) call legs) (answers late) := run_append _ _ _ _ _
  rw [hrun]
  cases hearly : settled g.quorum e.responses (early.map low) with
  | some r =>
    -- settled while it is being sent
    left
    simp only [hearly] at htrace hfound
    rw [hearly, Option.some_or, Option.some.injEq] at hsettled
    rw [trace_answers_closed (htable ▸ hfound) hmembers' hkeys', hended, htrace, ← hsettled]
    simp
  | none =>
    right
    simp only [hearly] at htrace hfound
    rw [hearly, Option.none_or] at hsettled
    rw [trace_answers (htable ▸ hfound) hmembers' hkeys', hended, htrace, hsettled]
    simp

/-- **Responses that do not settle a request leave it to the end of its sends**, which evicts it if too many failed -/
theorem trace_forwarded_evicted (hcall : s.calls.find? (fun c => c.id = call) = some c)
    (hopen : s.table.find? c.key = some e) (hnew : e.responses = []) (hfew : tooFew g legs)
    (hmembers : ∀ r ∈ early ++ late, g.network.isMember r.1 = true)
    (hkeys : ∀ r ∈ early ++ late, RequestKey.ofMessage r.2 = c.key)
    (hsettled : settled g.quorum [] ((early ++ late).map low) = none) :
    (run S g s (forwarded call legs early late)).trace = s.trace ++ [.dropped e.callback, .returned call
      (.error (.insufficientNodes (FanOut.report legs).failed.length (FanOut.report legs).total))] := by
  obtain ⟨hmembers, hmembers'⟩ := List.forall_mem_append.1 hmembers
  obtain ⟨hkeys, hkeys'⟩ := List.forall_mem_append.1 hkeys
  rw [List.map_append, settled_append, ← hnew, Option.or_eq_none_iff] at hsettled
  have htrace := trace_answers (S := S) hopen hmembers hkeys
  have hfound := find?_answers (S := S) hopen hmembers hkeys
  simp only [hsettled.1] at htrace hfound
  rw [← calls_answers S g s early] at hcall
  obtain ⟨hended, htable⟩ := finish_evicts hcall hfew hfound
  have hrun : run S g s (forwarded call legs early late) =
      run S g (finish g (run S g s (answers early)) call legs) (answers late) := run_append _ _ _ _ _
  have hgone : (finish g (run S g s (answers early)) call legs).table.find? c.key = none :=
    htable ▸ Table.find?_erase_self _ _
  rw [hrun, trace_answers_closed hgone hmembers' hkeys', hended, htrace]
  simp

end Gateway

end QuorumGateway
