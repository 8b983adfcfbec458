import QuorumGateway.Proofs.Gateway.Agreement
import QuorumGateway.Proofs.Gateway.Contract
/-!
The order in which responses arrive. A request is settled by the first response after which some payload has `f + 1`
votes, so its value rests on what has arrived by then: the message in it is that of the least node among the first
`f + 1` with the payload (`settled_eq`). When no other payload can come to `f + 1` votes, the payload is the same in
every order; but the message is so only when it does not matter which `f + 1` come first.

- `settled_iff`: the messages that some order delivers are those of the nodes that have `f` others with their payload
  above them.
- `arrival_order_iff`: in every order, a caller receives one value, a success with the payload; it receives the same in
  all orders exactly when all those nodes have sent one message.
- `order_shows_in_signature`: three nodes answer with one payload and sign it differently. The caller receives the
  message of the first or that of the second, as the responses happen to arrive.
-/

namespace QuorumGateway

open Pending (Entry Table)

theorem Reply.success_inj {m m' : Message} : Reply.success m = .success m' ↔ m = m' := by
  simp [Reply.success]

/-! ## Settling -/

namespace Quorum

variable {q : Quorum} {v : List UInt8} {rs done l : List (String × Message)} {r r' : String × Message}

/-- what a request is settled with that takes in responses one by one -/
def settled (q : Quorum) (held : Responses) : List (String × Message) → Option Reply
  | [] => none
  | r :: rest =>
    (Table.replyTo (q.decision (SortedMap.put r.1 r.2 held))).or (settled q (SortedMap.put r.1 r.2 held) rest)

/-- responses of different members, with one ballot that has enough votes and no other -/
structure OneQuorum (q : Quorum) (v : List UInt8) (rs : List (String × Message)) : Prop where
  distinct : (rs.map Prod.fst).Nodup
  fits : rs.length ≤ q.members
  enough : ∀ v', q.threshold ≤ votes rs v' ↔ v' = v

/-- the first votes for a ballot that are enough -/
def firstVotes (q : Quorum) (v : List UInt8) (rs : List (String × Message)) : List (String × Message) :=
  (rs.filter fun r => ballot r.2 = v).take q.threshold

/-- the response of the least node -/
def Least (rs : List (String × Message)) (r : String × Message) : Prop := r ∈ rs ∧ ∀ r' ∈ rs, r.1 ≤ r'.1

/-- a response with `f` others of its ballot above it -/
structure Eligible (q : Quorum) (v : List UInt8) (rs : List (String × Message)) (r : String × Message) : Prop where
  mem : r ∈ rs
  vote : ballot r.2 = v
  above : q.f ≤ rs.countP fun r' => ballot r'.2 = v ∧ r.1 < r'.1

theorem OneQuorum.perm (h : OneQuorum q v rs) (hperm : l.Perm rs) : OneQuorum q v l :=
  ⟨(hperm.map _).nodup_iff.2 h.distinct, hperm.length_eq.trans_le h.fits, fun v' => by
    rw [votes, hperm.countP_eq]
    exact h.enough v'⟩

theorem eq_of_node (hdistinct : (rs.map Prod.fst).Nodup) (hr : r ∈ rs) (hr' : r' ∈ rs) (h : r.1 = r'.1) : r = r' :=
  List.inj_on_of_nodup_map hdistinct hr hr' h

theorem Least.unique (hdistinct : (rs.map Prod.fst).Nodup) (hr : Least rs r) (hr' : Least rs r') : r = r' :=
  eq_of_node hdistinct hr.1 hr'.1 (le_antisymm (hr.2 r' hr'.1) (hr'.2 r hr.1))

/-- the votes for a ballot are those of the responses taken in -/
theorem votes_ofPairs (h : (rs.map Prod.fst).Nodup) (v : List UInt8) : votes (SortedMap.ofPairs rs) v = votes rs v :=
  (SortedMap.ofPairs_perm h).countP_eq _

/-- before there are enough votes, nothing is decided -/
theorem OneQuorum.decision_early (h : OneQuorum q v rs) (hdone : done <+: rs) (hfew : votes done v < q.threshold) :
    q.decision (SortedMap.ofPairs done) = .pending := by
  have hdistinct : (done.map Prod.fst).Nodup := h.distinct.sublist (hdone.sublist.map _)
  obtain ⟨rest, rfl⟩ := hdone
  have hvotes := votes_ofPairs hdistinct
  cases hd : q.decision (SortedMap.ofPairs done) with
  | pending => rfl
  | agreed m =>
    -- no other ballot can have enough votes
    have henough := (enough_of_agreed hd).2
    rw [hvotes] at henough
    have hall : q.threshold ≤ votes (done ++ rest) (ballot m) :=
      henough.trans (List.sublist_append_left done rest).countP_le
    rw [(h.enough _).1 hall] at henough
    omega
  | failed reason =>
    -- the nodes that will still answer bring the ballot up to enough votes
    have hlost := votes_add_silent_lt_of_failed hd v
    have htotal : q.threshold ≤ votes (done ++ rest) v := (h.enough v).2 rfl
    have hlength := (SortedMap.ofPairs_perm hdistinct).length_eq
    have hrest : votes rest v ≤ rest.length := List.countP_le_length
    have hfits := h.fits
    rw [hvotes, silent, hlength] at hlost
    rw [votes, List.countP_append] at htotal
    rw [List.length_append] at hfits
    unfold votes at hrest hlost
    omega

/-- with enough votes, the response of the least node that has voted is agreed on -/
theorem OneQuorum.decision_full (h : OneQuorum q v rs) (hdone : done <+: rs) (hfull : q.threshold ≤ votes done v) :
    ∃ r, Least (done.filter fun r => ballot r.2 = v) r ∧ q.decision (SortedMap.ofPairs done) = .agreed r.2 := by
  have hdistinct : (done.map Prod.fst).Nodup := h.distinct.sublist (hdone.sublist.map _)
  have hperm := SortedMap.ofPairs_perm hdistinct
  have hvotes := votes_ofPairs hdistinct
  have hverdict := decision_verdict q (SortedMap.ofPairs done)
  generalize hd : q.decision (SortedMap.ofPairs done) = d at hverdict
  cases hverdict with
  | pending hbelow _ =>
    have hv := hbelow v
    rw [hvotes] at hv
    omega
  | failed hlost =>
    have hv := hlost v
    rw [hvotes] at hv
    omega
  | agreed before after node m hsplit henough hfirst =>
    have hballot : ballot m = v := by
      rw [hvotes] at henough
      exact (h.enough _).1 (henough.trans hdone.sublist.countP_le)
    refine ⟨(node, m), ⟨List.mem_filter.2 ⟨hperm.subset (by rw [hsplit]; simp), by simpa using hballot⟩, ?_⟩, rfl⟩
    intro r' hr'
    obtain ⟨hmem, hv⟩ := List.mem_filter.1 hr'
    have hascending := SortedMap.ascending_ofPairs done
    rw [SortedMap.Ascending, SortedMap.keys, hsplit, List.map_append, List.map_cons] at hascending
    have hmem' := hperm.symm.subset hmem
    rw [hsplit] at hmem'
    rcases List.mem_append.1 hmem' with hbefore | hafter
    · -- a node before it would have enough votes
      have hfew := hfirst r' hbefore
      rw [of_decide_eq_true hv, hvotes] at hfew
      omega
    · rcases List.mem_cons.1 hafter with rfl | hafter
      · exact le_refl _
      · have htail := (List.pairwise_append.1 hascending).2.1
        exact ((List.pairwise_cons.1 htail).1 _ (List.mem_map_of_mem hafter)).le

theorem OneQuorum.settled_from (h : OneQuorum q v rs) (done todo : List (String × Message)) (hsplit : rs = done ++ todo)
    (hfew : votes done v < q.threshold) :
    ∃ r, Least (firstVotes q v rs) r ∧ settled q (SortedMap.ofPairs done) todo = some (.success r.2) := by
  induction todo generalizing done with
  | nil =>
    have htotal := (h.enough v).2 rfl
    rw [hsplit, List.append_nil] at htotal
    omega
  | cons x todo ih =>
    have hnext : rs = (done ++ [x]) ++ todo := by rw [hsplit, List.append_assoc]; rfl
    have hdone : done ++ [x] <+: rs := ⟨todo, hnext.symm⟩
    rw [settled, ← SortedMap.ofPairs_concat]
    by_cases hstill : votes (done ++ [x]) v < q.threshold
    · rw [h.decision_early hdone hstill]
      exact ih _ hnext hstill
    · obtain ⟨r, hleast, hdecision⟩ := h.decision_full hdone (by omega)
      have hone : votes (done ++ [x]) v ≤ votes done v + 1 := by
        rw [votes, List.countP_append]
        exact Nat.add_le_add_left List.countP_le_length _
      have hlength : ((done ++ [x]).filter fun r => ballot r.2 = v).length = q.threshold := by
        rw [← List.countP_eq_length_filter]
        unfold votes at hone hstill hfew
        omega
      have hfirst : firstVotes q v rs = (done ++ [x]).filter fun r => ballot r.2 = v := by
        rw [firstVotes, hnext, List.filter_append, List.take_left' hlength]
      rw [hdecision, hfirst]
      exact ⟨r, hleast, rfl⟩

/-- **What a request is settled with**: the message of the least node among the first `f + 1` of the ballot -/
theorem settled_eq (h : OneQuorum q v rs) :
    ∃ r, Least (firstVotes q v rs) r ∧ settled q [] rs = some (.success r.2) :=
  h.settled_from [] rs rfl (Nat.succ_pos _)

/-! ## Orders -/

theorem OneQuorum.length_firstVotes (h : OneQuorum q v rs) : (firstVotes q v rs).length = q.threshold := by
  have htotal := (h.enough v).2 rfl
  rw [votes, List.countP_eq_length_filter] at htotal
  rw [firstVotes, List.length_take, Nat.min_eq_left htotal]

theorem firstVotes_sublist (q : Quorum) (v : List UInt8) (rs : List (String × Message)) :
    (firstVotes q v rs).Sublist rs :=
  (List.take_sublist _ _).trans List.filter_sublist

/-- in any order, the least of the first `f + 1` has `f` others above it -/
theorem OneQuorum.eligible (h : OneQuorum q v rs) (hperm : l.Perm rs) (hr : Least (firstVotes q v l) r) :
    Eligible q v rs r := by
  have hl := h.perm hperm
  obtain ⟨hmem, hleast⟩ := hr
  obtain ⟨a, b, hsplit⟩ := List.append_of_mem hmem
  have hlength := hl.length_firstVotes
  have hsub := firstVotes_sublist q v l
  have hvotes : ∀ r' ∈ firstVotes q v l, ballot r'.2 = v := fun r' hr' => by
    simpa using (List.mem_filter.1 ((List.take_sublist _ _).subset hr')).2
  rw [hsplit] at hlength hsub
  have hothers : (a ++ b).countP (fun r' => ballot r'.2 = v ∧ r.1 < r'.1) = (a ++ b).length := by
    refine List.countP_eq_length.2 fun r' hr' => ?_
    have hr'mem : r' ∈ firstVotes q v l := by
      rw [hsplit]
      rcases List.mem_append.1 hr' with hr' | hr' <;> simp [hr']
    have hne : r.1 ≠ r'.1 := by
      intro heq
      have hnodup := hl.distinct.sublist (hsub.map _)
      rw [List.map_append, List.map_cons] at hnodup
      have hnot := (List.nodup_cons.1 (List.perm_middle.nodup_iff.1 hnodup)).1
      rw [← List.map_append, heq] at hnot
      exact hnot (List.mem_map_of_mem hr')
    exact decide_eq_true ⟨hvotes r' hr'mem, lt_of_le_of_ne (hleast r' hr'mem) hne⟩
  refine ⟨hperm.subset (hsub.subset (by simp)), hvotes r hmem, ?_⟩
  have hwithout : (a ++ b).Sublist l := ((List.sublist_cons_self r b).append_left a).trans hsub
  calc q.f = (a ++ b).length := by
        simp only [List.length_append, List.length_cons, threshold] at hlength ⊢
        omega
    _ = (a ++ b).countP fun r' => ballot r'.2 = v ∧ r.1 < r'.1 := hothers.symm
    _ ≤ l.countP fun r' => ballot r'.2 = v ∧ r.1 < r'.1 := hwithout.countP_le
    _ = rs.countP fun r' => ballot r'.2 = v ∧ r.1 < r'.1 := hperm.countP_eq _

/-- where no more than `f + 1` vote for a ballot, the least of them alone has `f` others above it -/
theorem Eligible.eq_of_exact (hdistinct : (rs.map Prod.fst).Nodup) (hexact : votes rs v = q.threshold)
    (hr : Eligible q v rs r) (hr' : Eligible q v rs r') : r = r' := by
  -- of two such responses, the upper one would have `f` votes above it, its own, and that of the lower one
  have hlower : ∀ {r r'}, Eligible q v rs r → Eligible q v rs r' → ¬ r.1 < r'.1 := by
    intro r r' hr hr' hlt
    let p : String × Message → Bool := fun x => ballot x.2 = v ∧ r'.1 < x.1
    have hnodup : (r :: r' :: rs.filter p).Nodup := by
      have hrs : (rs.filter p).Nodup := hdistinct.of_map.filter _
      have hnot : ∀ x : String × Message, x.1 ≤ r'.1 → x ∉ rs.filter p := fun x hx hmem =>
        absurd (of_decide_eq_true (List.mem_filter.1 hmem).2).2 (not_lt.2 hx)
      refine List.nodup_cons.2 ⟨?_, List.nodup_cons.2 ⟨hnot r' le_rfl, hrs⟩⟩
      rw [List.mem_cons, not_or]
      exact ⟨fun heq => hlt.ne (congrArg Prod.fst heq), hnot r hlt.le⟩
    have hsub : r :: r' :: rs.filter p ⊆ rs.filter fun x => ballot x.2 = v := by
      intro x hx
      rcases List.mem_cons.1 hx with rfl | hx
      · exact List.mem_filter.2 ⟨hr.mem, decide_eq_true hr.vote⟩
      · rcases List.mem_cons.1 hx with rfl | hx
        · exact List.mem_filter.2 ⟨hr'.mem, decide_eq_true hr'.vote⟩
        · obtain ⟨hmem, hp⟩ := List.mem_filter.1 hx
          exact List.mem_filter.2 ⟨hmem, decide_eq_true (of_decide_eq_true hp).1⟩
    have hlength := (List.subperm_of_subset hnodup hsub).length_le
    have habove : q.f ≤ (rs.filter p).length := List.countP_eq_length_filter ▸ hr'.above
    rw [votes, List.countP_eq_length_filter] at hexact
    rw [hexact, List.length_cons, List.length_cons, threshold] at hlength
    omega
  rcases lt_trichotomy r.1 r'.1 with hlt | heq | hlt
  · exact absurd hlt (hlower hr hr')
  · exact eq_of_node hdistinct hr.mem hr'.mem heq
  · exact absurd hlt (hlower hr' hr)

/-- votes enough at the front are the first ones -/
theorem firstVotes_append (hvotes : ∀ r ∈ done, ballot r.2 = v) (hlength : done.length = q.threshold)
    (rest : List (String × Message)) : firstVotes q v (done ++ rest) = done := by
  have hall : done.filter (fun r => ballot r.2 = v) = done :=
    List.filter_eq_self.2 fun r hr => decide_eq_true (hvotes r hr)
  rw [firstVotes, List.filter_append, hall, List.take_left' hlength]

/-- where `f` of the others above it come first, and then the response itself, it is the least -/
theorem Eligible.exists_order (h : Eligible q v rs r) : ∃ l, l.Perm rs ∧ Least (firstVotes q v l) r := by
  let p : String × Message → Bool := fun r' => ballot r'.2 = v ∧ r.1 < r'.1
  have habove : q.f ≤ (rs.filter p).length := List.countP_eq_length_filter ▸ h.above
  have hparts : (rs.filter p ++ rs.filter fun r' => !p r').Perm rs := List.filter_append_perm p rs
  have hlow : p r = false := decide_eq_false fun hlt => lt_irrefl _ hlt.2
  have hrest : r ∈ rs.filter fun r' => !p r' := List.mem_filter.2 ⟨h.mem, by rw [hlow]; rfl⟩
  obtain ⟨a, b, hsplit⟩ := List.append_of_mem hrest
  have hfirst : ∀ r' ∈ (rs.filter p).take q.f, ballot r'.2 = v ∧ r.1 < r'.1 := fun r' hr' =>
    of_decide_eq_true (List.mem_filter.1 ((List.take_sublist _ _).subset hr')).2
  refine ⟨((rs.filter p).take q.f ++ [r]) ++ ((rs.filter p).drop q.f ++ (a ++ b)), ?_, ?_⟩
  · have hfront : (((rs.filter p).take q.f ++ [r]) ++ ((rs.filter p).drop q.f ++ (a ++ b))).Perm
        (r :: (rs.filter p ++ (a ++ b))) := by
      rw [← List.append_cons, ← List.take_append_drop q.f (rs.filter p), List.append_assoc, List.take_append_drop]
      exact List.perm_middle
    have hback : (r :: (rs.filter p ++ (a ++ b))).Perm (rs.filter p ++ (a ++ r :: b)) :=
      List.perm_middle.symm.trans (List.perm_middle.symm.append_left _)
    exact (hfront.trans hback).trans (hsplit ▸ hparts)
  · have hlength : ((rs.filter p).take q.f ++ [r]).length = q.threshold := by
      rw [List.length_append, List.length_take, Nat.min_eq_left habove]
      rfl
    rw [firstVotes_append (fun r' hr' => ?_) hlength]
    · refine ⟨List.mem_append_right _ List.mem_cons_self, fun r' hr' => ?_⟩
      rcases List.mem_append.1 hr' with hr' | hr'
      · exact (hfirst r' hr').2.le
      · exact (List.mem_singleton.1 hr' ▸ le_refl r.1)
    · rcases List.mem_append.1 hr' with hr' | hr'
      · exact (hfirst r' hr').1
      · exact (List.mem_singleton.1 hr' ▸ h.vote)

/-- **The messages that some order delivers** are those of the nodes with `f` others of the ballot above them -/
theorem settled_iff (h : OneQuorum q v rs) (m : Message) :
    (∃ l, l.Perm rs ∧ settled q [] l = some (.success m)) ↔ ∃ r, Eligible q v rs r ∧ r.2 = m := by
  constructor
  · rintro ⟨l, hperm, hm⟩
    obtain ⟨r, hleast, hsettled⟩ := settled_eq (h.perm hperm)
    rw [hsettled, Option.some.injEq, Reply.success_inj] at hm
    exact ⟨r, h.eligible hperm hleast, hm⟩
  · rintro ⟨r, hr, rfl⟩
    obtain ⟨l, hperm, hleast⟩ := hr.exists_order
    obtain ⟨r', hleast', hsettled⟩ := settled_eq (h.perm hperm)
    have hdistinct := (h.perm hperm).distinct.sublist ((firstVotes_sublist q v l).map _)
    rw [hleast'.unique hdistinct hleast] at hsettled
    exact ⟨l, hperm, hsettled⟩

end Quorum

/-! ## Responses to a request -/

namespace Gateway

open Quorum

/-- responses of nodes, one after the other -/
def answers (rs : List (String × Message)) : List Op := rs.map fun r => .respond r.1 r.2

/-- a response with its node in small letters -/
def low (r : String × Message) : String × Message := (Text.lower r.1, r.2)

theorem votes_map_low (rs : List (String × Message)) (v : List UInt8) : votes (rs.map low) v = votes rs v :=
  List.countP_map

/-- responses of different members to one request, with one payload that `f + 1` of them have and no other -/
structure Answering (network : Network) (key : RequestKey) (v : List UInt8) (rs : List (String × Message)) : Prop where
  members : ∀ r ∈ rs, network.isMember r.1 = true
  keys : ∀ r ∈ rs, RequestKey.ofMessage r.2 = key
  distinct : (rs.map fun r => Text.lower r.1).Nodup
  enough : ∀ v', network.f + 1 ≤ votes rs v' ↔ v' = v

section Run

variable {S : Crypto.Scheme} {g : Setup} {s : State} {network : Network} {key : RequestKey} {v : List UInt8}
  {rs l : List (String × Message)}

theorem respond_member {node : String} (hmember : g.network.isMember node = true) (m : Message) :
    (respond g s node m).table = (s.table.record g.quorum (RequestKey.ofMessage m) node m).1 ∧
      (respond g s node m).trace = s.trace ++
        (s.table.record g.quorum (RequestKey.ofMessage m) node m).2.2.map fun d => .delivered d.callback d.reply := by
  simp only [respond, hmember]
  exact ⟨rfl, rfl⟩

/-- where there is no open request, responses bring nothing -/
theorem trace_answers_closed (hnone : s.table.find? key = none) (hmembers : ∀ r ∈ rs, g.network.isMember r.1 = true)
    (hkeys : ∀ r ∈ rs, RequestKey.ofMessage r.2 = key) : (run S g s (answers rs)).trace = s.trace := by
  induction rs generalizing s with
  | nil => rfl
  | cons r rs ih =>
    obtain ⟨hmember, hmembers⟩ := List.forall_mem_cons.1 hmembers
    obtain ⟨hkey, hkeys⟩ := List.forall_mem_cons.1 hkeys
    obtain ⟨htable, htrace⟩ := respond_member (s := s) hmember r.2
    rw [hkey] at htable htrace
    rcases Table.record_cases s.table g.quorum key r.1 r.2 with ⟨-, h⟩ | ⟨e, hf, -, -⟩ | ⟨e, reply, hf, -, -⟩
    · rw [h] at htable htrace
      calc (run S g s (answers (r :: rs))).trace = (run S g (respond g s r.1 r.2) (answers rs)).trace := rfl
        _ = (respond g s r.1 r.2).trace := ih (htable ▸ hnone) hmembers hkeys
        _ = s.trace := by rw [htrace, List.map_nil, List.append_nil]
    · exact absurd (hnone.symm.trans hf) (by simp)
    · exact absurd (hnone.symm.trans hf) (by simp)

/-- **Responses settle an open request as they come**, and what comes after that brings nothing -/
theorem trace_answers {e : Entry} (hopen : s.table.find? key = some e)
    (hmembers : ∀ r ∈ rs, g.network.isMember r.1 = true) (hkeys : ∀ r ∈ rs, RequestKey.ofMessage r.2 = key) :
    (run S g s (answers rs)).trace =
      s.trace ++ ((settled g.quorum e.responses (rs.map low)).map fun reply => .delivered e.callback reply).toList := by
  induction rs generalizing s e with
  | nil => exact (List.append_nil _).symm
  | cons r rs ih =>
    obtain ⟨hmember, hmembers⟩ := List.forall_mem_cons.1 hmembers
    obtain ⟨hkey, hkeys⟩ := List.forall_mem_cons.1 hkeys
    obtain ⟨htable, htrace⟩ := respond_member (s := s) hmember r.2
    rw [hkey] at htable htrace
    have hrun : run S g s (answers (r :: rs)) = run S g (respond g s r.1 r.2) (answers rs) := rfl
    have hsettled : settled g.quorum e.responses ((r :: rs).map low) =
        (Table.replyTo (g.quorum.decision (e.answered r.1 r.2).responses)).or
          (settled g.quorum (e.answered r.1 r.2).responses (rs.map low)) := rfl
    rw [hrun, hsettled]
    rcases Table.record_cases s.table g.quorum key r.1 r.2 with ⟨hf, -⟩ | ⟨e', hf, hd, h⟩ | ⟨e', reply, hf, hd, h⟩
    · exact absurd (hopen.symm.trans hf) (by simp)
    · -- the request stays open with one more response
      obtain rfl : e = e' := Option.some.inj (hopen.symm.trans hf)
      rw [h] at htable htrace
      have hnext : (respond g s r.1 r.2).table.find? key = some (e.answered r.1 r.2) :=
        by
        have hkept : e.key = key := Table.key_of_find? hopen
        rw [htable]
        exact Table.find?_replace_self hopen hkept
      rw [ih hnext hmembers hkeys, htrace, hd]
      simp [Table.replyTo, Entry.answered]
    · obtain rfl : e = e' := Option.some.inj (hopen.symm.trans hf)
      rw [h] at htable htrace
      have hnext : (respond g s r.1 r.2).table.find? key = none := htable ▸ Table.find?_erase_self _ _
      rw [trace_answers_closed hnext hmembers hkeys, htrace, hd]
      rfl

theorem Answering.perm (h : Answering network key v rs) (hperm : l.Perm rs) : Answering network key v l :=
  ⟨fun r hr => h.members r (hperm.subset hr), fun r hr => h.keys r (hperm.subset hr),
    (hperm.map _).nodup_iff.2 h.distinct, fun v' => by
      rw [votes, hperm.countP_eq]
      exact h.enough v'⟩

theorem Answering.oneQuorum (h : Answering g.network key v rs) :
    OneQuorum g.quorum v (rs.map low) := by
  have hdistinct : ((rs.map low).map Prod.fst).Nodup := by
    rw [List.map_map]
    exact h.distinct
  have hsub : (rs.map low).map Prod.fst ⊆ Network.addresses g.network.members := by
    intro a ha
    rw [List.map_map] at ha
    obtain ⟨r, hr, rfl⟩ := List.mem_map.1 ha
    exact Network.isMember_iff.1 (h.members r hr)
  refine ⟨hdistinct, ?_, fun v' => ?_⟩
  · calc (rs.map low).length = ((rs.map low).map Prod.fst).length := (List.length_map _).symm
      _ ≤ g.network.members.length := Network.length_le_of_subset hdistinct hsub
  · rw [votes_map_low]
    exact h.enough v'

end Run

variable {S : Crypto.Scheme} {b : Built} {pre : List Op} {e : Entry} {v : List UInt8} {rs l : List (String × Message)}

/-- what the responses to a request bring that has none so far -/
theorem trace_reached_answers (he : e ∈ (reached S b pre).table.entries) (hnew : e.responses = [])
    (h : Answering b.setup.network e.key v rs) :
    (reached S b (pre ++ answers rs)).trace =
      (reached S b pre).trace ++
        ((settled b.setup.quorum [] (rs.map low)).map fun reply => .delivered e.callback reply).toList := by
  have hopen : (reached S b pre).table.find? e.key = some e :=
    (distinct_reached S b pre).find?_eq_some_iff.2 ⟨he, rfl⟩
  rw [reached, run_append, trace_answers hopen h.members h.keys, hnew]

/-- a run goes on in the same way in whatever order responses come: the same happens to callbacks and calls -/
def OrderFree (S : Crypto.Scheme) (b : Built) (pre : List Op) (rs : List (String × Message)) : Prop :=
  ∀ l l' : List (String × Message), l.Perm rs → l'.Perm rs →
    (reached S b (pre ++ answers l)).trace = (reached S b (pre ++ answers l')).trace

/-- an order of a list that is mapped is that of an order of the list -/
theorem exists_perm_map {l : List (String × Message)} (hl : l.Perm (rs.map low)) :
    ∃ l' : List (String × Message), l'.Perm rs ∧ l'.map low = l := by
  have hcomp := congrFun (congrFun (List.eq_map_comp_perm low) l) rs
  obtain ⟨l', rfl, hperm⟩ := hcomp.mpr hl
  exact ⟨l', hperm, rfl⟩

/-- in every order, the callback receives the message of a node with `f` others above it -/
theorem Answering.delivered (he : e ∈ (reached S b pre).table.entries) (hnew : e.responses = [])
    (h : Answering b.setup.network e.key v rs) (hl : l.Perm rs) :
    ∃ r, Eligible b.setup.quorum v (rs.map low) r ∧ (reached S b (pre ++ answers l)).trace =
      (reached S b pre).trace ++ [.delivered e.callback (.success r.2)] := by
  have hone := h.oneQuorum
  obtain ⟨r, hleast, hsettled⟩ := settled_eq (hone.perm (hl.map low))
  refine ⟨r, hone.eligible (hl.map low) hleast, ?_⟩
  rw [trace_reached_answers he hnew (h.perm hl), hsettled]
  rfl

/-- in some order, the callback receives the message of a given one of these nodes -/
theorem Answering.exists_order (he : e ∈ (reached S b pre).table.entries) (hnew : e.responses = [])
    (h : Answering b.setup.network e.key v rs) {r : String × Message}
    (hr : Eligible b.setup.quorum v (rs.map low) r) :
    ∃ l : List (String × Message), l.Perm rs ∧ (reached S b (pre ++ answers l)).trace =
      (reached S b pre).trace ++ [.delivered e.callback (.success r.2)] := by
  obtain ⟨l, hl, hsettled⟩ := (settled_iff h.oneQuorum r.2).2 ⟨r, hr, rfl⟩
  obtain ⟨l', hl', rfl⟩ := exists_perm_map hl
  refine ⟨l', hl', ?_⟩
  rw [trace_reached_answers he hnew (h.perm hl'), hsettled]
  rfl

/-- **When the order of arrival does not show.** Members answer a request that has no responses so far, and one payload
of theirs has `f + 1` votes. In every order in which their responses come, the caller receives one value, a success with
that payload. It is the same for all orders exactly when the nodes with `f` others of the payload above them have sent
one and the same message; in particular when no more than `f + 1` have sent the payload. -/
theorem arrival_order_iff (he : e ∈ (reached S b pre).table.entries) (hnew : e.responses = [])
    (h : Answering b.setup.network e.key v rs) :
    (∀ l : List (String × Message), l.Perm rs → ∃ m, ballot m = v ∧ (reached S b (pre ++ answers l)).trace =
      (reached S b pre).trace ++ [.delivered e.callback (.success m)]) ∧
    (OrderFree S b pre rs ↔ ∀ r r', Eligible b.setup.quorum v (rs.map low) r →
      Eligible b.setup.quorum v (rs.map low) r' → r.2 = r'.2) ∧
    (votes rs v = b.setup.network.f + 1 → OrderFree S b pre rs) := by
  have hfree : (∀ r r', Eligible b.setup.quorum v (rs.map low) r → Eligible b.setup.quorum v (rs.map low) r' →
      r.2 = r'.2) → OrderFree S b pre rs := by
    intro hsame l l' hl hl'
    obtain ⟨r, hr, ht⟩ := h.delivered he hnew hl
    obtain ⟨r', hr', ht'⟩ := h.delivered he hnew hl'
    rw [ht, ht', hsame r r' hr hr']
  refine ⟨fun l hl => ?_, ⟨fun hsame r r' hr hr' => ?_, hfree⟩, fun hexact => ?_⟩
  · obtain ⟨r, hr, ht⟩ := h.delivered he hnew hl
    exact ⟨r.2, hr.vote, ht⟩
  · obtain ⟨l, hl, ht⟩ := h.exists_order he hnew hr
    obtain ⟨l', hl', ht'⟩ := h.exists_order he hnew hr'
    have hlast := (ht.symm.trans (hsame l l' hl hl')).trans ht'
    simpa [Reply.success] using hlast
  · have hvotes : votes (rs.map low) v = b.setup.quorum.threshold := (votes_map_low rs v).trans hexact
    exact hfree fun r r' hr hr' => congrArg Prod.snd (hr.eq_of_exact h.oneQuorum.distinct hvotes hr')

/-! ## When it does -/

/-- the answer of a node that signs with a text of its own -/
def signedBy (signature : String) : Message := { aliceRequest "don" with signature }

/-- all three nodes answer with the same payload -/
def threeAnswers : List (String × Message) := [("0xAA", signedBy "a"), ("0xBB", signedBy "b"), ("0xCC", signedBy "c")]

/-- the call that asks them -/
def asked : List Op := [.submit 0 0 (aliceRequest "don")]

theorem threeAnswers_answering :
    Answering threeNodes (RequestKey.ofMessage (aliceRequest "don")) (ballot (aliceRequest "don")) threeAnswers := by
  refine ⟨?_, ?_, by decide, fun v' => ?_⟩
  · simp only [threeAnswers, List.forall_mem_cons]
    exact ⟨by decide, by decide, by decide, by simp⟩
  · simp [threeAnswers, signedBy, RequestKey.ofMessage]
  · have hballot : ∀ r ∈ threeAnswers, ballot r.2 = ballot (aliceRequest "don") := by
      simp [threeAnswers, signedBy, ballot]
    by_cases hv : ballot (aliceRequest "don") = v'
    · have hall : votes threeAnswers v' = 3 := List.countP_eq_length.2 fun r hr => by simp [hballot r hr, hv]
      simp [hall, hv, threeNodes]
    · have hnone : votes threeAnswers v' = 0 := List.countP_eq_zero.2 fun r hr => by simp [hballot r hr, hv]
      simp [hnone, Ne.symm hv, threeNodes]

/-- the request is open then, and its callback has received nothing -/
theorem exists_asked :
    ∃ e ∈ (reached aliceScheme threeNodeGateway asked).table.entries,
      e.key = RequestKey.ofMessage (aliceRequest "don") ∧ e.callback = 0 ∧ e.responses = [] ∧
        received (reached aliceScheme threeNodeGateway asked).trace 0 = [] := by
  -- the run is evaluated once, by the kernel
  obtain ⟨hentries, hreceived⟩ :
      (reached aliceScheme threeNodeGateway asked).table.entries.map
          (fun e => (e.key, e.callback, e.responses.length)) = [(RequestKey.ofMessage (aliceRequest "don"), 0, 0)] ∧
        (received (reached aliceScheme threeNodeGateway asked).trace 0).length = 0 := by
    decide +kernel
  obtain ⟨e, hone, he⟩ := List.map_eq_singleton_iff.1 hentries
  obtain ⟨hkey, hcallback, hresponses⟩ : e.key = _ ∧ e.callback = 0 ∧ e.responses.length = 0 := by
    simpa only [Prod.mk.injEq] using he
  exact ⟨e, hone ▸ List.mem_singleton_self e, hkey, hcallback, List.length_eq_zero_iff.1 hresponses,
    List.length_eq_zero_iff.1 hreceived⟩

/-- what the caller receives then -/
theorem received_asked
    (h : Answering threeNodes (RequestKey.ofMessage (aliceRequest "don")) (ballot (aliceRequest "don")) rs) :
    received (reached aliceScheme threeNodeGateway (asked ++ answers rs)).trace 0 =
      (settled threeNodeGateway.setup.quorum [] (rs.map low)).toList := by
  obtain ⟨e, he, hkey, hcallback, hnew, hnothing⟩ := exists_asked
  rw [trace_reached_answers he hnew (hkey ▸ h), hcallback]
  cases settled threeNodeGateway.setup.quorum [] (rs.map low) with
  | none => simpa using hnothing
  | some reply => simpa [received, Event.delivery?] using hnothing

theorem arrival_order_iff_signed :
    ∃ e ∈ (reached aliceScheme threeNodeGateway asked).table.entries, e.responses = [] ∧
      Answering threeNodeGateway.setup.network e.key (ballot (aliceRequest "don")) threeAnswers ∧
      (OrderFree aliceScheme threeNodeGateway asked threeAnswers ↔
        ∀ r r', Eligible threeNodeGateway.setup.quorum (ballot (aliceRequest "don")) (threeAnswers.map low) r →
          Eligible threeNodeGateway.setup.quorum (ballot (aliceRequest "don")) (threeAnswers.map low) r' →
            r.2 = r'.2) := by
  obtain ⟨e, he, hkey, -, hnew, -⟩ := exists_asked
  have hanswering : Answering threeNodeGateway.setup.network e.key (ballot (aliceRequest "don")) threeAnswers :=
    hkey ▸ threeAnswers_answering
  exact ⟨e, he, hnew, hanswering, (arrival_order_iff he hnew hanswering).2.1⟩

/-- **The order of arrival shows.** When the first node answers first, the caller receives its message; when it answers
last, the caller receives that of the second. -/
theorem order_shows_in_signature :
    build .null threeNodes false = .ok threeNodeGateway ∧
    (∃ e ∈ (reached aliceScheme threeNodeGateway asked).table.entries, e.callback = 0 ∧ e.responses = [] ∧
      Answering threeNodeGateway.setup.network e.key (ballot (aliceRequest "don")) threeAnswers) ∧
    (received (reached aliceScheme threeNodeGateway (asked ++ answers threeAnswers)).trace 0).map
        (fun reply => reply.message.map Message.signature) = [some "a"] ∧
    (received (reached aliceScheme threeNodeGateway (asked ++ answers threeAnswers.reverse)).trace 0).map
        (fun reply => reply.message.map Message.signature) = [some "b"] ∧
    ¬ OrderFree aliceScheme threeNodeGateway asked threeAnswers := by
  obtain ⟨e, he, hkey, hcallback, hnew, -⟩ := exists_asked
  have hanswering := threeAnswers_answering
  have hfirst : (received (reached aliceScheme threeNodeGateway (asked ++ answers threeAnswers)).trace 0).map
      (fun reply => reply.message.map Message.signature) = [some "a"] := by
    rw [received_asked hanswering]
    decide +kernel
  have hlast : (received (reached aliceScheme threeNodeGateway (asked ++ answers threeAnswers.reverse)).trace 0).map
      (fun reply => reply.message.map Message.signature) = [some "b"] := by
    rw [received_asked (hanswering.perm threeAnswers.reverse_perm)]
    decide +kernel
  refine ⟨rfl, ⟨e, he, hcallback, hnew, hkey ▸ hanswering⟩, hfirst, hlast, fun hfree => ?_⟩
  rw [hfree _ _ (.refl _) threeAnswers.reverse_perm, hlast] at hfirst
  exact absurd hfirst (by decide)

end Gateway

end QuorumGateway
