import Mathlib.Data.Set.Card
import QuorumGateway.Proofs.Quorum
/-!
What the nodes that are still silent can bring about. The responses so far may be completed by any responses of nodes
that have not answered, as long as no more nodes answer than there are members (`Completion`). Some completion brings a
payload up to `f + 1` exactly when all silent nodes together could bring one there (`exists_completion_iff`): there are
always nodes enough, whatever nodes have answered (`exists_fresh`).

- `decision_exact`: a response is agreed on exactly when some payload has come to `f + 1`, and it is then that of the
  least node with such a payload; a request has failed exactly when no completion brings a payload there; otherwise it
  is pending.
-/

namespace QuorumGateway.Quorum

variable {q : Quorum} {rs rs' : Responses}

/-- some payload has come from `f + 1` nodes -/
def Believed (q : Quorum) (rs : Responses) : Prop := ∃ b, q.f + 1 ≤ votes rs b

/-- the responses of nodes that have answered, and of others that may still do so -/
structure Completion (q : Quorum) (rs rs' : Responses) : Prop where
  ascending : rs'.Ascending
  fits : rs'.length ≤ q.members
  keeps : ∀ node m, rs.get? node = some m → rs'.get? node = some m

/-- a response of the least of all nodes whose payloads have come from `f + 1` nodes -/
structure Foremost (q : Quorum) (rs : Responses) (node : String) (m : Message) : Prop where
  answered : rs.get? node = some m
  enough : q.f + 1 ≤ votes rs (ballot m)
  least : ∀ node' m', rs.get? node' = some m' → q.f + 1 ≤ votes rs (ballot m') → node ≤ node'

/-! ## Completions -/

/-- a completion adds at most the votes of the silent nodes -/
theorem Completion.votes_le (h : Completion q rs rs') (hrs : rs.Ascending) (b : List UInt8) :
    votes rs' b ≤ votes rs b + q.silent rs := by
  have hsub : rs.Subperm rs' := by
    refine List.subperm_of_subset hrs.nodup_keys.of_map fun r hr => ?_
    exact (SortedMap.get?_eq_some_iff h.ascending).1 (h.keeps r.1 r.2 ((SortedMap.get?_eq_some_iff hrs).2 hr))
  have hothers := hsub.countP_le fun r => ¬ decide (ballot r.2 = b) = true
  have hsplit := List.length_eq_countP_add_countP (fun r => decide (ballot r.2 = b)) (l := rs)
  have hsplit' := List.length_eq_countP_add_countP (fun r => decide (ballot r.2 = b)) (l := rs')
  have hfits := h.fits
  unfold votes silent
  omega

/-- however many nodes have answered, there are any number of others -/
theorem exists_fresh (used : List String) (n : Nat) :
    ∃ nodes : List String, nodes.length = n ∧ nodes.Nodup ∧ ∀ node ∈ nodes, node ∉ used := by
  have hinfinite : Infinite String :=
    .of_injective (fun k => String.ofList (List.replicate k 'n')) fun k k' h => by
      simpa using congrArg (fun s => s.toList.length) h
  obtain ⟨nodes, hnew, hcard⟩ := (used.toFinset.finite_toSet.infinite_compl).exists_subset_card_eq n
  refine ⟨nodes.toList, by simpa using hcard, nodes.nodup_toList, fun node hnode hused => ?_⟩
  exact hnew (Finset.mem_toList.1 hnode) (by simpa using hused)

/-- all silent nodes may answer with one message -/
theorem exists_unanimous (hrs : rs.Ascending) (hfits : rs.length ≤ q.members) (m : Message) :
    ∃ rs', Completion q rs rs' ∧ votes rs' (ballot m) = votes rs (ballot m) + q.silent rs := by
  obtain ⟨nodes, hlength, hnodup, hfresh⟩ := exists_fresh rs.keys (q.silent rs)
  have hkeys : ((rs ++ nodes.map fun node => (node, m)).map Prod.fst).Nodup := by
    rw [List.map_append, List.map_map]
    refine List.Nodup.append hrs.nodup_keys (by simpa [Function.comp_def] using hnodup) fun node hused hnode => ?_
    exact hfresh node (by simpa using hnode) hused
  have hperm := SortedMap.ofPairs_perm hkeys
  have hascending := SortedMap.ascending_ofPairs (rs ++ nodes.map fun node => (node, m))
  refine ⟨_, ⟨hascending, ?_, fun node m' hm' => ?_⟩, ?_⟩
  · rw [hperm.length_eq, List.length_append, List.length_map, hlength, silent]
    omega
  · rw [SortedMap.get?_eq_some_iff hrs] at hm'
    exact (SortedMap.get?_eq_some_iff hascending).2 (hperm.symm.subset (List.mem_append_left _ hm'))
  · rw [votes, hperm.countP_eq, List.countP_append, votes, List.countP_map]
    congr 1
    rw [List.countP_eq_length.2 fun node _ => by simp, hlength]

/-- **What silent nodes can bring about**: a payload comes from `f + 1` nodes in some completion exactly when one would
if all silent nodes sent it -/
theorem exists_completion_iff (hrs : rs.Ascending) (hfits : rs.length ≤ q.members) :
    (∃ rs', Completion q rs rs' ∧ Believed q rs') ↔ ∃ b, q.f + 1 ≤ votes rs b + q.silent rs := by
  constructor
  · rintro ⟨rs', hcompletion, b, henough⟩
    exact ⟨b, henough.trans (hcompletion.votes_le hrs b)⟩
  · rintro ⟨b, henough⟩
    -- a payload that nobody has sent may as well be another one
    obtain ⟨m, hm⟩ : ∃ m, q.f + 1 ≤ votes rs (ballot m) + q.silent rs := by
      rcases Nat.eq_zero_or_pos (votes rs b) with hzero | hpos
      · exact ⟨.unsigned "" "" "" .null, by omega⟩
      · obtain ⟨r, -, hr⟩ := List.countP_pos_iff.1 hpos
        exact ⟨r.2, by rw [of_decide_eq_true hr]; exact henough⟩
    obtain ⟨rs', hcompletion, hvotes⟩ := exists_unanimous hrs hfits m
    exact ⟨rs', hcompletion, ballot m, hvotes ▸ hm⟩

/-! ## Decisions -/

theorem believed_iff (q : Quorum) (rs : Responses) : Believed q rs ↔ ∃ m, q.decision rs = .agreed m := by
  constructor
  · rintro ⟨b, henough⟩
    cases hd : q.decision rs with
    | agreed m => exact ⟨m, rfl⟩
    | pending => exact absurd (votes_lt_of_pending hd b) (Nat.not_lt.2 henough)
    | failed reason =>
      have hlost := votes_add_silent_lt_of_failed hd b
      unfold threshold at hlost
      omega
  · rintro ⟨m, hd⟩
    exact ⟨ballot m, (enough_of_agreed hd).2⟩

theorem decision_failed_iff {reason : String} :
    q.decision rs = .failed reason ↔
      reason = q.splitReason rs.length ∧ ∀ b, votes rs b + q.silent rs < q.f + 1 := by
  have hverdict := decision_verdict q rs
  constructor
  · intro hd
    rw [hd] at hverdict
    cases hverdict with
    | failed hlost => exact ⟨rfl, hlost⟩
  · rintro ⟨rfl, hlost⟩
    cases hd : q.decision rs with
    | agreed m =>
      have henough := (enough_of_agreed hd).2
      exact absurd (hlost (ballot m)) (Nat.not_lt.2 (Nat.le_add_right_of_le henough))
    | pending =>
      rw [hd] at hverdict
      cases hverdict with
      | pending _ hopen =>
        obtain ⟨b, hb⟩ := hopen
        exact absurd (hlost b) (Nat.not_lt.2 hb)
    | failed reason =>
      rw [hd] at hverdict
      cases hverdict
      rfl

theorem decision_pending_iff :
    q.decision rs = .pending ↔ ¬ Believed q rs ∧ ∃ b, q.f + 1 ≤ votes rs b + q.silent rs := by
  rw [believed_iff]
  cases hd : q.decision rs with
  | agreed m => simp
  | failed reason => simpa using (decision_failed_iff.1 hd).2
  | pending =>
    have hverdict := decision_verdict q rs
    rw [hd] at hverdict
    cases hverdict with
    | pending _ hopen => simpa [threshold] using hopen

/-- nothing is decided before the first response, unless there are no more members than may be faulty -/
theorem decision_nil (h : q.f < q.members) : q.decision [] = .pending := by
  refine decision_pending_iff.2 ⟨?_, [], ?_⟩
  · rintro ⟨b, henough⟩
    exact absurd henough (Nat.not_succ_le_zero _)
  · exact Nat.le_add_left_of_le h

/-- while a request is pending, some member has not answered it -/
theorem length_lt_of_pending (h : q.decision rs = .pending) : rs.length < q.members := by
  obtain ⟨hbelow, b, hopen⟩ := decision_pending_iff.1 h
  have hfew : votes rs b < q.f + 1 := not_le.1 fun henough => hbelow ⟨b, henough⟩
  unfold silent at hopen
  omega

theorem Foremost.unique {node node' : String} {m m' : Message} (h : Foremost q rs node m)
    (h' : Foremost q rs node' m') : m = m' := by
  have hnode : node = node' :=
    le_antisymm (h.least node' m' h'.answered h'.enough) (h'.least node m h.answered h.enough)
  exact Option.some.inj (h.answered.symm.trans (hnode ▸ h'.answered))

/-- what is agreed on is the response of the least node that is believed -/
theorem foremost_of_agreed {m : Message} (hrs : rs.Ascending) (h : q.decision rs = .agreed m) :
    ∃ node, Foremost q rs node m := by
  have hverdict := decision_verdict q rs
  rw [h] at hverdict
  cases hverdict with
  | agreed before after node m hsplit henough hfirst =>
    refine ⟨node, (SortedMap.get?_eq_some_iff hrs).2 (by rw [hsplit]; simp), henough, fun node' m' hm' henough' => ?_⟩
    have hmem := (SortedMap.get?_eq_some_iff hrs).1 hm'
    rw [hsplit] at hmem
    rw [SortedMap.Ascending, SortedMap.keys, hsplit, List.map_append, List.map_cons] at hrs
    rcases List.mem_append.1 hmem with hbefore | hafter
    · exact absurd (hfirst _ hbefore) (Nat.not_lt.2 henough')
    · rcases List.mem_cons.1 hafter with heq | hafter
      · exact (congrArg Prod.fst heq).ge
      · have htail := (List.pairwise_append.1 hrs).2.1
        exact ((List.pairwise_cons.1 htail).1 _ (List.mem_map_of_mem hafter)).le

/-- what each decision says, by the responses so far and those that may still come -/
structure Exact (q : Quorum) (rs : Responses) : Prop where
  believed : (∃ m, q.decision rs = .agreed m) ↔ Believed q rs
  agreed : ∀ m, q.decision rs = .agreed m ↔ ∃ node, Foremost q rs node m
  failed : ∀ reason, q.decision rs = .failed reason ↔
    reason = q.splitReason rs.length ∧ ∀ rs', Completion q rs rs' → ¬ Believed q rs'
  pending : q.decision rs = .pending ↔ ¬ Believed q rs ∧ ∃ rs', Completion q rs rs' ∧ Believed q rs'

/-- **Decisions are exact.** For any responses of no more nodes than there are members, one is agreed on exactly when
some payload has come from `f + 1` nodes, and it is that of the least node with such a payload; the request has failed
exactly when no responses that may still come would bring a payload there; and it is pending otherwise. -/
theorem decision_exact (q : Quorum) (rs : Responses) (hrs : rs.Ascending) (hfits : rs.length ≤ q.members) :
    Exact q rs := by
  have hcompletion := exists_completion_iff hrs hfits
  refine ⟨(believed_iff q rs).symm, fun m => ⟨foremost_of_agreed hrs, ?_⟩, fun reason => ?_, ?_⟩
  · rintro ⟨node, hforemost⟩
    obtain ⟨m', hagreed⟩ := (believed_iff q rs).1 ⟨ballot m, hforemost.enough⟩
    obtain ⟨node', hforemost'⟩ := foremost_of_agreed hrs hagreed
    rw [hagreed, hforemost.unique hforemost']
  · have hlost : (∀ rs', Completion q rs rs' → ¬ Believed q rs') ↔ ∀ b, votes rs b + q.silent rs < q.f + 1 := by
      simpa using not_congr hcompletion
    rw [decision_failed_iff, hlost]
  · rw [decision_pending_iff, hcompletion]

/-- responses in which two payloads have each come from two nodes -/
def twoCamps : Responses :=
  [("0x0a", .unsigned "m" "secrets_list" "don" (.bool true)), ("0x0b", .unsigned "m" "secrets_list" "don" .null),
    ("0x0c", .unsigned "m" "secrets_list" "don" .null), ("0x0d", .unsigned "m" "secrets_list" "don" (.bool true))]

theorem ascending_twoCamps : twoCamps.Ascending := by
  unfold SortedMap.Ascending
  decide

theorem decision_exact_twoCamps : twoCamps.Ascending ∧ twoCamps.length ≤ 5 ∧ Exact ⟨5, 1⟩ twoCamps :=
  ⟨ascending_twoCamps, by decide, decision_exact ⟨5, 1⟩ twoCamps ascending_twoCamps (by decide)⟩

end QuorumGateway.Quorum
