import Mathlib.Tactic
import QuorumGateway.Proofs.SortedMap
import QuorumGateway.Quorum
/-!
What a decision says about the votes. Each node that has answered has one vote, for the ballot of its response
(`votes`). A response is agreed on only with `f + 1` votes for its ballot; a request has failed only when no ballot can
come to `f + 1` votes even if all silent nodes vote for it; and as long as it is pending no ballot has come so far
(`decision_verdict`).

When at most `f` nodes are faulty and all others answer with one payload, no other payload is agreed on
(`ballot_of_agreed`); when moreover the others are a majority, the request does not fail (`decision_ne_failed`), and it
is decided once `f + 1` of the others have answered (`decision_ne_pending`).
-/

namespace QuorumGateway.Quorum

variable {q : Quorum} {rs : Responses}

/-- the number of responses with a ballot -/
def votes (rs : Responses) (b : List UInt8) : Nat := rs.countP fun r => ballot r.2 = b

/-- the nodes whose responses have a ballot -/
def voters (rs : Responses) (b : List UInt8) : List String := (rs.filter fun r => ballot r.2 = b).map Prod.fst

/-- the number of nodes that have not answered -/
def silent (q : Quorum) (rs : Responses) : Nat := q.members - rs.length

theorem mem_voters {b : List UInt8} {node : String} :
    node ∈ voters rs b ↔ ∃ r ∈ rs, ballot r.2 = b ∧ r.1 = node := by
  simp [voters, and_assoc]

theorem length_voters (rs : Responses) (b : List UInt8) : (voters rs b).length = votes rs b := by
  simp [voters, votes, List.countP_eq_length_filter]

theorem voters_sublist_keys (rs : Responses) (b : List UInt8) : (voters rs b).Sublist rs.keys :=
  List.filter_sublist.map _

theorem support_ballots (rs : Responses) (b : List UInt8) : support (rs.map fun r => ballot r.2) b = votes rs b := by
  simp only [support, votes, List.count, List.countP_map]
  exact List.countP_congr fun r _ => by simp

/-! ## The greatest number of votes -/

theorem le_foldl_max (l : List Nat) (a : Nat) : a ≤ l.foldl max a ∧ ∀ n ∈ l, n ≤ l.foldl max a := by
  induction l generalizing a with
  | nil => simp
  | cons n l ih =>
    obtain ⟨hstart, hrest⟩ := ih (max a n)
    refine ⟨(le_max_left a n).trans hstart, fun k hk => ?_⟩
    rcases List.mem_cons.1 hk with rfl | hk
    · exact (le_max_right a k).trans hstart
    · exact hrest k hk

theorem foldl_max_mem (l : List Nat) (a : Nat) : l.foldl max a = a ∨ l.foldl max a ∈ l := by
  induction l generalizing a with
  | nil => exact .inl rfl
  | cons n l ih =>
    rcases ih (max a n) with h | h
    · rw [List.foldl_cons, h]
      rcases max_choice a n with hm | hm <;> rw [hm]
      · exact .inl rfl
      · exact .inr List.mem_cons_self
    · exact .inr (List.mem_cons_of_mem n h)

theorem votes_le_largest (rs : Responses) (b : List UInt8) : votes rs b ≤ largest (rs.map fun r => ballot r.2) := by
  rcases Nat.eq_zero_or_pos (votes rs b) with hzero | hpos
  · omega
  · obtain ⟨r, hr, hb⟩ := List.countP_pos_iff.1 hpos
    refine (le_foldl_max _ 0).2 _ (List.mem_map.2 ⟨b, List.mem_map.2 ⟨r, hr, by simpa using hb⟩, ?_⟩)
    exact support_ballots rs b

theorem exists_votes_eq_largest (rs : Responses) : ∃ b, votes rs b = largest (rs.map fun r => ballot r.2) := by
  rcases foldl_max_mem ((rs.map fun r => ballot r.2).map (support (rs.map fun r => ballot r.2))) 0 with h | h
  · refine ⟨[], Nat.le_antisymm (votes_le_largest rs []) ?_⟩
    rw [largest, h]
    exact Nat.zero_le _
  · obtain ⟨b, -, hb⟩ := List.mem_map.1 h
    exact ⟨b, (support_ballots rs b).symm.trans hb⟩

/-! ## Decisions -/

/-- what a decision says about the votes -/
inductive Verdict (q : Quorum) (rs : Responses) : Decision → Prop where
  /-- the first response whose ballot has enough votes -/
  | agreed (before after : Responses) (node : String) (m : Message) (hsplit : rs = before ++ (node, m) :: after)
    (henough : q.threshold ≤ votes rs (ballot m)) (hfirst : ∀ r ∈ before, votes rs (ballot r.2) < q.threshold) :
    Verdict q rs (.agreed m)
  /-- no ballot can come to enough votes any more -/
  | failed (hlost : ∀ b, votes rs b + q.silent rs < q.threshold) : Verdict q rs (.failed (q.splitReason rs.length))
  /-- no ballot has come to enough votes, and one still can -/
  | pending (hbelow : ∀ b, votes rs b < q.threshold) (hopen : ∃ b, q.threshold ≤ votes rs b + q.silent rs) :
    Verdict q rs .pending

/-- the first response whose ballot has enough votes -/
theorem find?_zip_ballots (q : Quorum) (rs : Responses) :
    (rs.zip (rs.map fun r => ballot r.2)).find? (fun r => q.threshold ≤ support (rs.map fun r => ballot r.2) r.2) =
      (rs.find? fun r => q.threshold ≤ votes rs (ballot r.2)).map fun r => (r, ballot r.2) := by
  rw [← List.map_prod_left_eq_zip, List.find?_map]
  simp only [support_ballots, Function.comp_def]

/-- **What a decision says about the votes** -/
theorem decision_verdict (q : Quorum) (rs : Responses) : Verdict q rs (q.decision rs) := by
  unfold decision
  simp only [find?_zip_ballots]
  cases hfind : rs.find? fun r => q.threshold ≤ votes rs (ballot r.2) with
  | some r =>
    obtain ⟨henough, before, after, hsplit, hfirst⟩ := List.find?_eq_some_iff_append.1 hfind
    exact .agreed before after r.1 r.2 hsplit (by simpa using henough) fun r' hr' => by simpa using hfirst r' hr'
  | none =>
    have hbelow : ∀ b, votes rs b < q.threshold := by
      intro b
      by_contra henough
      have hpos : 0 < votes rs b := by unfold threshold at henough; omega
      obtain ⟨r, hr, hb⟩ := List.countP_pos_iff.1 hpos
      have hnone := List.find?_eq_none.1 hfind r hr
      rw [of_decide_eq_true hb] at hnone
      simp at hnone
      omega
    obtain ⟨b, hb⟩ := exists_votes_eq_largest rs
    simp only [Option.map_none]
    split_ifs with hlost
    · refine .failed fun b' => ?_
      have hle := votes_le_largest rs b'
      unfold silent
      omega
    · exact .pending hbelow ⟨b, by unfold silent; omega⟩

/-- a pending request has no ballot with enough votes -/
theorem votes_lt_of_pending (h : q.decision rs = .pending) (b : List UInt8) : votes rs b < q.threshold := by
  have hv := decision_verdict q rs
  rw [h] at hv
  cases hv with
  | pending hbelow _ => exact hbelow b

/-- a request has not failed while a ballot can still come to enough votes -/
theorem votes_add_silent_lt_of_failed {reason : String} (h : q.decision rs = .failed reason) (b : List UInt8) :
    votes rs b + q.silent rs < q.threshold := by
  have hv := decision_verdict q rs
  rw [h] at hv
  cases hv with
  | failed hlost => exact hlost b

/-- what is agreed on is a response with enough votes for its ballot -/
theorem enough_of_agreed {m : Message} (h : q.decision rs = .agreed m) :
    (∃ node, (node, m) ∈ rs) ∧ q.threshold ≤ votes rs (ballot m) := by
  have hv := decision_verdict q rs
  rw [h] at hv
  cases hv with
  | agreed before after node m hsplit henough _ => exact ⟨⟨node, by rw [hsplit]; simp⟩, henough⟩

/-! ## Faulty nodes -/

section Faulty

variable {faulty : List String} {p : Json}

/-- all nodes that have answered, apart from the faulty ones, have answered with one payload -/
def Unanimous (faulty : List String) (p : Json) (rs : Responses) : Prop :=
  ∀ r ∈ rs, r.1 ∉ faulty → r.2.body.payload = p

/-- a response with `f + 1` votes has the vote of a node that is not faulty -/
theorem ballot_of_agreed {m : Message} (hrs : rs.Ascending) (hfaulty : faulty.length ≤ q.f)
    (hsame : Unanimous faulty p rs) (h : q.decision rs = .agreed m) : ballot m = p.encoding := by
  have henough := (enough_of_agreed h).2
  have hnodup : (voters rs (ballot m)).Nodup := hrs.nodup_keys.sublist (voters_sublist_keys rs (ballot m))
  obtain ⟨a, ha, hhonest⟩ : ∃ a ∈ voters rs (ballot m), a ∉ faulty := by
    by_contra hnone
    simp only [not_exists, not_and, not_not] at hnone
    have hle := (List.subperm_of_subset hnodup hnone).length_le
    rw [length_voters] at hle
    unfold threshold at henough
    omega
  obtain ⟨r, hr, hballot, rfl⟩ := mem_voters.1 ha
  rw [← hballot, ballot, hsame r hr hhonest]

/-- only faulty nodes withhold their vote from the payload of the others -/
theorem length_le_votes_add (hrs : rs.Ascending) (hsame : Unanimous faulty p rs) :
    rs.length ≤ votes rs p.encoding + faulty.length := by
  have hsplit := List.length_eq_countP_add_countP (fun r => decide (ballot r.2 = p.encoding)) (l := rs)
  have hothers : rs.countP (fun r => ¬ decide (ballot r.2 = p.encoding) = true) ≤ faulty.length := by
    rw [List.countP_eq_length_filter, ← List.length_map Prod.fst]
    refine (List.subperm_of_subset (hrs.nodup_keys.sublist (List.filter_sublist.map _)) fun a ha => ?_).length_le
    obtain ⟨r, hr, rfl⟩ := List.mem_map.1 ha
    obtain ⟨hr, hballot⟩ := List.mem_filter.1 hr
    by_contra hhonest
    simp [ballot, hsame r hr hhonest] at hballot
  unfold votes
  omega

/-- with a majority of nodes that are not faulty, a request does not fail -/
theorem decision_ne_failed (hrs : rs.Ascending) (hfaulty : faulty.length ≤ q.f) (hmajority : 2 * q.f + 1 ≤ q.members)
    (hsame : Unanimous faulty p rs) (reason : String) : q.decision rs ≠ .failed reason := by
  intro h
  have hlost := votes_add_silent_lt_of_failed h p.encoding
  have hvotes := length_le_votes_add hrs hsame
  unfold silent threshold at hlost
  omega

/-- a request is not pending any more when `f + 1` nodes that are not faulty have answered -/
theorem decision_ne_pending {nodes : List String} (hsame : Unanimous faulty p rs) (hnodup : nodes.Nodup)
    (hanswered : nodes ⊆ rs.keys) (hhonest : ∀ a ∈ nodes, a ∉ faulty) (henough : q.threshold ≤ nodes.length) :
    q.decision rs ≠ .pending := by
  intro h
  have hbelow := votes_lt_of_pending h p.encoding
  have hsub : nodes ⊆ voters rs p.encoding := by
    intro a ha
    obtain ⟨r, hr, rfl⟩ := List.mem_map.1 (hanswered ha)
    exact mem_voters.2 ⟨r, hr, by rw [ballot, hsame r hr (hhonest _ ha)], rfl⟩
  have hle := (List.subperm_of_subset hnodup hsub).length_le
  rw [length_voters] at hle
  omega

end Faulty

end QuorumGateway.Quorum
