import QuorumGateway.Proofs.Gateway.Agreement
import QuorumGateway.Proofs.Json.Canonical
/-!
What faulty nodes can do to a request. At most `f` nodes are faulty and answer what they like, as often as they like;
all others answer with one payload for as long as the request is open (`Loyal`).

- `byzantine_tolerance`: no other payload is delivered as a success. When the nodes that are not faulty are a majority,
  the request does not fail for want of agreement, and it has ended once `f + 1` of them have answered: with their
  payload, unless it was overdue, evicted or ended with the gateway before.
-/

namespace QuorumGateway.Gateway

open Pending (Delivery Table Entry)

variable (S : Crypto.Scheme) (b : Built)

/-- for as long as a request is open, the members that are not faulty answer it with one payload only -/
def Loyal (pre : List Op) (now call : Nat) (request : Message) (mid : List Op) (faulty : List Member) (p : Json) :
    Prop :=
  ∀ since o node m, since ++ [o] <+: mid → StaysOpen S b pre now call request since →
    o.answer? b.setup (RequestKey.ofMessage request) = some (node, m) → node ∉ Network.addresses faulty →
    m.body.payload = p

/-- `f + 1` members that are not faulty have answered a request -/
def EnoughHeard (g : Setup) (request : Message) (mid : List Op) (faulty : List Member) : Prop :=
  ∃ nodes : List Member, nodes.Sublist g.network.members ∧ g.network.f + 1 ≤ nodes.length ∧
    ∀ n ∈ nodes, Text.lower n.address ∉ Network.addresses faulty ∧
      (latest g (RequestKey.ofMessage request) (Text.lower n.address) mid).isSome = true

variable {S b} {pre mid since : List Op} {now call : Nat} {request : Message} {faulty : List Member} {p : Json}

/-- what an open request has heard, and what it hears next, are the answers of loyal members -/
theorem Loyal.unanimous (h : Loyal S b pre now call request mid faulty p)
    (hstays : StaysOpen S b pre now call request since) {o : Op} (hpre : since ++ [o] <+: mid) :
    Quorum.Unanimous (Network.addresses faulty) p (openRequest b.setup now call request (since ++ [o])).responses := by
  intro r hr hhonest
  obtain ⟨o', ho', hanswer⟩ := List.mem_filterMap.1 (SortedMap.mem_of_mem_ofPairs hr)
  obtain ⟨before, after, hsplit⟩ := List.append_of_mem ho'
  have hbefore : before ++ [o'] <+: since ++ [o] := ⟨after, by simp [hsplit]⟩
  have hopen : before <+: since := by
    rcases List.prefix_concat_iff.1 hbefore with heq | hle
    · rw [(List.append_inj' heq rfl).1]
    · exact (List.prefix_append _ _).trans hle
  exact h before o' r.1 r.2 (hbefore.trans hpre) (hstays.mono S b hopen) hanswer hhonest

/-- a loyal request that is settled with a success is settled with the payload -/
theorem Loyal.settled_success (h : Loyal S b pre now call request mid faulty p)
    (hfaulty : faulty.length ≤ b.setup.network.f) (hproper : p.Proper)
    (hstays : StaysOpen S b pre now call request since) {o : Op} (hpre : since ++ [o] <+: mid) {reply : Reply}
    (hsettles : Settles b.setup (openRequest b.setup now call request since) o reply)
    (hcode : reply.code = .noError) : ∃ m, reply = .success m ∧ m.body.payload = p := by
  obtain ⟨m, rfl, -, hdecision⟩ := agreed_of_settles hsettles hcode
  have hballot := Quorum.ballot_of_agreed (q := b.setup.quorum) (ascending_responses _ _ _ _ _)
    ((List.length_map _).trans_le hfaulty) (h.unanimous hstays hpre) hdecision
  exact ⟨m, rfl, Json.encoding_injective hproper hballot⟩

/-- with a majority of members that are not faulty, a loyal request does not fail for want of agreement -/
theorem Loyal.settled_failure (h : Loyal S b pre now call request mid faulty p)
    (hfaulty : faulty.length ≤ b.setup.network.f)
    (hmajority : 2 * b.setup.network.f + 1 ≤ b.setup.network.members.length)
    (hstays : StaysOpen S b pre now call request since) {o : Op} (hpre : since ++ [o] <+: mid) {reply : Reply}
    (hsettles : Settles b.setup (openRequest b.setup now call request since) o reply) :
    reply.code ≠ .nodeResponseEncodingError := by
  cases hsettles with
  | decided node last reply hanswer hreply =>
    rw [← openRequest_snoc] at hreply
    have hne := Quorum.decision_ne_failed (q := b.setup.quorum) (ascending_responses _ _ _ _ _)
      ((List.length_map _).trans_le hfaulty) hmajority (h.unanimous hstays hpre)
    rcases Table.replyTo_eq_some_iff.1 hreply with ⟨m, -, rfl⟩ | ⟨reason, hdecision, -⟩
    · simp [Reply.success]
    · exact absurd hdecision (hne reason)
  | overdue now hlate => simp [Table.timeout, Reply.failure]
  | drained => simp [Reply.failure]

/-- a loyal request that `f + 1` members that are not faulty have answered is not open any more -/
theorem Loyal.not_open (h : Loyal S b pre now call request mid faulty p)
    (hcheck : b.setup.network.check = .ok ()) (henough : EnoughHeard b.setup request mid faulty) :
    ¬ StaysOpen S b pre now call request mid := by
  intro hstays
  obtain ⟨nodes, hsub, hlength, hheard⟩ := henough
  have hopen := hstays mid (List.prefix_refl _)
  have hanswered : Network.addresses nodes ⊆ (openRequest b.setup now call request mid).responses.keys := by
    intro a ha
    obtain ⟨n, hn, rfl⟩ := Network.mem_addresses.1 ha
    obtain ⟨m, hm⟩ := Option.isSome_iff_exists.1 (hheard n hn).2
    rw [← get?_responses b.setup now call, SortedMap.get?_eq_some_iff (ascending_responses _ _ _ _ _)] at hm
    exact List.mem_map_of_mem (f := Prod.fst) hm
  have hpending : b.setup.quorum.decision (openRequest b.setup now call request mid).responses = .pending := by
    refine (undecided S b _ hopen).resolve_left fun hempty => ?_
    rw [hempty] at hanswered
    have hnone := List.subset_nil.1 hanswered
    rw [List.length_eq_zero_iff.1 ((List.length_map _).symm.trans (congrArg List.length hnone))] at hlength
    exact absurd hlength (by simp)
  -- the last operation is one that the request has been through as well
  have hsame : Quorum.Unanimous (Network.addresses faulty) p (openRequest b.setup now call request mid).responses := by
    induction mid using List.reverseRecOn with
    | nil => exact fun r hr => absurd hr List.not_mem_nil
    | append_singleton mid o _ => exact h.unanimous (hstays.mono S b (List.prefix_append _ _)) (List.prefix_refl _)
  refine Quorum.decision_ne_pending hsame
    ((Network.nodup_addresses_of_check hcheck).sublist (hsub.map _)) hanswered (fun a ha => ?_) ?_ hpending
  · obtain ⟨n, hn, rfl⟩ := Network.mem_addresses.1 ha
    exact (hheard n hn).1
  · exact hlength.trans_eq (List.length_map _).symm

/-- what faulty members cannot prevent: a success has the payload `p`; and when the members that are not faulty are a
majority, the request does not fail for want of agreement, and once `f + 1` of them have answered its callback has
received the payload, unless the request was overdue or ended with the gateway or was evicted before that -/
structure Tolerant (b : Built) (call : Nat) (request : Message) (mid : List Op) (faulty : List Member) (p : Json)
    (trace : List Event) : Prop where
  payload : ∀ reply, .delivered call reply ∈ trace → reply.code = .noError →
    ∃ m, reply = .success m ∧ m.body.payload = p
  agreement : 2 * b.setup.network.f + 1 ≤ b.setup.network.members.length → ∀ reply, .delivered call reply ∈ trace →
    reply.code ≠ .nodeResponseEncodingError
  prompt : 2 * b.setup.network.f + 1 ≤ b.setup.network.members.length → EnoughHeard b.setup request mid faulty →
    (∃ m, .delivered call (.success m) ∈ trace ∧ m.body.payload = p) ∨
      (∃ reply, .delivered call reply ∈ trace ∧ (reply.code = .requestTimeoutError ∨ reply.code = .fatalError)) ∨
      .dropped call ∈ trace

/-- **Up to `f` faulty nodes are tolerated.** In any run of a gateway that has been built, in which no two calls are the
same, let a call register a request, and let all members but `f` at most answer it with the payload `p` only, as long as
it is open. Then the faulty ones cannot prevent its success, and `p` is the only success. -/
theorem byzantine_tolerance {raw : Json} {network : Network} {hasSource : Bool}
    (hbuild : build raw network hasSource = .ok b)
    (hfresh : ((pre ++ .submit now call request :: mid).filterMap Op.submits?).Nodup)
    (hregistered : StaysOpen S b pre now call request []) (hfaulty : faulty.length ≤ network.f) (hproper : p.Proper)
    (hloyal : Loyal S b pre now call request mid faulty p) :
    Tolerant b call request mid faulty p (reached S b (pre ++ .submit now call request :: mid)).trace := by
  obtain ⟨rfl, hcheck⟩ := network_of_build hbuild
  -- a value that the callback has received settled the request in the course of the run
  have hsettled : ∀ reply, .delivered call reply ∈ (reached S b (pre ++ .submit now call request :: mid)).trace →
      ∃ since o, since ++ [o] <+: mid ∧ StaysOpen S b pre now call request since ∧
        Settles b.setup (openRequest b.setup now call request since) o reply := by
    intro reply hev
    obtain ⟨pre', now', request', since, o, post, hsplit, hstays, hsettles⟩ := delivery_history S b _ hev
    obtain ⟨rfl, rfl, rfl, rfl⟩ := split_unique hfresh rfl hsplit
    exact ⟨since, o, ⟨post, by simp⟩, hstays, hsettles⟩
  refine ⟨fun reply hev hcode => ?_, fun hmajority reply hev => ?_, fun hmajority henough => ?_⟩
  · obtain ⟨since, o, hpre, hstays, hsettles⟩ := hsettled reply hev
    exact hloyal.settled_success hfaulty hproper hstays hpre hsettles hcode
  · obtain ⟨since, o, hpre, hstays, hsettles⟩ := hsettled reply hev
    exact hloyal.settled_failure hfaulty hmajority hstays hpre hsettles
  · rcases open_or_ended S b mid hregistered with hstays | ⟨since, o, hpre, hstays, ⟨reply, hsettles, hev⟩ | hev⟩
    · exact absurd hstays (hloyal.not_open hcheck henough)
    · have hne := hloyal.settled_failure hfaulty hmajority hstays hpre hsettles
      rcases code_of_settles hsettles with hcode | hcode | hcode | hcode
      · obtain ⟨m, rfl, hm⟩ := hloyal.settled_success hfaulty hproper hstays hpre hsettles hcode
        exact .inl ⟨m, hev, hm⟩
      · exact absurd hcode hne
      · exact .inr (.inl ⟨reply, hev, .inl hcode⟩)
      · exact .inr (.inl ⟨reply, hev, .inr hcode⟩)
    · exact .inr (.inr hev)

/-- an answer with a payload of its own -/
def dissent : Message := { aliceRequest "don" with body.payload := .bool true }

/-- one node of three answers twice with another payload than the two others -/
def outvoted : List Op :=
  [.respond "0xaa" dissent, .respond "0xBB" (aliceRequest "don"), .respond "0xaa" dissent,
    .respond "0xcc" (aliceRequest "don")]

/-- the callback receives the payload of the two -/
theorem byzantine_tolerance_outvoted :
    build .null threeNodes false = .ok threeNodeGateway ∧
      2 * threeNodes.f + 1 ≤ threeNodes.members.length ∧
      EnoughHeard threeNodeGateway.setup (aliceRequest "don") outvoted [⟨"first", "0xaa"⟩] ∧
      Tolerant threeNodeGateway 0 (aliceRequest "don") outvoted [⟨"first", "0xaa"⟩] .null
        (reached aliceScheme threeNodeGateway (.submit 0 0 (aliceRequest "don") :: outvoted)).trace ∧
      ∃ m, .delivered 0 (.success m) ∈
        (reached aliceScheme threeNodeGateway (.submit 0 0 (aliceRequest "don") :: outvoted)).trace ∧
        m.body.payload = .null := by
  have hbuild : build .null threeNodes false = .ok threeNodeGateway := rfl
  have hregistered : StaysOpen aliceScheme threeNodeGateway [] 0 0 (aliceRequest "don") [] := by
    have hopen : (reached aliceScheme threeNodeGateway [.submit 0 0 (aliceRequest "don")]).table.entries.isEmpty =
        false := by
      decide +kernel
    obtain ⟨e, he⟩ := List.exists_mem_of_ne_nil _ (List.isEmpty_eq_false_iff.1 hopen)
    obtain ⟨pre, now, m, mid, hops, -, hstays⟩ := history aliceScheme threeNodeGateway _ he
    generalize e.callback = callback at hops hstays
    obtain ⟨rfl, hlast⟩ | ⟨-, hnil⟩ := List.append_eq_singleton_iff.1 hops.symm
    · cases hlast
      exact hstays
    · exact absurd hnil (List.cons_ne_nil _ _)
  have hloyal : Loyal aliceScheme threeNodeGateway [] 0 0 (aliceRequest "don") outvoted [⟨"first", "0xaa"⟩] .null := by
    intro since o node m hpre _ hanswer hhonest
    obtain ⟨node', rfl, -, -, rfl⟩ := answer?_eq_some_iff.1 hanswer
    have hmem : Op.respond node' m ∈ outvoted := hpre.subset (by simp)
    simp only [outvoted, List.mem_cons, Op.respond.injEq, List.not_mem_nil, or_false] at hmem
    rcases hmem with ⟨rfl, -⟩ | ⟨-, rfl⟩ | ⟨rfl, -⟩ | ⟨-, rfl⟩
    · exact absurd (by decide) hhonest
    · rfl
    · exact absurd (by decide) hhonest
    · rfl
  have henough : EnoughHeard threeNodeGateway.setup (aliceRequest "don") outvoted [⟨"first", "0xaa"⟩] := by
    refine ⟨[⟨"second", "0xbb"⟩, ⟨"third", "0xcc"⟩], ?_, le_refl 2, ?_⟩
    · exact List.sublist_cons_self _ _
    · intro n hn
      rcases List.mem_pair.1 hn with rfl | rfl
      · exact ⟨by decide, by decide +kernel⟩
      · exact ⟨by decide, by decide +kernel⟩
  have hproper : Json.null.Proper := trivial
  have htolerant := byzantine_tolerance hbuild (by decide) hregistered (by decide) hproper hloyal
  have hmajority : 2 * threeNodes.f + 1 ≤ threeNodes.members.length := by decide
  refine ⟨hbuild, hmajority, henough, htolerant, ?_⟩
  obtain ⟨hcodes, hnone⟩ :
      ((reached aliceScheme threeNodeGateway (.submit 0 0 (aliceRequest "don") :: outvoted)).trace.filterMap
        Event.delivery?).map (fun d => d.reply.code) = [.noError] ∧
      (reached aliceScheme threeNodeGateway (.submit 0 0 (aliceRequest "don") :: outvoted)).trace.filterMap
        Event.drop? = [] := by
    decide +kernel
  rcases htolerant.prompt hmajority henough with hsuccess | ⟨reply, hev, hcode⟩ | hdropped
  · exact hsuccess
  · have hcodes' : reply.code ∈ [ErrorCode.noError] :=
      hcodes ▸ List.mem_map.2 ⟨⟨0, reply⟩, List.mem_filterMap.2 ⟨_, hev, rfl⟩, rfl⟩
    simp [List.mem_singleton.1 hcodes'] at hcode
  · exact absurd (hnone ▸ List.mem_filterMap.2 ⟨_, hdropped, rfl⟩ : 0 ∈ []) List.not_mem_nil

end QuorumGateway.Gateway
