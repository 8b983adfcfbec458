import QuorumGateway.Proofs.Config.Network
import QuorumGateway.Proofs.Gateway.History
/-!
What it takes for a response to be delivered. A request takes responses from members only, and holds at most one of each
member, whatever the letter case in which the nodes' addresses come. So `f + 1` equal payloads are those of `f + 1`
members.

- `quorum_soundness`: a response that is delivered as a success has the payload that `f + 1` members have last answered
  its request with, it is itself the last answer of one of them, and it bears the request's id and sender.
-/

namespace QuorumGateway.Gateway

open Pending (Delivery Table Entry)

variable {g : Setup}

/-! ## The responses of a request -/

theorem get?_responses (g : Setup) (now call : Nat) (request : Message) (since : List Op) (node : String) :
    (openRequest g now call request since).responses.get? node =
      latest g (RequestKey.ofMessage request) node since :=
  SortedMap.get?_ofPairs _ _

theorem ascending_responses (g : Setup) (now call : Nat) (request : Message) (since : List Op) :
    (openRequest g now call request since).responses.Ascending :=
  SortedMap.ascending_ofPairs _

/-- the responses come from members -/
theorem member_of_mem_responses {now call : Nat} {request : Message} {since : List Op} {r : String × Message}
    (h : r ∈ (openRequest g now call request since).responses) :
    r.1 ∈ Network.addresses g.network.members := by
  obtain ⟨node, -, hmember, -, hnode⟩ := mem_heard.1 (SortedMap.mem_of_mem_ofPairs h)
  exact hnode ▸ Network.isMember_iff.1 hmember

/-- the responses bear the id and the sender of the request -/
theorem key_of_mem_responses {now call : Nat} {request : Message} {since : List Op} {r : String × Message}
    (h : r ∈ (openRequest g now call request since).responses) :
    RequestKey.ofMessage r.2 = RequestKey.ofMessage request := by
  obtain ⟨node, -, -, hkey, -⟩ := mem_heard.1 (SortedMap.mem_of_mem_ofPairs h)
  exact hkey

theorem length_responses_le (g : Setup) (now call : Nat) (request : Message) (since : List Op) :
    (openRequest g now call request since).responses.length ≤ g.network.members.length := by
  rw [← List.length_map Prod.fst]
  refine Network.length_le_of_subset (ascending_responses g now call request since).nodup_keys fun a ha => ?_
  obtain ⟨r, hr, rfl⟩ := List.mem_map.1 ha
  exact member_of_mem_responses hr

/-! ## Agreement -/

/-- a response to a request is believed: `f + 1` members have last answered the request with its payload, one of them
with the response itself, and it bears the id and the sender of the request -/
structure Believed (g : Setup) (request : Message) (since : List Op) (m : Message) : Prop where
  backed : ∃ nodes : List Member, nodes.Sublist g.network.members ∧
    (nodes.map fun n => Network.normalAddress n.address).Nodup ∧ g.network.f + 1 ≤ nodes.length ∧
    (∀ n ∈ nodes, ∃ r, latest g (RequestKey.ofMessage request) (Text.lower n.address) since = some r ∧
      r.body.payload.encoding = m.body.payload.encoding) ∧
    ∃ n ∈ nodes, latest g (RequestKey.ofMessage request) (Text.lower n.address) since = some m
  id : m.body.messageId = request.body.messageId
  sender : Text.sameIgnoringCase m.body.sender request.body.sender = true

theorem believed_of_agreed (hcheck : g.network.check = .ok ()) {now call : Nat} {request m : Message} {since : List Op}
    (h : g.quorum.decision (openRequest g now call request since).responses = .agreed m) :
    Believed g request since m := by
  obtain ⟨⟨node, hm⟩, henough⟩ := Quorum.enough_of_agreed h
  have hascending := ascending_responses g now call request since
  have hnodup := (hascending.nodup_keys).sublist (Quorum.voters_sublist_keys _ (Quorum.ballot m))
  obtain ⟨nodes, hsub, hle, hvoted, hall⟩ := Network.exists_nodes hnodup fun a ha => by
    obtain ⟨r, hr, -, rfl⟩ := Quorum.mem_voters.1 ha
    exact member_of_mem_responses hr
  obtain ⟨-, -, -, hdistinct⟩ := Network.check_ok_iff.1 hcheck
  have hkey := key_of_mem_responses hm
  simp only [RequestKey.ofMessage, RequestKey.of, RequestKey.mk.injEq] at hkey
  refine ⟨⟨nodes, hsub, hdistinct.sublist (hsub.map _), henough.trans (Quorum.length_voters _ _ ▸ hle),
    fun n hn => ?_, ?_⟩, hkey.2, Text.sameIgnoringCase_iff.2 hkey.1⟩
  · obtain ⟨r, hr, hballot, hnode⟩ := Quorum.mem_voters.1 (hvoted (Network.mem_addresses.2 ⟨n, hn, rfl⟩))
    refine ⟨r.2, ?_, hballot⟩
    rw [← get?_responses g now call, SortedMap.get?_eq_some_iff hascending, ← hnode]
    exact hr
  · obtain ⟨n, hn, hnode⟩ := Network.mem_addresses.1 (hall (Quorum.mem_voters.2 ⟨(node, m), hm, rfl, rfl⟩))
    refine ⟨n, hn, ?_⟩
    rw [← get?_responses g now call, SortedMap.get?_eq_some_iff hascending, hnode]
    exact hm

theorem code_of_settles {e : Entry} {o : Op} {reply : Reply} (h : Settles g e o reply) :
    reply.code = .noError ∨ reply.code = .nodeResponseEncodingError ∨ reply.code = .requestTimeoutError ∨
      reply.code = .fatalError := by
  cases h with
  | decided node m reply hanswer hreply =>
    rcases Table.replyTo_eq_some_iff.1 hreply with ⟨m', -, rfl⟩ | ⟨reason, -, rfl⟩
    · exact .inl rfl
    · exact .inr (.inl rfl)
  | overdue now hlate => exact .inr (.inr (.inl rfl))
  | drained => exact .inr (.inr (.inr rfl))

/-- a request that is settled with a success is settled with the response that has been agreed on -/
theorem agreed_of_settles {now call : Nat} {request : Message} {since : List Op} {o : Op} {reply : Reply}
    (h : Settles g (openRequest g now call request since) o reply) (hcode : reply.code = .noError) :
    ∃ m, reply = .success m ∧ (∃ node last, o = .respond node last) ∧
      g.quorum.decision (openRequest g now call request (since ++ [o])).responses = .agreed m := by
  cases h with
  | decided node last reply hanswer hreply =>
    rw [← openRequest_snoc] at hreply
    rcases Table.replyTo_eq_some_iff.1 hreply with ⟨m, hdecision, rfl⟩ | ⟨reason, -, rfl⟩
    · exact ⟨m, rfl, ⟨node, last, rfl⟩, hdecision⟩
    · exact absurd hcode (by simp [Reply.failure])
  | overdue now hlate => exact absurd hcode (by simp [Table.timeout, Reply.failure])
  | drained => exact absurd hcode (by simp [Reply.failure])

/-- what can be relied on after a run: every success that a callback has received is a believed response to the request
that the callback was registered with, at the moment of the response that settled it; and what an open request holds are
responses that came from members, under their addresses in small letters, and no more than there are members -/
structure Sound (S : Crypto.Scheme) (b : Built) (ops : List Op) : Prop where
  delivered : ∀ callback reply, .delivered callback reply ∈ (reached S b ops).trace → reply.code = .noError →
    ∃ pre now request mid node last post m,
      ops = pre ++ .submit now callback request :: (mid ++ .respond node last :: post) ∧
      StaysOpen S b pre now callback request mid ∧ reply = .success m ∧
      Believed b.setup request (mid ++ [.respond node last]) m
  recorded : ∀ e ∈ (reached S b ops).table.entries, e.responses.length ≤ b.setup.network.members.length ∧
    ∀ node m, (node, m) ∈ e.responses →
      ∃ address, .respond address m ∈ ops ∧ b.setup.network.isMember address = true ∧ Text.lower address = node

/-- **Only what a quorum says is delivered.** After any run of a gateway that has been built, whatever its users and
nodes send and whatever addresses the nodes' responses come from, all that callbacks have received as a success is
believed, and all that is recorded comes from members. -/
theorem quorum_soundness (S : Crypto.Scheme) {raw : Json} {network : Network} {hasSource : Bool} {b : Built}
    (hbuild : build raw network hasSource = .ok b) (ops : List Op) : Sound S b ops := by
  obtain ⟨rfl, hcheck⟩ := network_of_build hbuild
  refine ⟨fun callback reply hev hcode => ?_, fun e he => ?_⟩
  · obtain ⟨pre, now, request, mid, o, post, hops, hstays, hsettles⟩ := delivery_history S b ops hev
    obtain ⟨m, hreply, ⟨node, last, rfl⟩, hdecision⟩ := agreed_of_settles hsettles hcode
    exact ⟨pre, now, request, mid, node, last, post, m, hops, hstays, hreply, believed_of_agreed hcheck hdecision⟩
  · obtain ⟨pre, now, request, mid, rfl, hopen, -⟩ := history S b ops he
    rw [hopen]
    refine ⟨length_responses_le _ _ _ _ _, fun node m hm => ?_⟩
    obtain ⟨address, hmem, hmember, -, hnode⟩ := mem_heard.1 (SortedMap.mem_of_mem_ofPairs hm)
    exact ⟨address, List.mem_append_right _ (List.mem_cons_of_mem _ hmem), hmember, hnode⟩

/-- a network of three nodes, one of which may be faulty -/
def threeNodes : Network :=
  ⟨"don", "functions", .null, [⟨"first", "0xaa"⟩, ⟨"second", "0xbb"⟩, ⟨"third", "0xcc"⟩], 1⟩

/-- a gateway for that network -/
def threeNodeGateway : Built := ⟨⟨.standard, threeNodes⟩, none, none⟩

/-- an outsider and two members answer a request, one of them under its address in capitals -/
def answeredTrace : List Op :=
  [.submit 0 0 (aliceRequest "don"), .respond "0xdd" (aliceRequest "don"), .respond "0xaa" (aliceRequest "don"),
    .respond "0XBB" (aliceRequest "don")]

theorem quorum_soundness_answered :
    build .null threeNodes false = .ok threeNodeGateway ∧
      (reached aliceScheme threeNodeGateway answeredTrace).trace.countP (fun ev => ev.delivery?.isSome) = 1 ∧
      Sound aliceScheme threeNodeGateway answeredTrace := by
  have hbuild : build .null threeNodes false = .ok threeNodeGateway := rfl
  exact ⟨hbuild, by decide +kernel, quorum_soundness aliceScheme hbuild answeredTrace⟩

end QuorumGateway.Gateway
