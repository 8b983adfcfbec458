import QuorumGateway.Proofs.Address
import QuorumGateway.Proofs.Gateway.History
import QuorumGateway.Proofs.Pending.Counts
/-!
Who holds the open requests. A caller is an address, and the signature of a message does not cover the text by which the
message names its sender. A request goes by that text, in small letters: without blanks and with its mark it is the
written form of the address, but an address has other spellings too, and each of them makes a key of its own.

One identity for each sender (`OneIdentity`) would be: no two open requests with one message id whose senders are one
address, and no more open requests of an address than the cap allows.

- `one_identity_iff`: it holds throughout a run exactly when no call of the run registers a request under another
  spelling of the sender of an open one (`Respelled`).
- `oneIdentity_of_written`: so it does when all senders are spelled as addresses are written, in any letter case.
- `respelling_breaks_identity`: the same signed message is registered twice, and a sender with a cap of one request has
  two.
-/

namespace QuorumGateway

open Pending (Limits Table Entry)

/-- the address that the sender of a request is read as -/
def RequestKey.address? (k : RequestKey) : Option Address := (Address.parse k.sender).toOption

/-- a message is read as coming from the address that its request is kept under -/
theorem RequestKey.address?_ofMessage (m : Message) :
    (RequestKey.ofMessage m).address? = (Address.parse m.body.sender).toOption :=
  congrArg Except.toOption (Address.parse_lower m.body.sender)

namespace Pending

/-- the number of keys whose senders are one address -/
def heldBy (a : Address) (keys : List RequestKey) : Nat := keys.countP fun k => k.address? = some a

/-- one identity for each address: no two requests of it with one message id, and no more than the cap -/
structure OneIdentity (limits : Limits) (keys : List RequestKey) : Prop where
  distinct : keys.Pairwise fun k k' => ∀ a, k.address? = some a → k'.address? = some a → k.messageId ≠ k'.messageId
  capped : 0 < limits.perSender → ∀ a, heldBy a keys ≤ limits.perSender

/-- a key whose sender is another spelling of an address that has an open request with the same message id, or as many
open requests as the cap allows -/
def Respelled (limits : Limits) (keys : List RequestKey) (key : RequestKey) : Prop :=
  ∃ a, key.address? = some a ∧ ∃ k ∈ keys, k.address? = some a ∧ k.sender ≠ key.sender ∧
    (k.messageId = key.messageId ∨ (0 < limits.perSender ∧ limits.perSender ≤ heldBy a keys))

variable {limits : Limits} {keys keys' : List RequestKey} {key : RequestKey} {t t' : Table}

theorem heldBy_concat (a : Address) (keys : List RequestKey) (key : RequestKey) :
    heldBy a (keys ++ [key]) = heldBy a keys + if key.address? = some a then 1 else 0 := by
  rw [heldBy, List.countP_append, List.countP_singleton]
  simp [heldBy]

theorem oneIdentity_nil : OneIdentity limits [] := ⟨List.Pairwise.nil, fun _ _ => Nat.zero_le _⟩

theorem OneIdentity.sublist (h : OneIdentity limits keys) (hsub : keys'.Sublist keys) : OneIdentity limits keys' :=
  ⟨h.distinct.sublist hsub, fun hpos a => (hsub.countP_le).trans (h.capped hpos a)⟩

/-- a request that is registered under no other spelling of the sender of an open one -/
theorem OneIdentity.register (h : OneIdentity limits t.keys) (ha : t.Accounted) {callback deadline : Nat}
    (hregister : t.register limits key callback deadline = .ok t') (hspelling : ¬ Respelled limits t.keys key) :
    OneIdentity limits t'.keys := by
  obtain ⟨-, hfree, -, -⟩ := Table.register_ok hregister
  rw [Table.keys_register hregister]
  constructor
  · refine List.pairwise_append.2 ⟨h.distinct, List.pairwise_singleton _ _, ?_⟩
    intro k hk k' hk' a hak hakey hid
    rw [List.mem_singleton.1 hk'] at hakey hid
    obtain ⟨e, he, rfl⟩ := Table.mem_keys.1 hk
    by_cases hsender : e.key.sender = key.sender
    · refine hfree e he ?_
      cases hkey : e.key
      cases key
      simp_all
    · exact hspelling ⟨a, hakey, e.key, hk, hak, hsender, .inl hid⟩
  · intro hpos a
    rw [heldBy_concat]
    split_ifs with hakey
    · by_contra hfull
      have hcap : limits.perSender ≤ heldBy a t.keys := by omega
      -- all requests of the address go by the same text, so the cap on that text has been kept to
      have hsame : heldBy a t.keys ≤ t.keys.countP fun k => k.sender = key.sender := by
        refine List.countP_mono_left fun k hk hak => ?_
        rw [decide_eq_true_eq] at hak ⊢
        by_contra hsender
        exact hspelling ⟨a, hakey, k, hk, hak, hsender, .inr ⟨hpos, hcap⟩⟩
      have := (ha.below_caps hregister).2 hpos
      omega
    · exact h.capped hpos a

/-- a request registered under another spelling of the sender of an open one -/
theorem not_oneIdentity_of_respelled (hspelling : Respelled limits keys key) :
    ¬ OneIdentity limits (keys ++ [key]) := by
  intro h
  obtain ⟨a, hakey, k, hk, hak, -, hid | ⟨hpos, hcap⟩⟩ := hspelling
  · exact (List.pairwise_append.1 h.distinct).2.2 k hk key (List.mem_singleton_self key) a hak hakey hid
  · have hle := h.capped hpos a
    rw [heldBy_concat, if_pos hakey] at hle
    omega

end Pending

namespace Gateway

open Pending (OneIdentity Respelled)

/-! ## One operation -/

section Step

variable {S : Crypto.Scheme} {g : Setup} {s : State} {o : Op} {table : Table} {calls : List Call} {es : List Event}

theorem Effect.accounted (heff : Effect S g s o table calls es) (hd : s.table.Distinct) (ha : s.table.Accounted) :
    table.Accounted := by
  cases heff with
  | admitted now call m hscreen hcharge hregister => exact ha.register hregister
  | evicted => exact ha.erase hd _
  | answered => exact ha.record hd _ _ _ _
  | swept => exact ha.expire hd _ _
  | drained => exact Table.accounted_failAll _ _ _
  | _ => exact ha

/-- an operation adds no keys, unless it is a call whose request is registered -/
theorem Effect.keys (heff : Effect S g s o table calls es) :
    table.keys.Sublist s.table.keys ∨ ∃ now call m, o = .submit now call m ∧
      s.table.register g.limits (RequestKey.ofMessage m) call (now + g.timeout) = .ok table := by
  cases heff with
  | admitted now call m hscreen hcharge hregister => exact .inr ⟨now, call, m, rfl, hregister⟩
  | evicted => exact .inl (Table.keys_erase _ _)
  | answered => exact .inl (Table.keys_record _ _ _ _ _)
  | swept => exact .inl (Table.keys_expire _ _ _)
  | drained => exact .inl (List.nil_sublist _)
  | _ => exact .inl (List.Sublist.refl _)

end Step

/-! ## Runs -/

variable (S : Crypto.Scheme) (b : Built)

theorem accounted_reached (ops : List Op) : (reached S b ops).table.Accounted := by
  induction ops using List.reverseRecOn with
  | nil => exact Table.accounted_empty
  | append_singleton ops o ih =>
    obtain ⟨es, -, heff⟩ := step_effect S b.setup (reached S b ops) o
    rw [reached_snoc]
    exact heff.accounted (distinct_reached S b ops) ih

/-- a call that registers a request under another spelling of the sender of an open one -/
def Respelling (g : Setup) (s : State) : Op → Prop
  | .submit now call m =>
    (submit S g s now call m).table.keys = s.table.keys ++ [RequestKey.ofMessage m] ∧
      Respelled g.limits s.table.keys (RequestKey.ofMessage m)
  | _ => False

variable {S} in
theorem oneIdentity_step {ops : List Op} {o : Op} (h : OneIdentity b.setup.limits (reached S b ops).table.keys)
    (hspelling : ¬ Respelling S b.setup (reached S b ops) o) :
    OneIdentity b.setup.limits (reached S b (ops ++ [o])).table.keys := by
  obtain ⟨es, -, heff⟩ := step_effect S b.setup (reached S b ops) o
  rw [reached_snoc]
  rcases heff.keys with hsub | ⟨now, call, m, rfl, hregister⟩
  · exact h.sublist hsub
  · exact h.register (accounted_reached S b ops) hregister fun hrespelled =>
      hspelling ⟨Table.keys_register hregister, hrespelled⟩

variable {S} in
theorem oneIdentity_reached {ops : List Op}
    (hspelling : ∀ pre o, pre ++ [o] <+: ops → ¬ Respelling S b.setup (reached S b pre) o) :
    OneIdentity b.setup.limits (reached S b ops).table.keys := by
  induction ops using List.reverseRecOn with
  | nil => exact Pending.oneIdentity_nil
  | append_singleton ops o ih =>
    exact oneIdentity_step b (ih fun pre o' hpre => hspelling pre o' (hpre.trans (List.prefix_append _ _)))
      (hspelling ops o (List.prefix_refl _))

/-- **When senders have one identity.** Each address has one identity in all states of a run exactly when no call of the
run registers a request under another spelling of the sender of an open one. -/
theorem one_identity_iff (ops : List Op) :
    (∀ pre, pre <+: ops → OneIdentity b.setup.limits (reached S b pre).table.keys) ↔
      ∀ pre o, pre ++ [o] <+: ops → ¬ Respelling S b.setup (reached S b pre) o := by
  constructor
  · intro hidentity pre o hpre hspelling
    have h := hidentity _ hpre
    rw [reached_snoc] at h
    cases o with
    | submit now call m =>
      obtain ⟨hkeys, hrespelled⟩ := hspelling
      rw [step, hkeys] at h
      exact Pending.not_oneIdentity_of_respelled hrespelled h
    | _ => exact hspelling
  · intro hspelling pre hpre
    exact oneIdentity_reached b fun pre' o hpre' => hspelling pre' o (hpre'.trans hpre)

variable {S} in
/-- **A sender that is spelled as addresses are written, in any letter case, has one identity.** -/
theorem oneIdentity_of_written {ops : List Op}
    (hwritten : ∀ now call m a, .submit now call m ∈ ops → Address.parse m.body.sender = .ok a →
      Text.lower m.body.sender = a.text) :
    OneIdentity b.setup.limits (reached S b ops).table.keys := by
  have hsender : ∀ now call m a, .submit now call m ∈ ops → (RequestKey.ofMessage m).address? = some a →
      (RequestKey.ofMessage m).sender = a.text := by
    intro now call m a hmem ha
    rw [RequestKey.address?_ofMessage] at ha
    cases hparse : Address.parse m.body.sender with
    | error fault => simp [hparse, Except.toOption] at ha
    | ok a' =>
      rw [hparse] at ha
      exact hwritten now call m a hmem (hparse.trans (congrArg Except.ok (Option.some.inj ha)))
  refine oneIdentity_reached b fun pre o hpre hspelling => ?_
  cases o with
  | submit now call m =>
    obtain ⟨-, a, hakey, k, hk, hak, hne, -⟩ := hspelling
    obtain ⟨e, he, rfl⟩ := Table.mem_keys.1 hk
    obtain ⟨before, now', m', mid, hsplit, hopen, -⟩ := history S b pre he
    have hkey : e.key = RequestKey.ofMessage m' := congrArg Entry.key hopen
    have hmem : .submit now' e.callback m' ∈ ops := hpre.subset (by simp [hsplit])
    have hmem' : .submit now call m ∈ ops := hpre.subset (by simp)
    rw [hkey] at hak hne
    exact hne ((hsender _ _ _ _ hmem hak).trans (hsender _ _ _ _ hmem' hakey).symm)
  | _ => exact hspelling

/-! ## How it is broken -/

/-- a gateway for a network of one node, at which a sender may have one open request -/
def oneEach : Built := ⟨⟨⟨none, none, 1, 0, 1000⟩, ⟨"don", "functions", .null, [⟨"node", "0x01"⟩], 0⟩⟩, none, none⟩

/-- a request of the sender `alice`, with the same signature under each spelling of its address -/
def aliceSpelled (spelling : String) : Message :=
  { aliceRequest "don" with body.sender := spelling }

/-- a request is submitted under the written form of its sender's address, and again without the mark of an address -/
def twoSpellings : List Op :=
  [.submit 0 0 (aliceSpelled alice.text), .submit 0 1 (aliceSpelled (Text.Hex.encode alice.bytes))]

/-- **Respelling breaks the identity of a sender.** One signed request is open twice under the same message id, and its
sender, who may have one open request, has two. -/
theorem respelling_breaks_identity :
    oneEach.setup.limits.perSender = 1 ∧
      (reached aliceScheme oneEach twoSpellings).table.keys.map (fun k => (k.address?, k.messageId)) =
        [(some alice, "m"), (some alice, "m")] ∧
      ¬ OneIdentity oneEach.setup.limits (reached aliceScheme oneEach twoSpellings).table.keys := by
  have hkeys : (reached aliceScheme oneEach twoSpellings).table.keys.map (fun k => (k.address?, k.messageId)) =
      [(some alice, "m"), (some alice, "m")] := by
    decide +kernel
  generalize (reached aliceScheme oneEach twoSpellings).table.keys = keys at hkeys ⊢
  refine ⟨rfl, hkeys, fun h => ?_⟩
  have hheld : Pending.heldBy alice keys = [(some alice, "m"), (some alice, "m")].countP fun p => p.1 = some alice := by
    rw [← hkeys, List.countP_map]
    rfl
  have hle := h.capped Nat.one_pos alice
  simp [hheld, oneEach, Setup.limits] at hle

end Gateway

end QuorumGateway
