import QuorumGateway.Proofs.Config.Network
import QuorumGateway.Proofs.Pending.Table
/-!
Members and their addresses, as three places see them. The check of a network compares addresses without the blanks
around them and in small letters; a response comes from a member when it comes from the member's address in any letter
case; and it is kept with its request under the address it comes from, in small letters.

- `memberProblems_eq`: each member is found fault with by the addresses of those before it.
- `membership_exact`: the check passes exactly when counting nodes makes sense, and otherwise reports one problem for
  each fault; in a network that passes, an address belongs to one member at most, and the responses from two addresses
  are kept under one key exactly when these belong to one member.
-/

namespace QuorumGateway

namespace Network

variable {d : Network} {seen seen' : List String} {members before after : List Member} {n : Member}

/-! ## Faults of members -/

/-- whether the address of a member is blank -/
def isBlank (n : Member) : Bool := Text.trim n.address = ""

/-- the addresses of members as they are compared by the check -/
def normalAddresses (members : List Member) : List String := members.map fun n => normalAddress n.address

/-- the number of members whose address is not blank and is that of a member before -/
def repeats (members : List Member) : Nat :=
  members.zipIdx.countP fun p =>
    !isBlank p.1 && (normalAddresses (members.take p.2)).contains (normalAddress p.1.address)

theorem lower_eq_empty_iff {s : String} : Text.lower s = "" ↔ s = "" := by
  rw [← String.toList_inj, ← String.toList_inj]
  simp [Text.lower]

theorem isBlank_iff : isBlank n = true ↔ normalAddress n.address = "" := by
  rw [isBlank, decide_eq_true_eq, normalAddress, lower_eq_empty_iff]

theorem memberProblems_cons :
    memberProblems seen (n :: members) =
      memberProblems seen [n] ++
        memberProblems (if isBlank n ∨ normalAddress n.address ∈ seen then seen else normalAddress n.address :: seen)
          members := by
  simp only [memberProblems, List.contains_eq_mem, decide_eq_true_eq, isBlank_iff]
  by_cases hblank : normalAddress n.address = ""
  · rw [if_pos hblank, if_pos hblank, if_pos (.inl hblank), List.cons_append, List.nil_append]
  · by_cases hseen : normalAddress n.address ∈ seen
    · rw [if_neg hblank, if_neg hblank, if_pos hseen, if_pos hseen, if_pos (.inr hseen), List.cons_append,
        List.nil_append]
    · rw [if_neg hblank, if_neg hblank, if_neg hseen, if_neg hseen, if_neg (not_or.2 ⟨hblank, hseen⟩), List.nil_append]

/-- blank addresses are not looked for among those of the members before -/
theorem memberProblems_congr (h : ∀ a, a ≠ "" → (a ∈ seen ↔ a ∈ seen')) :
    memberProblems seen members = memberProblems seen' members := by
  induction members generalizing seen seen' with
  | nil => rw [memberProblems, memberProblems]
  | cons n members ih =>
    simp only [memberProblems, List.contains_eq_mem, decide_eq_true_eq]
    by_cases hblank : normalAddress n.address = ""
    · rw [if_pos hblank, if_pos hblank, ih h]
    · have hnext : ∀ a, a ≠ "" → (a ∈ normalAddress n.address :: seen ↔ a ∈ normalAddress n.address :: seen') :=
        fun a ha => by rw [List.mem_cons, List.mem_cons, h a ha]
      rw [if_neg hblank, if_neg hblank, ih h, ih hnext]
      exact if_congr (h _ hblank) rfl rfl

theorem memberProblems_append :
    memberProblems seen (before ++ after) =
      memberProblems seen before ++ memberProblems (normalAddresses before ++ seen) after := by
  induction before generalizing seen with
  | nil => rw [memberProblems, normalAddresses, List.map_nil, List.nil_append, List.nil_append, List.nil_append]
  | cons n before ih =>
    rw [List.cons_append, memberProblems_cons, ih, ← List.append_assoc, ← memberProblems_cons]
    -- whether the address of the member has been added or not, the same addresses that are not blank are looked for
    have hsame : ∀ a, a ≠ "" →
        (a ∈ normalAddresses before ++
            (if isBlank n ∨ normalAddress n.address ∈ seen then seen else normalAddress n.address :: seen) ↔
          a ∈ normalAddresses (n :: before) ++ seen) := by
      intro a ha
      have hcons : normalAddresses (n :: before) = normalAddress n.address :: normalAddresses before := List.map_cons
      rw [hcons, List.cons_append, List.mem_cons, List.mem_append, List.mem_append]
      split_ifs with hseen
      · have hskip : a = normalAddress n.address → a ∈ seen := by
          rintro rfl
          exact hseen.resolve_left (mt isBlank_iff.1 ha)
        exact ⟨.inr, fun h => h.elim (fun heq => .inr (hskip heq)) id⟩
      · rw [List.mem_cons]
        exact or_left_comm
    rw [memberProblems_congr hsame]

/-- **Each member is judged by those before it** -/
theorem memberProblems_eq (members : List Member) :
    memberProblems [] members =
      members.zipIdx.flatMap fun p => memberProblems (normalAddresses (members.take p.2)) [p.1] := by
  induction members using List.reverseRecOn with
  | nil => rw [memberProblems, List.zipIdx_nil, List.flatMap_nil]
  | append_singleton members n ih =>
    have hbefore : members.zipIdx.flatMap
          (fun p => memberProblems (normalAddresses ((members ++ [n]).take p.2)) [p.1]) =
        members.zipIdx.flatMap fun p => memberProblems (normalAddresses (members.take p.2)) [p.1] := by
      refine List.flatMap_congr fun p hp => ?_
      have hlt : p.2 < members.length := by simpa using List.snd_lt_of_mem_zipIdx hp
      rw [List.take_append_of_le_length hlt.le]
    rw [memberProblems_append, ih, List.zipIdx_append, List.flatMap_append, hbefore, List.zipIdx_singleton,
      List.flatMap_singleton, List.append_nil, Nat.zero_add, List.take_left]

/-- a member has one problem at most -/
theorem length_memberProblems_singleton :
    (memberProblems seen [n]).length =
      if isBlank n then 1 else if !isBlank n && seen.contains (normalAddress n.address) then 1 else 0 := by
  by_cases hblank : isBlank n
  · rw [memberProblems, if_pos (isBlank_iff.1 hblank), if_pos hblank]
    rfl
  · rw [memberProblems, if_neg (mt isBlank_iff.2 hblank), if_neg hblank, Bool.eq_false_of_not_eq_true hblank]
    split_ifs <;> simp_all [memberProblems]

theorem length_memberProblems (members : List Member) :
    (memberProblems [] members).length = members.countP isBlank + repeats members := by
  have hsum : ∀ ps : List (Member × Nat),
      (ps.flatMap fun p => memberProblems (normalAddresses (members.take p.2)) [p.1]).length =
        (ps.map Prod.fst).countP isBlank + ps.countP fun p => !isBlank p.1 &&
          (normalAddresses (members.take p.2)).contains (normalAddress p.1.address) := by
    intro ps
    induction ps with
    | nil => rfl
    | cons p ps ih =>
      rw [List.flatMap_cons, List.length_append, ih, length_memberProblems_singleton, List.map_cons, List.countP_cons,
        List.countP_cons]
      by_cases hblank : isBlank p.1
      · simp only [hblank, if_true, Bool.not_true, Bool.false_and, Bool.false_eq_true, if_false]
        omega
      · simp only [hblank, if_false, Bool.false_eq_true]
        omega
  rw [memberProblems_eq, hsum, List.zipIdx_map_fst, repeats]

example : (memberProblems [] [⟨"first", "0xAA"⟩, ⟨"second", " "⟩, ⟨"third", " 0xaa"⟩, ⟨"fourth", ""⟩]).length = 3 := by
  decide +kernel

theorem length_sizeProblems :
    d.sizeProblems.length = if d.members = [] ∨ d.members.length ≤ d.f then 1 else 0 := by
  unfold sizeProblems
  by_cases hempty : d.members = []
  · simp [hempty]
  · by_cases hfaulty : d.members.length ≤ d.f <;> simp [hempty, hfaulty]

/-! ## Keys of responses -/

/-- the key under which a response from an address is kept with its request -/
def responseKey (address : String) : String := Text.lower address

/-- where the response from an address is kept: under its key, and it touches no other -/
theorem get?_answered (e : Pending.Entry) (address key : String) (m : Message) :
    (e.answered address m).responses.get? key = if responseKey address = key then some m else e.responses.get? key := by
  unfold Pending.Entry.answered responseKey
  split_ifs with heq
  · rw [heq, SortedMap.get?_put_self]
  · rw [SortedMap.get?_put_of_ne _ _ heq]

/-- the address of a member, in any letter case -/
def Calls (n : Member) (address : String) : Prop := Text.sameIgnoringCase n.address address = true

theorem calls_iff {address : String} : Calls n address ↔ Text.lower n.address = responseKey address :=
  Text.sameIgnoringCase_iff

/-- in a checked network, members with the same address in small letters have the same place -/
theorem place_unique (hcheck : d.check = .ok ()) {i j : Nat} {n' : Member} (hn : d.members[i]? = some n)
    (hn' : d.members[j]? = some n') : Text.lower n.address = Text.lower n'.address ↔ i = j := by
  have hi : (addresses d.members)[i]? = some (Text.lower n.address) := by simp [addresses, hn]
  have hj : (addresses d.members)[j]? = some (Text.lower n'.address) := by simp [addresses, hn']
  constructor
  · intro heq
    have hlt : i < (addresses d.members).length := (List.getElem?_eq_some_iff.1 hi).1
    exact (List.getElem?_inj hlt (nodup_addresses_of_check hcheck)).1 (by rw [hi, hj, heq])
  · rintro rfl
    rw [Option.some.inj (hn.symm.trans hn')]

/-! ## Main result -/

/-- the problems of a network that fails its check: one for having no members or too many that may be faulty, one for
each blank address, and one for each other address that is that of a member before -/
structure Judged (d : Network) : Prop where
  passes : d.check = .ok () ↔
    d.members ≠ [] ∧ d.f < d.members.length ∧ (∀ n ∈ d.members, Text.trim n.address ≠ "") ∧
      (d.members.map fun n => Text.lower (Text.trim n.address)).Pairwise (· ≠ ·)
  count : ∀ p, d.check = .error p →
    p.count = (if d.members = [] ∨ d.members.length ≤ d.f then 1 else 0) + d.members.countP isBlank + repeats d.members

/-- how the nodes of a network are told apart -/
structure ToldApart (d : Network) : Prop where
  /-- an address belongs to one member at most -/
  single : ∀ address, (d.members.filter fun n => Text.sameIgnoringCase n.address address).length ≤ 1
  /-- the responses from two addresses are kept under one key exactly when the addresses belong to one member -/
  keys : ∀ (i j : Nat) (n n' : Member) (address address' : String), d.members[i]? = some n → d.members[j]? = some n' →
    Calls n address → Calls n' address' → (responseKey address = responseKey address' ↔ i = j)
  /-- a response that leaves its request open is kept under the key of the address it comes from, and no other response
  to the request is touched -/
  kept : ∀ (t : Pending.Table) (q : Quorum) (key : RequestKey) (e : Pending.Entry) (address : String) (m : Message),
    t.find? key = some e → q.decision (e.answered address m).responses = .pending →
    ∃ e', (t.record q key address m).1.find? key = some e' ∧ ∀ k, e'.responses.get? k =
      if responseKey address = k then some m else e.responses.get? k

theorem judged (d : Network) : Judged d := by
  refine ⟨?_, fun p hp => ?_⟩
  · have htrim : ∀ n : Member, normalAddress n.address ≠ "" ↔ Text.trim n.address ≠ "" := fun n => by
      rw [normalAddress, ne_eq, lower_eq_empty_iff]
    simp only [check_ok_iff, htrim]
    rfl
  · rw [check_eq] at hp
    rw [Problem.count_of_report (fun _ => single_of_mem) hp, problems, List.length_append, length_sizeProblems,
      length_memberProblems, Nat.add_assoc]

theorem toldApart (hcheck : d.check = .ok ()) : ToldApart d := by
  refine ⟨fun address => ?_, fun i j n n' address address' hn hn' hcalls hcalls' => ?_,
    fun t q key e address m hopen hpending => ?_⟩
  · have hcount : (d.members.filter fun n => Text.sameIgnoringCase n.address address).length =
        (addresses d.members).count (Text.lower address) := by
      rw [← List.countP_eq_length_filter, addresses, List.count, List.countP_map]
      rfl
    rw [hcount]
    exact List.nodup_iff_count_le_one.1 (nodup_addresses_of_check hcheck) _
  · rw [← calls_iff.1 hcalls, ← calls_iff.1 hcalls']
    exact place_unique hcheck hn hn'
  · refine ⟨e.answered address m, ?_, fun k => get?_answered e address k m⟩
    rcases Pending.Table.record_cases t q key address m with ⟨hnone, -⟩ | ⟨e₀, hf, -, h⟩ | ⟨e₀, reply, hf, hreply, -⟩
    · exact absurd (hnone.symm.trans hopen) (by simp)
    · obtain rfl : e = e₀ := Option.some.inj (hopen.symm.trans hf)
      rw [h]
      have hkey : (e.answered address m).key = key := by
        rw [← Pending.Table.key_of_find? hopen]
        rfl
      exact Pending.Table.find?_replace_self hopen hkey
    · obtain rfl : e = e₀ := Option.some.inj (hopen.symm.trans hf)
      rw [hpending] at hreply
      cases hreply

/-- **The check of a network is what counting nodes needs.** It passes exactly when there are members, fewer of them may
be faulty than there are, no address is blank, and no two are the same as they are compared; otherwise it reports one
problem for each fault. In a network that passes, no address belongs to two members, and the responses of a node are
kept under one key, which is that of no other node. -/
theorem membership_exact (d : Network) : Judged d ∧ (d.check = .ok () → ToldApart d) :=
  ⟨judged d, toldApart⟩

/-- addresses in capitals and with blanks around them -/
def loudNetwork : Network :=
  ⟨"don", "functions", .null, [⟨"first", "0xAA"⟩, ⟨"second", " 0xbb "⟩, ⟨"third", "É"⟩, ⟨"fourth", "é"⟩], 3⟩

theorem membership_exact_loud : loudNetwork.check = .ok () ∧ Judged loudNetwork ∧ ToldApart loudNetwork := by
  have hcheck : loudNetwork.check = .ok () := check_ok_iff.2 (by decide +kernel)
  exact ⟨hcheck, (membership_exact loudNetwork).1, (membership_exact loudNetwork).2 hcheck⟩

end Network

end QuorumGateway
