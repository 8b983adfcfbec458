import QuorumGateway.Proofs.Config.Collecting
import QuorumGateway.Proofs.Text.Lower
/-!
What the check of a network is good for. It passes exactly when there are members, fewer of them may be faulty than
there are, and their addresses are neither blank nor, without the blanks around them and in small letters, the same
(`check_ok_iff`). Nodes are recognised and their responses kept by the address in small letters only; that is a coarser
form of the address than the one that is checked, so in a checked network it belongs to one member at most
(`nodup_addresses_of_check`), and distinct addresses in small letters are those of as many members (`exists_nodes`).
-/

namespace QuorumGateway

namespace Network

variable {d : Network}

/-! ## Addresses -/

theorem normalAddress_eq (address : String) : normalAddress address = Text.trim (Text.lower address) :=
  (Text.trim_lower address).symm

/-- the addresses of nodes, in small letters -/
def addresses (nodes : List Member) : List String := nodes.map fun n => Text.lower n.address

theorem mem_addresses {nodes : List Member} {a : String} :
    a ∈ addresses nodes ↔ ∃ n ∈ nodes, Text.lower n.address = a := List.mem_map

theorem isMember_iff {address : String} : d.isMember address = true ↔ Text.lower address ∈ addresses d.members := by
  simp [isMember, Text.sameIgnoringCase_iff, addresses]

/-! ## The check -/

theorem memberProblems_eq_nil_iff {members : List Member} (seen : List String) :
    memberProblems seen members = [] ↔
      (∀ n ∈ members, normalAddress n.address ≠ "" ∧ normalAddress n.address ∉ seen) ∧
        (members.map fun n => normalAddress n.address).Nodup := by
  induction members generalizing seen with
  | nil => simp [memberProblems]
  | cons n members ih =>
    simp only [memberProblems]
    split_ifs with hblank hseen
    · simp [hblank]
    · simp only [List.contains_eq_mem, decide_eq_true_eq] at hseen
      simp [hseen]
    · simp only [List.contains_eq_mem, decide_eq_true_eq] at hseen
      rw [ih, List.forall_mem_cons]
      simp only [List.map_cons, List.nodup_cons, List.mem_cons, List.mem_map, not_or]
      constructor
      · rintro ⟨hrest, hnodup⟩
        refine ⟨⟨⟨hblank, hseen⟩, fun n' hn' => ⟨(hrest n' hn').1, (hrest n' hn').2.2⟩⟩, ?_, hnodup⟩
        rintro ⟨n', hn', heq⟩
        exact (hrest n' hn').2.1 heq
      · rintro ⟨⟨-, hrest⟩, hnew, hnodup⟩
        exact ⟨fun n' hn' => ⟨(hrest n' hn').1, fun heq => hnew ⟨n', hn', heq⟩, (hrest n' hn').2⟩, hnodup⟩

/-- **What the check of a network says** -/
theorem check_ok_iff :
    d.check = .ok () ↔
      d.members ≠ [] ∧ d.f < d.members.length ∧ (∀ n ∈ d.members, normalAddress n.address ≠ "") ∧
        (d.members.map fun n => normalAddress n.address).Nodup := by
  rw [check_eq, Problem.report_eq_ok_iff, problems, List.append_eq_nil_iff, memberProblems_eq_nil_iff, sizeProblems]
  split_ifs with hempty hfaulty
  · simp [List.isEmpty_iff.1 hempty]
  · refine ⟨fun h => h.1.elim, ?_⟩
    rintro ⟨-, hlt, -⟩
    omega
  · have hne : d.members ≠ [] := fun h => hempty (List.isEmpty_iff.2 h)
    have hlt : d.f < d.members.length := by omega
    simp [hne, hlt]

theorem nodup_addresses_of_check (hcheck : d.check = .ok ()) : (addresses d.members).Nodup := by
  obtain ⟨-, -, -, hnodup⟩ := check_ok_iff.1 hcheck
  simp only [normalAddress_eq] at hnodup
  rw [← Function.comp_def Text.trim fun n : Member => Text.lower n.address, ← List.map_map] at hnodup
  exact hnodup.of_map _

/-! ## Counting nodes -/

variable {nodes : List Member} {as : List String}

theorem length_le_of_subset (hnodup : as.Nodup) (hsub : as ⊆ addresses nodes) : as.length ≤ nodes.length :=
  (List.subperm_of_subset hnodup hsub).length_le.trans_eq (List.length_map _)

/-- distinct addresses of nodes are those of as many nodes -/
theorem exists_nodes (hnodup : as.Nodup) (hsub : as ⊆ addresses nodes) :
    ∃ some : List Member, some.Sublist nodes ∧ as.length ≤ some.length ∧ addresses some ⊆ as ∧ as ⊆ addresses some := by
  have hall : as ⊆ addresses (nodes.filter fun n => Text.lower n.address ∈ as) := by
    intro a ha
    obtain ⟨n, hn, rfl⟩ := mem_addresses.1 (hsub ha)
    exact mem_addresses.2 ⟨n, List.mem_filter.2 ⟨hn, by simpa using ha⟩, rfl⟩
  refine ⟨nodes.filter fun n => Text.lower n.address ∈ as, List.filter_sublist, length_le_of_subset hnodup hall,
    fun a ha => ?_, hall⟩
  obtain ⟨n, hn, rfl⟩ := mem_addresses.1 ha
  simpa using (List.mem_filter.1 hn).2

end Network

end QuorumGateway
