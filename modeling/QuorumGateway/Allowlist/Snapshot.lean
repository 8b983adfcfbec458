import QuorumGateway.Address
/-!
The list of senders that may submit requests, as it was when it was last fetched. A fetch replaces the list as a whole;
before the first one nobody is on it.
-/

namespace QuorumGateway.Allowlist

/-- a list of senders, each once -/
structure Snapshot where
  senders : List Address
  nodup : senders.Nodup
deriving DecidableEq, Repr

def distinct : List Address → List Address
  | [] => []
  | a :: rest => if a ∈ distinct rest then distinct rest else a :: distinct rest

theorem nodup_distinct (l : List Address) : (distinct l).Nodup := by
  induction l with
  | nil => exact List.nodup_nil
  | cons a rest ih =>
    simp only [distinct]
    split
    · exact ih
    · exact List.nodup_cons.2 ⟨‹_›, ih⟩

theorem mem_distinct {a : Address} {l : List Address} : a ∈ distinct l ↔ a ∈ l := by
  induction l with
  | nil => simp [distinct]
  | cons b rest ih =>
    simp only [distinct]
    split
    · rename_i h
      rw [List.mem_cons, ih]
      exact ⟨Or.inr, fun h' => h'.elim (fun e => ih.1 (e ▸ h)) id⟩
    · rw [List.mem_cons, List.mem_cons, ih]

namespace Snapshot

def empty : Snapshot := ⟨[], List.nodup_nil⟩

def ofFetched (fetched : List Address) : Snapshot := ⟨distinct fetched, nodup_distinct fetched⟩

def allows (s : Snapshot) (a : Address) : Bool := decide (a ∈ s.senders)

def size (s : Snapshot) : Nat := s.senders.length

theorem allows_ofFetched {a : Address} {fetched : List Address} :
    (ofFetched fetched).allows a = true ↔ a ∈ fetched := by
  simp [allows, ofFetched, mem_distinct]

end Snapshot

end QuorumGateway.Allowlist
