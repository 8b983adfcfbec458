import Mathlib.Tactic
import QuorumGateway.Simulation.Pending
/-!
A run of the table told turn by turn: what each operation answers, and what the receivers of callbacks then hear
(`trace`). A sender knows its callbacks by the order in which it registered them (`rank`); it sees the answers to the
operations on its keys and what becomes of its callbacks (`view`).

- `find?_ownFates`: a sender finds of its callback what has happened to it.
- `report_eq`: a report tells each receiver that waits what has happened to its callback first, and leaves those waiting
  to whose callbacks nothing has happened.
-/

namespace QuorumGateway.Simulation.Isolation

open Pending

/-! ## Turns -/

/-- the operations on the table, and the end of a receiver -/
inductive Op where
  | register (key : RequestKey) (deadline : ℕ)
  | record (key : RequestKey) (node : String) (response : Message)
  | evict (key : RequestKey)
  | expire (instant : ℕ)
  | failAll (code : ErrorCode) (reason : String)
  | drop (callback : ℕ)

/-- what an operation answers -/
inductive Answer where
  | registered (result : Except GatewayError Unit)
  | recorded (outcome : Outcome)
  | evicted (found : Bool)
  | settled (number : ℕ)
  | dropped (waited : Bool)

/-- an operation, its answer, and what receivers hear -/
structure Turn where
  op : Op
  answer : Answer
  fates : List (ℕ × Fate)

def act (s : PendingClock) : Op → PendingClock × Answer
  | .register key deadline => ((s.register key deadline).1, .registered (s.register key deadline).2)
  | .record key node m => ((s.record key node m).1, .recorded (s.record key node m).2)
  | .evict key => ((s.evict key).1, .evicted (s.evict key).2)
  | .expire instant => ((s.expire instant).1, .settled (s.expire instant).2)
  | .failAll code reason => ((s.failAll code reason).1, .settled (s.failAll code reason).2)
  | .drop callback =>
    ({ s with receivers := (s.receivers.drop callback).1 }, .dropped (s.receivers.drop callback).2)

def turn (s : PendingClock) (o : Op) : PendingClock × Turn :=
  ((act s o).1.report.1, ⟨o, (act s o).2, (act s o).1.report.2⟩)

def trace (s : PendingClock) : List Op → List Turn
  | [] => []
  | o :: ops => (turn s o).2 :: trace (turn s o).1 ops

namespace Op

def isDrop : Op → Bool
  | .drop _ => true
  | _ => false

/-- the callback whose receiver an operation drops -/
def drops? : Op → Option ℕ
  | .drop callback => some callback
  | _ => none

def registers? : Op → Option RequestKey
  | .register key _ => some key
  | _ => none

/-- the key that an operation is on -/
def key? : Op → Option RequestKey
  | .register key _ | .record key _ _ | .evict key => some key
  | _ => none

/-- whether an operation is on a key of the sender -/
def isOn (sender : String) (o : Op) : Bool := o.key?.any fun k => k.sender = sender

/-- whether an operation concerns a sender: it is on one of its keys, or on all requests -/
def concerns (sender : String) : Op → Bool
  | .expire _ | .failAll _ _ => true
  | o => o.isOn sender

end Op

/-! ## What a sender sees -/

/-- whether a callback is one of the sender's; callbacks go by the order of all registrations -/
def isOwn (sender : String) (keys : List RequestKey) (c : ℕ) : Bool := keys[c]?.any fun k => k.sender = sender

/-- the number of a sender's callbacks before a callback -/
def rank (sender : String) (keys : List RequestKey) (c : ℕ) : ℕ := (keys.take c).countP fun k => k.sender = sender

/-- what becomes of a sender's callbacks, by their ranks -/
def ownFates (sender : String) (keys : List RequestKey) (fates : List (ℕ × Fate)) : List (ℕ × Fate) :=
  (fates.filter fun f => isOwn sender keys f.1).map fun f => (rank sender keys f.1, f.2)

/-- what a sender sees of a turn: the answer if the operation is on one of its keys, and what becomes of its
callbacks -/
structure Sight where
  answer : Option Answer
  fates : List (ℕ × Fate)

/-- a turn that does not concern a sender and brings none of its callbacks anything is not seen -/
def Turn.seen? (sender : String) (keys : List RequestKey) (t : Turn) : Option Sight :=
  let fates := ownFates sender keys t.fates
  if t.op.concerns sender || !fates.isEmpty then some ⟨if t.op.isOn sender then some t.answer else none, fates⟩
  else none

/-- what a sender sees of a run -/
def view (q : Quorum) (limits : Limits) (sender : String) (ops : List Op) : List Sight :=
  (trace (.start q limits) ops).filterMap (Turn.seen? sender (ops.filterMap Op.registers?))

/-- a turn without what some receivers hear -/
def Turn.without (gone : List ℕ) (t : Turn) : Turn := { t with fates := t.fates.filter fun f => f.1 ∉ gone }

/-- but for the receivers that are dropped along a run, the run goes as if none were: the other operations answer
alike, and the other receivers hear the same at the same turns -/
def Undisturbed (q : Quorum) (limits : Limits) (ops : List Op) : Prop :=
  ((trace (.start q limits) ops).filter fun t => !t.op.isDrop).map (Turn.without (ops.filterMap Op.drops?)) =
    (trace (.start q limits) (ops.filter fun o => !o.isDrop)).map (Turn.without (ops.filterMap Op.drops?)) ∧
  ∀ t ∈ trace (.start q limits) ops, t.op.isDrop = true → t.fates = []

/-! ## Ranks -/

section Ranks

variable {sender : String} {keys : List RequestKey} {key : RequestKey} {c c' : ℕ} {fates : List (ℕ × Fate)}

theorem isOwn_eq (h : keys[c]? = some key) : isOwn sender keys c = decide (key.sender = sender) := by
  simp [isOwn, h]

theorem rank_succ (h : keys[c]? = some key) :
    rank sender keys (c + 1) = rank sender keys c + if key.sender = sender then 1 else 0 := by
  simp [rank, List.take_add_one, h, List.countP_append, List.countP_singleton]

/-- a sender's callbacks have different ranks -/
theorem rank_lt_rank (hown : isOwn sender keys c = true) (h : c < c') : rank sender keys c < rank sender keys c' := by
  cases hkey : keys[c]? with
  | none => simp [isOwn, hkey] at hown
  | some key =>
    rw [isOwn_eq hkey, decide_eq_true_eq] at hown
    calc rank sender keys c < rank sender keys (c + 1) := by rw [rank_succ hkey, if_pos hown]; exact Nat.lt_succ_self _
      _ ≤ rank sender keys c' := (List.take_sublist_take_left h).countP_le

theorem rank_eq_rank (h : isOwn sender keys c = true) (h' : isOwn sender keys c' = true) :
    rank sender keys c = rank sender keys c' ↔ c = c' := by
  constructor
  · intro heq
    rcases Nat.lt_trichotomy c c' with hlt | rfl | hlt
    · exact absurd heq (rank_lt_rank h hlt).ne
    · rfl
    · exact absurd heq (rank_lt_rank h' hlt).ne'
  · rintro rfl
    rfl

theorem ownFates_append (fates fates' : List (ℕ × Fate)) :
    ownFates sender keys (fates ++ fates') = ownFates sender keys fates ++ ownFates sender keys fates' := by
  simp [ownFates]

theorem ownFates_cons (f : ℕ × Fate) (fates : List (ℕ × Fate)) :
    ownFates sender keys (f :: fates) =
      if isOwn sender keys f.1 = true then (rank sender keys f.1, f.2) :: ownFates sender keys fates
      else ownFates sender keys fates := by
  by_cases hf : isOwn sender keys f.1 = true <;> simp [ownFates, hf]

theorem find?_ownFates (h : isOwn sender keys c = true) :
    (ownFates sender keys fates).find? (fun f => f.1 == rank sender keys c) =
      (fates.find? fun f => f.1 == c).map fun f => (rank sender keys f.1, f.2) := by
  induction fates with
  | nil => rfl
  | cons f rest ih =>
    rw [ownFates_cons]
    by_cases hf : f.1 = c
    · simp [hf, h]
    · by_cases hown : isOwn sender keys f.1 = true
      · simp [hown, hf, rank_eq_rank hown h, ih]
      · simp [hown, hf, ih]

theorem any_ownFates (h : isOwn sender keys c = true) :
    (ownFates sender keys fates).any (fun f => f.1 == rank sender keys c) = fates.any fun f => f.1 == c := by
  rw [Bool.eq_iff_iff, List.any_eq_true, List.any_eq_true, ← List.find?_isSome, ← List.find?_isSome, find?_ownFates h,
    Option.isSome_map]

end Ranks

/-! ## Reports -/

/-- what a report tells, of what has happened, to the receivers that wait -/
def told (waiting : List ℕ) (fates : List (ℕ × Fate)) : List (ℕ × Fate) :=
  waiting.filterMap fun c => (fates.find? fun f => f.1 == c).map fun f => (c, f.2)

/-- a receiver that waits is told something if something has happened to its callback -/
theorem any_told {waiting : List ℕ} {c : ℕ} (hc : c ∈ waiting) (fates : List (ℕ × Fate)) :
    (told waiting fates).any (·.1 == c) = fates.any (·.1 == c) := by
  rw [Bool.eq_iff_iff, List.any_eq_true, List.any_eq_true, ← List.find?_isSome, ← List.find?_isSome]
  simp only [told, List.find?_isSome, List.mem_filterMap, Option.map_eq_some_iff]
  constructor
  · rintro ⟨_, ⟨d, hd, f, hf, rfl⟩, hdc⟩
    have hfd := List.find?_some hf
    exact ⟨f, List.mem_of_find?_eq_some hf, beq_iff_eq.2 ((beq_iff_eq.1 hfd).trans (beq_iff_eq.1 hdc))⟩
  · intro hsome
    obtain ⟨f, hf⟩ := Option.isSome_iff_exists.1 (List.find?_isSome.2 hsome)
    exact ⟨_, ⟨c, hc, f, hf, rfl⟩, beq_self_eq_true c⟩

theorem report_eq (s : PendingClock) :
    s.report =
      ({ s with
          receivers := { s.receivers with
            waiting := s.receivers.waiting.filter fun c => !s.fates.any (·.1 == c) }
          fates := [] },
        told s.receivers.waiting s.fates) := by
  have hleft : (s.receivers.waiting.filter fun c => !(told s.receivers.waiting s.fates).any (·.1 == c)) =
      s.receivers.waiting.filter fun c => !s.fates.any (·.1 == c) :=
    List.filter_congr fun c hc => by rw [any_told hc]
  rw [← hleft]
  rfl

/-- where nothing has happened, nothing is told -/
theorem told_nil (waiting : List ℕ) : told waiting [] = [] := by
  induction waiting with
  | nil => rfl
  | cons c rest ih => simp [told]

theorem report_of_quiet {s : PendingClock} (h : s.fates = []) : s.report = (s, []) := by
  obtain ⟨quorum, limits, now, table, sweeper, unattended, receivers, fates, metrics⟩ := s
  subst h
  simp [report_eq, told_nil]

end QuorumGateway.Simulation.Isolation
