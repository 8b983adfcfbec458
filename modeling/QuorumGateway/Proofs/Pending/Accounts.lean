import QuorumGateway.Proofs.Pending.Counts
import QuorumGateway.Proofs.Pending.Fates
/-!
The books of the table. Whatever operations have been run on it, the numbers that it keeps by sender are the numbers of
open requests, the caps are kept to, and a closed table is empty (`run_books`). So what stands against a registration
can be said without the table's own flag and numbers (`Obstacle.Stands`): by the operations before and the keys of the
open requests.

- `table_audited`: the numbers are right in every state, also between the removals of one expiry, so that none is
  ever taken below zero; a registration succeeds exactly when no obstacle stands against it, is refused with the error
  of the first one otherwise, and then changes nothing; and once all requests have been failed the table stays empty.
-/

namespace QuorumGateway.Pending

namespace Table

variable {t t' : Table}

/-- the number of open requests of a sender -/
def openOf (t : Table) (sender : String) : Nat := t.keys.countP fun k => k.sender = sender

theorem size_eq_length_keys (t : Table) : t.size = t.keys.length := (List.length_map _).symm

theorem contains_iff_mem_keys {key : RequestKey} : t.contains key = true ↔ key ∈ t.keys := by
  rw [← Bool.not_eq_false, contains_eq_false_iff, mem_keys]
  simp

theorem openOf_le_of_sublist (h : t'.keys.Sublist t.keys) (sender : String) : t'.openOf sender ≤ t.openOf sender :=
  h.countP_le

theorem openOf_register {limits : Limits} {key : RequestKey} {callback deadline : Nat}
    (h : t.register limits key callback deadline = .ok t') (sender : String) :
    t'.openOf sender = t.openOf sender + if key.sender = sender then 1 else 0 := by
  simp [openOf, keys_register h, List.countP_append, List.countP_singleton]

/-! ## Closing -/

theorem closed_erase (t : Table) (key : RequestKey) : (t.erase key).closed = t.closed := by
  unfold erase
  split_ifs <;> rfl

theorem closed_record (t : Table) (q : Quorum) (key : RequestKey) (node : String) (m : Message) :
    (t.record q key node m).1.closed = t.closed := by
  rcases record_cases t q key node m with ⟨-, h⟩ | ⟨e, -, -, h⟩ | ⟨e, reply, -, -, h⟩ <;> rw [h]
  · rfl
  · exact closed_erase t key

theorem closed_erase_all (l : List Entry) (t : Table) : (l.foldl (fun t e => t.erase e.key) t).closed = t.closed := by
  induction l generalizing t with
  | nil => rfl
  | cons e l ih => exact (ih _).trans (closed_erase t e.key)

theorem closed_expire (t : Table) (q : Quorum) (now : Nat) : (t.expire q now).1.closed = t.closed :=
  closed_erase_all _ t

/-! ## Numbers of an audited table -/

theorem Accounted.counts_of_empty (ha : t.Accounted) (hempty : t.entries = []) : t.counts = [] := by
  refine List.eq_nil_iff_forall_not_mem.2 fun p hp => ?_
  have hcount : countOf p.1 t.counts = 0 := by rw [ha.count, keys, hempty]; rfl
  have hvalue : ∀ {l : List (String × Nat)}, (l.map Prod.fst).Nodup → p ∈ l → countOf p.1 l = p.2 := by
    intro l hl hmem
    induction l with
    | nil => exact absurd hmem List.not_mem_nil
    | cons q rest ih =>
      obtain ⟨hnew, hrest⟩ := List.nodup_cons.1 hl
      rcases List.mem_cons.1 hmem with rfl | hmem
      · simp [countOf]
      · have hne : q.1 ≠ p.1 := fun heq => hnew (heq ▸ List.mem_map_of_mem hmem)
        rw [countOf, if_neg hne]
        exact ih hrest hmem
  have hpos := ha.pos p hp
  rw [hvalue ha.senders hp] at hcount
  omega

/-- the sender of an open request has a count, and it is not zero -/
theorem Accounted.pos_of_contains {key : RequestKey} (ha : t.Accounted) (h : t.contains key = true) :
    0 < countOf key.sender t.counts := by
  rw [ha.count, List.countP_pos_iff]
  exact ⟨key, contains_iff_mem_keys.1 h, by simp⟩

/-- the numbers stay right while requests are taken out of the table one after the other -/
theorem Accounted.erase_keys (ha : t.Accounted) (hd : t.Distinct) (gone : List RequestKey) :
    (gone.foldl Table.erase t).Accounted := by
  induction gone generalizing t with
  | nil => exact ha
  | cons key gone ih => exact ih (ha.erase hd key) (hd.erase key)

end Table

namespace Fates

/-! ## Operations keep the books -/

/-- whether a step fails all requests -/
def Op.isFailAll : Op → Bool
  | .failAll _ _ => true
  | _ => false

/-- what holds of a table in every state -/
structure Books (limits : Limits) (t : Table) : Prop where
  distinct : t.Distinct
  accounted : t.Accounted
  global : 0 < limits.global → t.size ≤ limits.global
  perSender : 0 < limits.perSender → ∀ sender, t.openOf sender ≤ limits.perSender
  closed : t.closed = true → t.entries = []

variable {q : Quorum} {limits : Limits} {t t' : Table}

theorem books_empty : Books limits .empty :=
  ⟨Table.distinct_empty, Table.accounted_empty, fun _ => Nat.zero_le _, fun _ _ => Nat.zero_le _, fun _ => rfl⟩

theorem Books.register {key : RequestKey} {callback deadline : Nat} (h : Books limits t)
    (hok : t.register limits key callback deadline = .ok t') : Books limits t' := by
  obtain ⟨hopen, -, hentries, hclosed⟩ := Table.register_ok hok
  obtain ⟨hglobal, hsender⟩ := h.accounted.below_caps hok
  refine ⟨h.distinct.register hok, h.accounted.register hok, fun hpos => ?_, fun hpos sender => ?_, fun hc => ?_⟩
  · have hroom := hglobal hpos
    rw [Table.size, hentries, List.length_append, List.length_singleton]
    rw [← Table.size_eq_length_keys, Table.size] at hroom
    omega
  · rw [Table.openOf_register hok]
    split_ifs with heq
    · subst heq
      exact hsender hpos
    · exact h.perSender hpos sender
  · rw [hclosed, hopen] at hc
    exact absurd hc Bool.false_ne_true

/-- an operation that only takes requests out of a table keeps its books if it keeps the numbers -/
theorem Books.shrink (h : Books limits t) (hd : t'.Distinct) (ha : t'.Accounted) (hkeys : t'.keys.Sublist t.keys)
    (hclosed : t'.closed = t.closed ∨ t'.entries = []) : Books limits t' := by
  refine ⟨hd, ha, fun hpos => ?_, fun hpos sender => ?_, fun hc => ?_⟩
  · calc t'.size = t'.keys.length := t'.size_eq_length_keys
      _ ≤ t.keys.length := hkeys.length_le
      _ = t.size := t.size_eq_length_keys.symm
      _ ≤ limits.global := h.global hpos
  · exact (Table.openOf_le_of_sublist hkeys sender).trans (h.perSender hpos sender)
  · rcases hclosed with hsame | hempty
    · rw [Table.keys, Table.keys, h.closed (hsame ▸ hc)] at hkeys
      exact List.map_eq_nil_iff.1 (List.sublist_nil.1 hkeys)
    · exact hempty

theorem step_books (s : State) (o : Op) (h : Books limits s.table) : Books limits (step q limits s o).table := by
  cases o with
  | register key deadline =>
    simp only [step]
    split
    · rename_i hok
      exact h.register hok
    · exact h
  | record key node m =>
    exact h.shrink (h.distinct.record q key node m) (h.accounted.record h.distinct q key node m)
      (Table.keys_record s.table q key node m) (.inl (Table.closed_record s.table q key node m))
  | evict key =>
    exact h.shrink (h.distinct.erase key) (h.accounted.erase h.distinct key) (Table.keys_erase s.table key)
      (.inl (Table.closed_erase s.table key))
  | expire now =>
    exact h.shrink (h.distinct.expire q now) (h.accounted.expire h.distinct q now) (Table.keys_expire s.table q now)
      (.inl (Table.closed_expire s.table q now))
  | failAll code reason =>
    exact h.shrink Table.distinct_empty (Table.accounted_failAll s.table code reason) (List.nil_sublist _) (.inr rfl)
  | deliver position =>
    simp only [step]
    split <;> exact h

/-- only failing all requests closes a table -/
theorem closed_step (s : State) (o : Op) :
    (step q limits s o).table.closed = (s.table.closed || o.isFailAll) := by
  cases o with
  | register key deadline =>
    simp only [step, Op.isFailAll, Bool.or_false]
    split
    · rename_i hok
      exact (Table.register_ok hok).2.2.2
    · rfl
  | record key node m => exact (Table.closed_record s.table q key node m).trans (Bool.or_false _).symm
  | evict key => exact (Table.closed_erase s.table key).trans (Bool.or_false _).symm
  | expire now => exact (Table.closed_expire s.table q now).trans (Bool.or_false _).symm
  | failAll code reason => exact (Bool.or_true _).symm
  | deliver position =>
    simp only [step, Op.isFailAll, Bool.or_false]
    split <;> rfl

/-! ## Runs -/

theorem run_books (s : State) (ops : List Op) (h : Books limits s.table) : Books limits (run q limits s ops).table := by
  induction ops generalizing s with
  | nil => exact h
  | cons o ops ih => exact ih _ (step_books s o h)

theorem closed_run (s : State) (ops : List Op) :
    (run q limits s ops).table.closed = (s.table.closed || ops.any Op.isFailAll) := by
  induction ops generalizing s with
  | nil => simp [run]
  | cons o ops ih =>
    have hrun : run q limits s (o :: ops) = run q limits (step q limits s o) ops := rfl
    rw [hrun, ih, closed_step, List.any_cons, Bool.or_assoc]

/-! ## Registrations -/

/-- what can stand against a registration: all requests have been failed before, its key is open, all requests together
are too many, or those of its sender are -/
inductive Obstacle where
  | closed
  | taken
  | crowded
  | excessive
deriving DecidableEq, Repr

namespace Obstacle

/-- the obstacles in the order of their precedence -/
def inOrder : List Obstacle := [.closed, .taken, .crowded, .excessive]

/-- whether an obstacle stands against a registration, by the steps before and the keys of the open requests -/
def Stands (limits : Limits) (ops : List Op) (t : Table) (key : RequestKey) : Obstacle → Prop
  | .closed => ∃ o ∈ ops, o.isFailAll = true
  | .taken => key ∈ t.keys
  | .crowded => 0 < limits.global ∧ limits.global ≤ t.keys.length
  | .excessive => 0 < limits.perSender ∧ limits.perSender ≤ t.openOf key.sender

/-- what a registration is refused with -/
def error (limits : Limits) (key : RequestKey) : Obstacle → GatewayError
  | .closed => .lifecycle "pending request table is closed"
  | .taken => .duplicateRequest key.sender key.messageId
  | .crowded => .tooManyPending .global limits.global
  | .excessive => .tooManyPending .perSender limits.perSender

/-- the obstacle stands, and none that comes before it does -/
def First (limits : Limits) (ops : List Op) (t : Table) (key : RequestKey) (o : Obstacle) : Prop :=
  ∃ passed rest, inOrder = passed ++ o :: rest ∧ o.Stands limits ops t key ∧
    ∀ o' ∈ passed, ¬ o'.Stands limits ops t key

instance (limits : Limits) (ops : List Op) (t : Table) (key : RequestKey) :
    DecidablePred (Stands limits ops t key) := by
  intro o
  cases o <;> unfold Stands <;> infer_instance

variable {ops : List Op} {key : RequestKey}

theorem find?_eq_none_iff :
    (inOrder.find? fun o => o.Stands limits ops t key) = none ↔ ∀ o : Obstacle, ¬ o.Stands limits ops t key := by
  have hall : ∀ o, o ∈ inOrder := fun o => by cases o <;> decide
  simp only [List.find?_eq_none, decide_eq_true_eq, hall, forall_const]

theorem find?_eq_some_iff {o : Obstacle} :
    (inOrder.find? fun o => o.Stands limits ops t key) = some o ↔ o.First limits ops t key := by
  rw [List.find?_eq_some_iff_append]
  simp only [decide_eq_true_eq, Bool.not_eq_eq_eq_not, Bool.not_true, decide_eq_false_iff_not, First]
  constructor
  · rintro ⟨hstands, passed, rest, hsplit, hpassed⟩
    exact ⟨passed, rest, hsplit, hstands, hpassed⟩
  · rintro ⟨passed, rest, hsplit, hstands, hpassed⟩
    exact ⟨hstands, passed, rest, hsplit, hpassed⟩

end Obstacle

/-- a registration asks for the first obstacle -/
theorem register_eq (limits : Limits) {ops : List Op} (ha : t.Accounted) (hclosed : t.closed = ops.any Op.isFailAll)
    (key : RequestKey) (callback deadline : Nat) :
    t.register limits key callback deadline =
      match Obstacle.inOrder.find? fun o => o.Stands limits ops t key with
      | some o => .error (o.error limits key)
      | none => .ok { t with
          entries := t.entries ++ [⟨key, callback, [], deadline⟩], counts := countUp key.sender t.counts } := by
  have hfailed : (t.closed = true) ↔ Obstacle.Stands limits ops t key .closed := by
    rw [hclosed]
    exact List.any_eq_true
  have htaken : (t.contains key = true) ↔ Obstacle.Stands limits ops t key .taken := Table.contains_iff_mem_keys
  have hcrowded : (0 < limits.global ∧ limits.global ≤ t.size) ↔ Obstacle.Stands limits ops t key .crowded := by
    rw [Table.size_eq_length_keys]
    rfl
  have hexcessive : (0 < limits.perSender ∧ limits.perSender ≤ countOf key.sender t.counts) ↔
      Obstacle.Stands limits ops t key .excessive := by
    rw [ha.count]
    rfl
  simp only [Table.register, hfailed, htaken, hcrowded, hexcessive, Obstacle.inOrder, List.find?_cons]
  split_ifs <;> simp_all [Obstacle.error]

/-! ## Main result -/

/-- what an audit of a table after the steps `ops` finds -/
structure Audited (q : Quorum) (limits : Limits) (ops : List Op) (s : State) : Prop where
  /-- there is one number for each sender with open requests, the number of those, and there are no others -/
  accounted : s.table.Accounted
  /-- whatever keys are taken out one after the other, each that is open finds a number above zero to be lowered -/
  lowered : ∀ (gone : List RequestKey) (key : RequestKey), (gone.foldl Table.erase s.table).contains key = true →
    0 < countOf key.sender (gone.foldl Table.erase s.table).counts
  global : 0 < limits.global → s.table.size ≤ limits.global
  perSender : 0 < limits.perSender → ∀ sender, s.table.openOf sender ≤ limits.perSender
  admits : ∀ key callback deadline,
    (∃ t', s.table.register limits key callback deadline = .ok t' ∧
      t'.entries = s.table.entries ++ [⟨key, callback, [], deadline⟩]) ↔
    ∀ o : Obstacle, ¬ o.Stands limits ops s.table key
  refuses : ∀ key callback deadline e, s.table.register limits key callback deadline = .error e ↔
    ∃ o : Obstacle, o.First limits ops s.table key ∧ e = o.error limits key
  /-- a registration that is refused leaves the requests and the numbers as they are -/
  unchanged : ∀ key deadline, (∃ o : Obstacle, o.Stands limits ops s.table key) →
    (step q limits s (.register key deadline)).table = s.table
  /-- once all requests have been failed, the table is empty -/
  closed : (∃ o ∈ ops, o.isFailAll = true) → s.table.entries = [] ∧ s.table.counts = []

/-- **The books are right.** Whatever operations have been run on the table, and however their deliveries came in
between, an audit finds that its numbers are right and its caps kept to, that registrations go by the true numbers, and
that it has been empty ever since all its requests were failed. -/
theorem table_audited (q : Quorum) (limits : Limits) (ops : List Op) :
    Audited q limits ops (run q limits .start ops) := by
  have hbooks : Books limits (run q limits .start ops).table := run_books _ ops books_empty
  have hclosed : (run q limits .start ops).table.closed = ops.any Op.isFailAll := by
    rw [closed_run]
    rfl
  set s := run q limits .start ops
  have hregister := register_eq limits hbooks.accounted hclosed
  refine ⟨hbooks.accounted, fun gone key hopen => ?_, hbooks.global, hbooks.perSender, fun key callback deadline => ?_,
    fun key callback deadline e => ?_, fun key deadline hstands => ?_, fun hfailed => ?_⟩
  · exact (hbooks.accounted.erase_keys hbooks.distinct gone).pos_of_contains hopen
  · rw [hregister, ← Obstacle.find?_eq_none_iff]
    cases Obstacle.inOrder.find? fun o => o.Stands limits ops s.table key <;> simp
  · simp only [hregister, ← Obstacle.find?_eq_some_iff]
    cases Obstacle.inOrder.find? fun o => o.Stands limits ops s.table key <;> simp [eq_comm]
  · cases hfind : Obstacle.inOrder.find? fun o => o.Stands limits ops s.table key with
    | none =>
      obtain ⟨o, ho⟩ := hstands
      exact absurd ho (Obstacle.find?_eq_none_iff.1 hfind o)
    | some o => simp [step, hregister, hfind]
  · have hc : s.table.closed = true := by
      rw [hclosed]
      exact List.any_eq_true.2 hfailed
    exact ⟨hbooks.closed hc, hbooks.accounted.counts_of_empty (hbooks.closed hc)⟩

end Fates

end QuorumGateway.Pending
