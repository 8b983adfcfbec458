import QuorumGateway.Proofs.Pending.Table
/-!
The table under concurrent use. An operation holds the table's lock for one step, in which it changes the table and
takes out the requests that it settles; their callbacks receive their values only afterwards, one at a time, and any
number of other steps may come in between, also new registrations under the same keys. Callbacks are numbered in the
order of the calls that register them.

- `run_inv`: the callbacks at all places together are the callbacks registered so far, each once.
- `one_place`: hence in every state that such steps lead to, a callback that was ever registered is in exactly one
  place: refused, held by the one request with its key, awaiting its value, delivered, or evicted. It is there once, and
  of all operations that race for its request at most one has taken it out of the table.
-/

namespace QuorumGateway.Pending.Fates

/-- the operations that take requests out of the table -/
inductive Remover where
  | record
  | evict
  | expire
  | failAll
deriving DecidableEq, Repr

/-- a step: an operation under the lock, or one value handed to its callback, the one at a position among those that
wait -/
inductive Op where
  | register (key : RequestKey) (deadline : Nat)
  | record (key : RequestKey) (node : String) (response : Message)
  | evict (key : RequestKey)
  | expire (now : Nat)
  | failAll (code : ErrorCode) (reason : String)
  | deliver (position : Nat)

structure State where
  table : Table
  /-- the keys that callbacks were registered under, in the order of the calls -/
  opened : List RequestKey
  /-- callbacks dropped because their registration failed -/
  refused : List Nat
  /-- values of requests that have been taken out, not yet delivered -/
  awaiting : List Delivery
  delivered : List Delivery
  /-- callbacks dropped by evictions that found a request -/
  evicted : List Nat
  /-- callbacks whose requests have been taken out of the table, and by which operation -/
  removals : List (Nat × Remover)

/-- an empty table, and no callback yet -/
def State.start : State := ⟨.empty, [], [], [], [], [], []⟩

/-- the table after an operation that settles requests, and what it hands out -/
def State.handOut (s : State) (remover : Remover) (table : Table) (ds : List Delivery) : State :=
  { s with
    table
    awaiting := s.awaiting ++ ds
    removals := s.removals ++ ds.map fun d => (d.callback, remover) }

def step (q : Quorum) (limits : Limits) (s : State) : Op → State
  | .register key deadline =>
    let s' := { s with opened := s.opened ++ [key] }
    match s.table.register limits key s.opened.length deadline with
    | .ok table => { s' with table }
    | .error _ => { s' with refused := s.refused ++ [s.opened.length] }
  | .record key node m => s.handOut .record (s.table.record q key node m).1 (s.table.record q key node m).2.2
  | .evict key =>
    let dropped := (s.table.evict key).2.toList.map Entry.callback
    { s with
      table := (s.table.evict key).1
      evicted := s.evicted ++ dropped
      removals := s.removals ++ dropped.map fun c => (c, .evict) }
  | .expire now => s.handOut .expire (s.table.expire q now).1 (s.table.expire q now).2
  | .failAll code reason => s.handOut .failAll (s.table.failAll code reason).1 (s.table.failAll code reason).2
  | .deliver position =>
    match s.awaiting[position]? with
    | none => s
    | some d => { s with awaiting := s.awaiting.eraseIdx position, delivered := s.delivered ++ [d] }

def run (q : Quorum) (limits : Limits) (s : State) (ops : List Op) : State := ops.foldl (step q limits) s

/-- the key that a step registers a callback under, if it does -/
def Op.registers? : Op → Option RequestKey
  | .register key _ => some key
  | _ => none

theorem opened_step (q : Quorum) (limits : Limits) (s : State) (o : Op) :
    (step q limits s o).opened = s.opened ++ o.registers?.toList := by
  cases o with
  | register key deadline =>
    simp only [step, Op.registers?]
    split <;> rfl
  | deliver position =>
    simp only [step, Op.registers?]
    split <;> simp
  | _ => simp [step, State.handOut, Op.registers?]

/-- the keys in the state are those of the calls in the run -/
theorem opened_run (q : Quorum) (limits : Limits) (s : State) (ops : List Op) :
    (run q limits s ops).opened = s.opened ++ ops.filterMap Op.registers? := by
  induction ops generalizing s with
  | nil => simp [run]
  | cons o ops ih =>
    have hrun : run q limits s (o :: ops) = run q limits (step q limits s o) ops := rfl
    rw [hrun, ih, opened_step]
    cases h : o.registers? <;> simp [h]

/-! ## Places -/

/-- where a callback can be -/
inductive Place where
  | refused
  | held
  | awaiting
  | delivered
  | evicted
deriving DecidableEq, Repr

/-- the places that a callback does not leave any more -/
def Place.final : Place → Bool
  | .refused | .delivered | .evicted => true
  | .held | .awaiting => false

/-- the callbacks at a place, each as often as it is there -/
def State.at (s : State) : Place → List Nat
  | .refused => s.refused
  | .held => s.table.callbacks
  | .awaiting => s.awaiting.map Delivery.callback
  | .delivered => s.delivered.map Delivery.callback
  | .evicted => s.evicted

/-- the places of callbacks whose requests were taken out of the table -/
def State.out (s : State) : List Nat := s.at .awaiting ++ (s.at .delivered ++ s.at .evicted)

/-- the callbacks at all places -/
def State.everyone (s : State) : List Nat := s.at .refused ++ (s.at .held ++ s.out)

/-- final places only fill up -/
theorem at_step (q : Quorum) (limits : Limits) (s : State) (o : Op) {p : Place} (hp : p.final = true) :
    s.at p <+: (step q limits s o).at p := by
  cases o with
  | register key deadline =>
    simp only [step]
    split <;> cases p <;> first | exact absurd hp (by decide) | exact List.prefix_refl _ | exact List.prefix_append _ _
  | evict key =>
    cases p <;> first | exact absurd hp (by decide) | exact List.prefix_refl _ | exact List.prefix_append _ _
  | deliver position =>
    simp only [step]
    split
    · exact List.prefix_refl _
    · cases p with
      | delivered =>
        simp only [State.at, List.map_append]
        exact List.prefix_append _ _
      | refused | evicted => exact List.prefix_refl _
      | held | awaiting => exact absurd hp (by decide)
  | record | expire | failAll =>
    cases p <;> first | exact absurd hp (by decide) | exact List.prefix_refl _

theorem at_run (q : Quorum) (limits : Limits) (s : State) (ops : List Op) {p : Place} (hp : p.final = true) :
    s.at p <+: (run q limits s ops).at p := by
  induction ops generalizing s with
  | nil => exact List.prefix_refl _
  | cons o ops ih => exact (at_step q limits s o hp).trans (ih _)

/-! ## The invariant -/

structure Inv (s : State) : Prop where
  distinct : s.table.Distinct
  /-- the callbacks at all places are those registered so far -/
  once : s.everyone.Perm (List.range s.opened.length)
  /-- what was taken out of the table waits, has been delivered, or was evicted -/
  taken : (s.removals.map Prod.fst).Perm s.out
  keyed : ∀ e ∈ s.table.entries, s.opened[e.callback]? = some e.key

theorem inv_start : Inv .start := ⟨List.nodup_nil, .nil, .nil, fun _ he => by simp [State.start, Table.empty] at he⟩

/-! ## Steps keep the invariant -/

theorem inv_register {s : State} (q : Quorum) (limits : Limits) (h : Inv s) (key : RequestKey) (deadline : Nat) :
    Inv (step q limits s (.register key deadline)) := by
  have hgrow : ∀ e ∈ s.table.entries, (s.opened ++ [key])[e.callback]? = some e.key := by
    intro e he
    have hk := h.keyed e he
    rw [List.getElem?_append_left (List.getElem?_eq_some_iff.1 hk).1]
    exact hk
  have hnext : (s.everyone ++ [s.opened.length]).Perm (List.range (s.opened ++ [key]).length) := by
    rw [List.length_append, List.length_singleton, List.range_succ]
    exact h.once.append_right _
  simp only [step]
  cases hreg : s.table.register limits key s.opened.length deadline with
  | error e =>
    refine ⟨h.distinct, .trans (List.perm_iff_count.2 fun c => ?_) hnext, h.taken, hgrow⟩
    simp only [State.everyone, State.out, State.at, List.count_append]
    omega
  | ok table =>
    refine ⟨h.distinct.register hreg, .trans (List.perm_iff_count.2 fun c => ?_) hnext, h.taken, fun e he => ?_⟩
    · simp only [State.everyone, State.out, State.at, Table.callbacks_register hreg, List.count_append]
      omega
    · obtain ⟨-, -, hentries, -⟩ := Table.register_ok hreg
      rw [hentries] at he
      rcases List.mem_append.1 he with he | he
      · exact hgrow e he
      · simp only [List.mem_singleton] at he
        subst he
        simp

/-- an operation that settles requests moves their callbacks from the table to those that wait -/
theorem inv_handOut {s : State} (h : Inv s) (remover : Remover) {table : Table} {ds : List Delivery}
    (hd : table.Distinct) (hk : Table.Kept s.table table)
    (hp : s.table.callbacks.Perm (table.callbacks ++ ds.map Delivery.callback)) :
    Inv (s.handOut remover table ds) := by
  refine ⟨hd, .trans (List.perm_iff_count.2 fun c => ?_) h.once, List.perm_iff_count.2 fun c => ?_, fun e he => ?_⟩
  · have hc := hp.count_eq c
    simp only [State.everyone, State.out, State.at, State.handOut, List.map_append, List.count_append] at hc ⊢
    omega
  · have hc := h.taken.count_eq c
    have hds : (ds.map fun d => (d.callback, remover)).map Prod.fst = ds.map Delivery.callback := by simp
    simp only [State.out, State.at, State.handOut, List.map_append, List.count_append, hds] at hc ⊢
    omega
  · obtain ⟨e', he', hkey, hcallback⟩ := hk e he
    rw [hkey, hcallback]
    exact h.keyed e' he'

theorem inv_evict {s : State} (q : Quorum) (limits : Limits) (h : Inv s) (key : RequestKey) :
    Inv (step q limits s (.evict key)) := by
  refine ⟨h.distinct.erase key, .trans (List.perm_iff_count.2 fun c => ?_) h.once, List.perm_iff_count.2 fun c => ?_,
    fun e he => h.keyed e (Table.mem_erase.1 he).1⟩
  · have hc := (Table.callbacks_evict h.distinct key).count_eq c
    simp only [State.everyone, State.out, State.at, step, List.count_append] at hc ⊢
    omega
  · have hc := h.taken.count_eq c
    have hds : ∀ l : List Nat, (l.map fun c => (c, Remover.evict)).map Prod.fst = l := fun l => by
      simp [Function.comp_def]
    simp only [State.out, State.at, step, List.map_append, List.count_append, hds] at hc ⊢
    omega

/-- a delivery moves one callback from those that wait to those delivered -/
theorem inv_deliver {s : State} (q : Quorum) (limits : Limits) (h : Inv s) (position : Nat) :
    Inv (step q limits s (.deliver position)) := by
  simp only [step]
  cases hi : s.awaiting[position]? with
  | none => exact h
  | some d =>
    obtain ⟨hlt, hget⟩ := List.getElem?_eq_some_iff.1 hi
    have hp : (d :: s.awaiting.eraseIdx position).Perm s.awaiting := hget ▸ List.getElem_cons_eraseIdx_perm hlt
    have hout : ({ s with awaiting := s.awaiting.eraseIdx position, delivered := s.delivered ++ [d] } : State).out.Perm
        s.out := by
      refine List.perm_iff_count.2 fun c => ?_
      have hc := (hp.map Delivery.callback).count_eq c
      simp only [State.out, State.at, List.map_append, List.map_cons, List.map_nil, List.count_append,
        List.count_cons, List.count_nil] at hc ⊢
      omega
    exact ⟨h.distinct, ((hout.append_left _).append_left _).trans h.once, h.taken.trans hout.symm, h.keyed⟩

theorem step_inv (q : Quorum) (limits : Limits) (s : State) (o : Op) (h : Inv s) : Inv (step q limits s o) := by
  cases o with
  | register key deadline => exact inv_register q limits h key deadline
  | record key node m =>
    exact inv_handOut h .record (h.distinct.record q key node m) (Table.kept_record _ _ _ _ _)
      (Table.callbacks_record h.distinct q key node m)
  | evict key => exact inv_evict q limits h key
  | expire now =>
    exact inv_handOut h .expire (h.distinct.expire q now) (Table.kept_expire h.distinct q now)
      (Table.callbacks_expire h.distinct q now)
  | failAll code reason =>
    exact inv_handOut h .failAll List.nodup_nil (fun e he => by simp [Table.failAll] at he)
      (Table.callbacks_failAll _ code reason)
  | deliver position => exact inv_deliver q limits h position

theorem run_inv (q : Quorum) (limits : Limits) (s : State) (ops : List Op) (h : Inv s) : Inv (run q limits s ops) := by
  induction ops generalizing s with
  | nil => exact h
  | cons o ops ih => exact ih _ (step_inv q limits s o h)

/-! ## Main result -/

/-- where a callback is, and that it is nowhere else -/
structure Fate (s : State) (c : Nat) (p : Place) : Prop where
  here : (s.at p).count c = 1
  nowhereElse : ∀ p' ≠ p, (s.at p').count c = 0
  /-- an operation has taken its request out of the table, and one only, unless there was none or it is still there -/
  removedOnce : (s.removals.map Prod.fst).count c = if p = .refused ∨ p = .held then 0 else 1

theorem Fate.unique {s : State} {c : Nat} {p p' : Place} (h : Fate s c p) (hp' : 0 < (s.at p').count c) : p' = p := by
  by_contra hne
  have := h.nowhereElse p' hne
  omega

theorem Inv.fate {s : State} (h : Inv s) {c : Nat} (hc : c < s.opened.length) : ∃ p, Fate s c p := by
  have h1 : s.everyone.count c = 1 := by
    rw [h.once.count_eq]
    exact List.count_eq_one_of_mem List.nodup_range (List.mem_range.2 hc)
  have h2 := h.taken.count_eq c
  simp only [State.everyone, State.out, List.count_append] at h1 h2
  have key : ∀ p : Place, (s.at p).count c = 1 → Fate s c p := by
    intro p hp
    refine ⟨hp, fun p' hp' => ?_, ?_⟩
    · cases p <;> cases p' <;> first | exact absurd rfl hp' | omega
    · rw [h2]
      cases p <;> simp only [reduceCtorEq, or_self, or_true, true_or, if_true, if_false] <;> omega
  by_contra hnone
  have hzero : ∀ p : Place, (s.at p).count c ≠ 1 := fun p hp => hnone ⟨p, key p hp⟩
  have := hzero .refused
  have := hzero .held
  have := hzero .awaiting
  have := hzero .delivered
  have := hzero .evicted
  omega

/-- **Exactly one fate.** Whatever operations have been run on the table, and however their deliveries came in between,
the callback of each call to register is in exactly one place, there once, and at most one operation has taken its
request out of the table. If it is held, then by the only request with its key. Once it has been refused, delivered or
evicted, it stays so whatever follows. -/
theorem one_place (q : Quorum) (limits : Limits) (ops : List Op) (c : Nat) (key : RequestKey)
    (h : (ops.filterMap Op.registers?)[c]? = some key) :
    ∃ p, Fate (run q limits .start ops) c p ∧
      (p = .held → ∃ e, (∀ e', e' ∈ (run q limits .start ops).table.entries ∧ e'.key = key ↔ e' = e) ∧
        e.callback = c) ∧
      (p.final = true → ∀ more, Fate (run q limits .start (ops ++ more)) c p) := by
  have hinv := run_inv q limits .start ops inv_start
  have hopened : (run q limits .start ops).opened[c]? = some key := by
    rw [opened_run]
    exact h
  obtain ⟨p, hp⟩ := hinv.fate (List.getElem?_eq_some_iff.1 hopened).1
  refine ⟨p, hp, ?_, ?_⟩
  · rintro rfl
    obtain ⟨e, he, rfl⟩ := Table.mem_callbacks.1 (List.count_pos_iff.1 (hp.here.symm ▸ Nat.one_pos))
    have hkey : e.key = key := Option.some.inj ((hinv.keyed e he).symm.trans hopened)
    refine ⟨e, fun e' => ⟨fun ⟨he', hk'⟩ => hinv.distinct.eq_of_key he' he (hk'.trans hkey.symm), ?_⟩, rfl⟩
    rintro rfl
    exact ⟨he, hkey⟩
  · intro hfinal more
    have hrun : run q limits .start (ops ++ more) = run q limits (run q limits .start ops) more := by
      simp [run, List.foldl_append]
    have hlt : c < (run q limits .start (ops ++ more)).opened.length := by
      rw [opened_run, List.filterMap_append, ← List.append_assoc, List.length_append]
      exact Nat.lt_add_right _ (List.getElem?_eq_some_iff.1 h).1
    obtain ⟨p', hp'⟩ := (run_inv q limits .start (ops ++ more) inv_start).fate hlt
    have hstill : 0 < ((run q limits .start (ops ++ more)).at p).count c := by
      rw [hrun]
      have hle := ((at_run q limits (run q limits .start ops) more hfinal).sublist).count_le c
      exact Nat.lt_of_lt_of_le (hp.here.symm ▸ Nat.one_pos) hle
    rw [hp'.unique hstill]
    exact hp'

/-- a request that expires while its value has yet to be delivered, its key taken again meanwhile, and an eviction and a
response racing for the second request -/
def raceTrace : List Op :=
  [.register ⟨"0xab", "m"⟩ 5, .register ⟨"0xab", "m"⟩ 6, .expire 5, .register ⟨"0xab", "m"⟩ 9, .evict ⟨"0xab", "m"⟩,
    .record ⟨"0xab", "m"⟩ "n" (.unsigned "m" "secrets_list" "don" .null), .deliver 0]

/-- the eviction wins: the last callback is closed for good, and the response finds no request -/
theorem one_place_race :
    (raceTrace.filterMap Op.registers?)[2]? = some ⟨"0xab", "m"⟩ ∧
      (run ⟨4, 1⟩ ⟨0, 0⟩ .start raceTrace).removals = [(0, .expire), (2, .evict)] ∧
      Fate (run ⟨4, 1⟩ ⟨0, 0⟩ .start raceTrace) 2 .evicted ∧
      ∀ more, Fate (run ⟨4, 1⟩ ⟨0, 0⟩ .start (raceTrace ++ more)) 2 .evicted := by
  have hregisters : (raceTrace.filterMap Op.registers?)[2]? = some ⟨"0xab", "m"⟩ := rfl
  have hevicted : 0 < ((run ⟨4, 1⟩ ⟨0, 0⟩ .start raceTrace).at .evicted).count 2 := by decide
  obtain ⟨p, hfate, -, hfinal⟩ := one_place ⟨4, 1⟩ ⟨0, 0⟩ raceTrace 2 ⟨"0xab", "m"⟩ hregisters
  obtain rfl : .evicted = p := hfate.unique hevicted
  exact ⟨hregisters, by decide, hfate, hfinal rfl⟩

end QuorumGateway.Pending.Fates
