import QuorumGateway.Proofs.Pending.Senders
import QuorumGateway.Proofs.Pending.Turns
/-!
A sender's shadow. What a sender sees of a run is kept by a clock of its own, on which only the operations that concern
it are run (`Shadow`): an operation that concerns the sender does to the shadow what it does to the clock
(`Shadow.act_own`), any other leaves it as it is (`Shadow.act_other`).

- `view_eq`: with no cap on all requests together, what a sender sees of a run is a run of only those operations that
  concern it.
-/

namespace QuorumGateway.Simulation.Isolation

open Pending

/-! ## The shadow -/

section Shadow

variable {sender : String} {keys : List RequestKey} {s own : PendingClock}

/-- a clock holds of the table, of the receivers that wait, and of what has happened, what a sender sees -/
structure Shadow (sender : String) (keys : List RequestKey) (s own : PendingClock) : Prop where
  quorum : own.quorum = s.quorum
  limits : own.limits = s.limits
  table : own.table = s.table.seenBy sender (rank sender keys)
  opened : own.receivers.opened = rank sender keys s.receivers.opened
  waiting : own.receivers.waiting = (s.receivers.waiting.filter (isOwn sender keys)).map (rank sender keys)
  fates : own.fates = ownFates sender keys s.fates
  keyed : ∀ e ∈ s.table.entries, keys[e.callback]? = some e.key

theorem told_own (waiting : List ℕ) (fates : List (ℕ × Fate)) :
    told ((waiting.filter (isOwn sender keys)).map (rank sender keys)) (ownFates sender keys fates) =
      ownFates sender keys (told waiting fates) := by
  induction waiting with
  | nil => rfl
  | cons c rest ih =>
    have hcons : ∀ (d : ℕ) (l : List ℕ) (fs : List (ℕ × Fate)),
        told (d :: l) fs = ((fs.find? fun f => f.1 == d).map fun f => (d, f.2)).toList ++ told l fs := by
      intro d l fs
      cases h : fs.find? fun f => f.1 == d <;> simp [told, h]
    rw [hcons, ownFates_append, ← ih]
    by_cases hown : isOwn sender keys c = true
    · rw [List.filter_cons_of_pos hown, List.map_cons, hcons, find?_ownFates hown]
      cases fates.find? fun f => f.1 == c <;> simp [ownFates, hown]
    · rw [List.filter_cons_of_neg hown]
      cases fates.find? fun f => f.1 == c <;> simp [ownFates, hown]

/-- a report tells a sender's shadow what it tells the sender -/
theorem Shadow.report (h : Shadow sender keys s own) :
    Shadow sender keys s.report.1 own.report.1 ∧ own.report.2 = ownFates sender keys s.report.2 := by
  have htold : told own.receivers.waiting own.fates = ownFates sender keys (told s.receivers.waiting s.fates) := by
    rw [h.waiting, h.fates, told_own]
  rw [report_eq, report_eq]
  refine ⟨⟨h.quorum, h.limits, h.table, h.opened, ?_, rfl, h.keyed⟩, htold⟩
  simp only [h.waiting, h.fates, List.filter_map, List.filter_filter]
  refine congrArg (List.map _) (List.filter_congr fun c _ => ?_)
  by_cases hown : isOwn sender keys c = true
  · simp [hown, any_ownFates hown]
  · simp [hown]

/-! ### Parts of operations -/

/-- a value as what happens to a callback -/
def delivered (d : Delivery) : ℕ × Fate := (d.callback, .delivered d.reply)

theorem ownFates_of_own {ds : List Delivery} (h : ∀ d ∈ ds, isOwn sender keys d.callback = true) :
    ownFates sender keys (ds.map delivered) = (ds.map (Delivery.relabel (rank sender keys))).map delivered := by
  have hall : (ds.map delivered).filter (fun f => isOwn sender keys f.1) = ds.map delivered := by
    refine List.filter_eq_self.2 fun f hf => ?_
    obtain ⟨d, hd, rfl⟩ := List.mem_map.1 hf
    exact h d hd
  rw [ownFates, hall, List.map_map, List.map_map]
  rfl

theorem ownFates_of_others {fates : List (ℕ × Fate)} (h : ∀ f ∈ fates, isOwn sender keys f.1 = false) :
    ownFates sender keys fates = [] := by
  have hnone : fates.filter (fun f => isOwn sender keys f.1) = [] :=
    List.filter_eq_nil_iff.2 fun f hf => by rw [h f hf]; exact Bool.false_ne_true
  rw [ownFates, hnone]
  rfl

/-- of the values that requests are settled with, the sender's are those of its requests -/
theorem ownFates_delivered (sender : String) {l : List Entry} {g : Entry → Delivery}
    (hcallback : ∀ e, (g e).callback = e.callback) (hkeyed : ∀ e ∈ l, keys[e.callback]? = some e.key) :
    ownFates sender keys ((l.map g).map delivered) =
      ((l.filter fun e => e.key.sender = sender).map fun e => (g e).relabel (rank sender keys)).map delivered := by
  simp only [ownFates, List.filter_map, List.map_map]
  have hfilter : (l.filter fun e => isOwn sender keys (delivered (g e)).1) = l.filter fun e => e.key.sender = sender :=
    List.filter_congr fun e he => by
      have hdelivered : (delivered (g e)).1 = e.callback := hcallback e
      rw [hdelivered, isOwn_eq (hkeyed e he)]
  simp only [Function.comp_def, hfilter]
  rfl

/-- a change of the table; a sender does not see the counters -/
theorem Shadow.replace (h : Shadow sender keys s own) {table : Table}
    (hkeyed : ∀ e ∈ table.entries, keys[e.callback]? = some e.key) (metrics metrics' : Metrics) :
    Shadow sender keys { s with table, metrics }
      { own with table := table.seenBy sender (rank sender keys), metrics := metrics' } :=
  ⟨h.quorum, h.limits, rfl, h.opened, h.waiting, h.fates, hkeyed⟩

/-- a change of the table that a sender does not see, either -/
theorem Shadow.replace_other (h : Shadow sender keys s own) {table : Table}
    (hsame : table.seenBy sender (rank sender keys) = s.table.seenBy sender (rank sender keys))
    (hkeyed : ∀ e ∈ table.entries, keys[e.callback]? = some e.key) (metrics : Metrics) :
    Shadow sender keys { s with table, metrics } own :=
  ⟨h.quorum, h.limits, h.table.trans hsame.symm, h.opened, h.waiting, h.fates, hkeyed⟩

theorem Shadow.deliver (h : Shadow sender keys s own) {ds ds' : List Delivery}
    (hds : ds'.map delivered = ownFates sender keys (ds.map delivered)) :
    Shadow sender keys (s.deliver ds) (own.deliver ds') := by
  refine ⟨h.quorum, h.limits, h.table, h.opened, h.waiting, ?_, h.keyed⟩
  calc own.fates ++ ds'.map delivered = ownFates sender keys s.fates ++ ownFates sender keys (ds.map delivered) := by
        rw [h.fates, hds]
    _ = ownFates sender keys (s.fates ++ ds.map delivered) := (ownFates_append _ _).symm

theorem Shadow.deliver_other (h : Shadow sender keys s own) {ds : List Delivery}
    (hds : ∀ d ∈ ds, isOwn sender keys d.callback = false) : Shadow sender keys (s.deliver ds) own := by
  have hnone : ownFates sender keys (ds.map delivered) = [] := by
    refine ownFates_of_others fun f hf => ?_
    obtain ⟨d, hd, rfl⟩ := List.mem_map.1 hf
    exact hds d hd
  refine ⟨h.quorum, h.limits, h.table, h.opened, h.waiting, ?_, h.keyed⟩
  calc own.fates = ownFates sender keys s.fates ++ ownFates sender keys (ds.map delivered) := by
        rw [hnone, List.append_nil, h.fates]
    _ = ownFates sender keys (s.fates ++ ds.map delivered) := (ownFates_append _ _).symm

theorem Shadow.close (h : Shadow sender keys s own) {c : ℕ} (hown : isOwn sender keys c = true) :
    Shadow sender keys (s.close c) (own.close (rank sender keys c)) := by
  refine ⟨h.quorum, h.limits, h.table, h.opened, h.waiting, ?_, h.keyed⟩
  simp only [PendingClock.close, ownFates_append, h.fates]
  simp [ownFates, hown]

theorem Shadow.close_other (h : Shadow sender keys s own) {c : ℕ} (hother : isOwn sender keys c = false) :
    Shadow sender keys (s.close c) own := by
  refine ⟨h.quorum, h.limits, h.table, h.opened, h.waiting, ?_, h.keyed⟩
  simp only [PendingClock.close, ownFates_append, h.fates]
  simp [ownFates, hother]

/-- a callback with the next number, registered by the sender -/
theorem Shadow.open (h : Shadow sender keys s own) {key : RequestKey} (hkey : key.sender = sender)
    (hnext : keys[s.receivers.opened]? = some key) :
    Shadow sender keys { s with receivers := s.receivers.add } { own with receivers := own.receivers.add } := by
  have hown : isOwn sender keys s.receivers.opened = true := by
    rw [isOwn_eq hnext]
    exact decide_eq_true hkey
  refine ⟨h.quorum, h.limits, h.table, ?_, ?_, h.fates, h.keyed⟩
  · simp only [Receivers.add, rank_succ hnext, if_pos hkey, h.opened]
  · simp only [Receivers.add, h.waiting, h.opened, List.filter_append, List.map_append]
    simp [hown]

theorem Shadow.open_other (h : Shadow sender keys s own) {key : RequestKey} (hkey : key.sender ≠ sender)
    (hnext : keys[s.receivers.opened]? = some key) :
    Shadow sender keys { s with receivers := s.receivers.add } own := by
  have hother : isOwn sender keys s.receivers.opened = false := by
    rw [isOwn_eq hnext]
    exact decide_eq_false hkey
  refine ⟨h.quorum, h.limits, h.table, ?_, ?_, h.fates, h.keyed⟩
  · simp only [Receivers.add, rank_succ hnext, if_neg hkey, h.opened, Nat.add_zero]
  · simp only [Receivers.add, h.waiting, List.filter_append]
    simp [hother]

theorem Shadow.keyed_of_kept (h : Shadow sender keys s own) {table : Table} (hkept : Table.Kept s.table table) :
    ∀ e ∈ table.entries, keys[e.callback]? = some e.key := by
  intro e he
  obtain ⟨e', he', hkey, hcallback⟩ := hkept e he
  rw [hkey, hcallback]
  exact h.keyed e' he'

/-! ### Operations -/

/-- what happens to the registrations of a clock -/
theorem register_cases (s : PendingClock) (key : RequestKey) (deadline : ℕ) :
    (∃ e, s.table.register s.limits key s.receivers.opened deadline = .error e ∧
      s.register key deadline =
        (PendingClock.close { s with receivers := s.receivers.add } s.receivers.opened, .error e)) ∨
    ∃ table, s.table.register s.limits key s.receivers.opened deadline = .ok table ∧
      s.register key deadline = (PendingClock.withTable { s with receivers := s.receivers.add } table, .ok ()) := by
  unfold PendingClock.register
  cases h : s.table.register s.limits key s.receivers.opened deadline with
  | error e => exact .inl ⟨e, rfl, by simp only [h]⟩
  | ok table => exact .inr ⟨table, rfl, by simp only [h]⟩

theorem Shadow.keyed_register (h : Shadow sender keys s own) {key : RequestKey} {deadline : ℕ} {table : Table}
    (hnext : keys[s.receivers.opened]? = some key)
    (hok : s.table.register s.limits key s.receivers.opened deadline = .ok table) :
    ∀ e ∈ table.entries, keys[e.callback]? = some e.key := by
  obtain ⟨-, -, hentries, -⟩ := Table.register_ok hok
  intro e he
  rw [hentries] at he
  rcases List.mem_append.1 he with he | he
  · exact h.keyed e he
  · rw [List.mem_singleton.1 he]
    exact hnext

theorem Shadow.register_own (h : Shadow sender keys s own) (hglobal : s.limits.global = 0) {key : RequestKey}
    (hkey : key.sender = sender) (hnext : keys[s.receivers.opened]? = some key) (deadline : ℕ) :
    Shadow sender keys (s.register key deadline).1 (own.register key deadline).1 ∧
      (own.register key deadline).2 = (s.register key deadline).2 := by
  have hown : isOwn sender keys s.receivers.opened = true := by
    rw [isOwn_eq hnext]
    exact decide_eq_true hkey
  have htable : own.table.register own.limits key own.receivers.opened deadline =
      (s.table.register s.limits key s.receivers.opened deadline).map (Table.seenBy sender (rank sender keys)) := by
    rw [h.table, h.limits, h.opened]
    exact Table.register_own hglobal hkey _ deadline
  rcases register_cases s key deadline with ⟨e, hreg, hs⟩ | ⟨table, hreg, hs⟩ <;> rw [hreg] at htable <;>
    rcases register_cases own key deadline with ⟨e', hreg', ho⟩ | ⟨table', hreg', ho⟩ <;>
    simp only [hreg', Except.map, reduceCtorEq, Except.error.injEq, Except.ok.injEq] at htable <;> rw [hs, ho, htable]
  · rw [h.opened]
    exact ⟨(h.open hkey hnext).close hown, rfl⟩
  · exact ⟨(h.open hkey hnext).replace (h.keyed_register hnext hreg) _ _, rfl⟩

theorem Shadow.register_other (h : Shadow sender keys s own) {key : RequestKey} (hkey : key.sender ≠ sender)
    (hnext : keys[s.receivers.opened]? = some key) (deadline : ℕ) :
    Shadow sender keys (s.register key deadline).1 own := by
  have hother : isOwn sender keys s.receivers.opened = false := by
    rw [isOwn_eq hnext]
    exact decide_eq_false hkey
  rcases register_cases s key deadline with ⟨e, hreg, hs⟩ | ⟨table, hreg, hs⟩ <;> rw [hs]
  · exact (h.open_other hkey hnext).close_other hother
  · exact (h.open_other hkey hnext).replace_other (Table.register_other hkey hreg) (h.keyed_register hnext hreg) _

/-- the callback that a response settles is that of a request with its key -/
theorem Shadow.isOwn_record (h : Shadow sender keys s own) (key : RequestKey) (node : String) (m : Message) :
    ∀ d ∈ (s.table.record s.quorum key node m).2.2, isOwn sender keys d.callback = decide (key.sender = sender) := by
  intro d hd
  rcases Table.record_cases s.table s.quorum key node m with ⟨-, hr⟩ | ⟨e, -, -, hr⟩ | ⟨e, reply, hf, -, hr⟩ <;>
    rw [hr] at hd
  · exact absurd hd List.not_mem_nil
  · exact absurd hd List.not_mem_nil
  · rw [List.mem_singleton.1 hd, isOwn_eq (h.keyed e (Table.mem_of_find? hf)), Table.key_of_find? hf]

theorem Shadow.record_own (h : Shadow sender keys s own) {key : RequestKey} (hkey : key.sender = sender)
    (node : String) (m : Message) :
    Shadow sender keys (s.record key node m).1 (own.record key node m).1 ∧
      (own.record key node m).2 = (s.record key node m).2 := by
  have hrecord := Table.record_own (t := s.table) (f := rank sender keys) hkey s.quorum node m
  have hown := ownFates_of_own fun d hd => (h.isOwn_record key node m d hd).trans (decide_eq_true hkey)
  have hkeyed := h.keyed_of_kept (Table.kept_record s.table s.quorum key node m)
  unfold PendingClock.record
  rw [h.table, h.quorum, hrecord]
  exact ⟨(h.replace hkeyed _ _).deliver hown.symm, rfl⟩

theorem Shadow.record_other (h : Shadow sender keys s own) {key : RequestKey} (hkey : key.sender ≠ sender)
    (node : String) (m : Message) : Shadow sender keys (s.record key node m).1 own := by
  have hother := fun d hd => (h.isOwn_record key node m d hd).trans (decide_eq_false hkey)
  have hkeyed := h.keyed_of_kept (Table.kept_record s.table s.quorum key node m)
  exact (h.replace_other (Table.record_other hkey s.quorum node m) hkeyed _).deliver_other hother

theorem Shadow.keyed_erase (h : Shadow sender keys s own) (key : RequestKey) :
    ∀ e ∈ (s.table.erase key).entries, keys[e.callback]? = some e.key :=
  fun e he => h.keyed e (Table.mem_erase.1 he).1

/-- what happens to the evictions of a clock -/
theorem evict_cases (s : PendingClock) (key : RequestKey) :
    (s.table.find? key = none ∧ s.evict key = (s.withTable (s.table.erase key), false)) ∨
    ∃ e, s.table.find? key = some e ∧
      s.evict key = ((s.withTable (s.table.erase key)).close e.callback, true) := by
  unfold PendingClock.evict Table.evict
  cases s.table.find? key with
  | none => exact .inl ⟨rfl, rfl⟩
  | some e => exact .inr ⟨e, rfl, rfl⟩

theorem Shadow.evict_own (h : Shadow sender keys s own) {key : RequestKey} (hkey : key.sender = sender) :
    Shadow sender keys (s.evict key).1 (own.evict key).1 ∧ (own.evict key).2 = (s.evict key).2 := by
  have hfind : own.table.find? key = (s.table.find? key).map (Entry.relabel (rank sender keys)) := by
    rw [h.table]
    exact Table.find?_seenBy hkey
  have herase : own.table.erase key = (s.table.erase key).seenBy sender (rank sender keys) := by
    rw [h.table, Table.erase_own hkey]
  have htable := h.replace (h.keyed_erase key) (s.metrics.setPending (s.table.erase key).size)
    (own.metrics.setPending ((s.table.erase key).seenBy sender (rank sender keys)).size)
  rcases evict_cases s key with ⟨hf, hs⟩ | ⟨e, hf, hs⟩ <;> rw [hf] at hfind <;>
    rcases evict_cases own key with ⟨hf', ho⟩ | ⟨e', hf', ho⟩ <;>
    simp only [hf', Option.map, reduceCtorEq, Option.some.injEq] at hfind <;> rw [hs, ho, herase]
  · exact ⟨htable, rfl⟩
  · have hown : isOwn sender keys e.callback = true := by
      rw [isOwn_eq (h.keyed e (Table.mem_of_find? hf)), Table.key_of_find? hf]
      exact decide_eq_true hkey
    rw [hfind]
    exact ⟨htable.close hown, rfl⟩

theorem Shadow.evict_other (h : Shadow sender keys s own) {key : RequestKey} (hkey : key.sender ≠ sender) :
    Shadow sender keys (s.evict key).1 own := by
  have htable := h.replace_other (Table.erase_other hkey) (h.keyed_erase key)
    (s.metrics.setPending (s.table.erase key).size)
  rcases evict_cases s key with ⟨hf, hs⟩ | ⟨e, hf, hs⟩ <;> rw [hs]
  · exact htable
  · have hother : isOwn sender keys e.callback = false := by
      rw [isOwn_eq (h.keyed e (Table.mem_of_find? hf)), Table.key_of_find? hf]
      exact decide_eq_false hkey
    exact htable.close_other hother

theorem Shadow.expire (h : Shadow sender keys s own) (instant : ℕ) :
    Shadow sender keys (s.expire instant).1 (own.expire instant).1 := by
  have hexpire : (s.table.seenBy sender (rank sender keys)).expire s.quorum instant = _ :=
    Table.expire_seenBy s.quorum instant
  have hkeyed : ∀ e ∈ (s.table.expire s.quorum instant).1.entries, keys[e.callback]? = some e.key := by
    intro e he
    refine h.keyed e ?_
    simp only [Table.expire, Table.entries_erase_all] at he
    exact (List.mem_filter.1 he).1
  have hfates := ownFates_delivered sender (g := Table.timeout s.quorum) (fun _ => rfl)
    (l := s.table.entries.filter fun e => e.deadline ≤ instant) fun e he => h.keyed e (List.mem_filter.1 he).1
  unfold PendingClock.expire
  rw [h.table, h.quorum, hexpire]
  exact (h.replace hkeyed _ _).deliver hfates.symm

theorem Shadow.failAll (h : Shadow sender keys s own) (code : ErrorCode) (reason : String) :
    Shadow sender keys (s.failAll code reason).1 (own.failAll code reason).1 := by
  have hfail : (s.table.seenBy sender (rank sender keys)).failAll code reason = _ := Table.failAll_seenBy code reason
  have hkeyed : ∀ e ∈ (s.table.failAll code reason).1.entries, keys[e.callback]? = some e.key :=
    fun e he => absurd he List.not_mem_nil
  have hfates := ownFates_delivered sender (l := s.table.entries)
    (g := fun e => ⟨e.callback, .failure code reason⟩) (fun _ => rfl) h.keyed
  unfold PendingClock.failAll
  rw [h.table, hfail]
  exact (h.replace hkeyed _ _).deliver hfates.symm

/-- an operation that concerns a sender does to its shadow what it does to the clock, and answers the sender alike -/
theorem Shadow.act_own (h : Shadow sender keys s own) (hglobal : s.limits.global = 0) {o : Op}
    (hnext : ∀ key, o.registers? = some key → keys[s.receivers.opened]? = some key)
    (hconcerns : o.concerns sender = true) :
    Shadow sender keys (act s o).1 (act own o).1 ∧ (o.isOn sender = true → (act own o).2 = (act s o).2) := by
  cases o with
  | register key deadline =>
    obtain ⟨hshadow, hanswer⟩ := h.register_own hglobal (of_decide_eq_true hconcerns) (hnext key rfl) deadline
    exact ⟨hshadow, fun _ => congrArg Answer.registered hanswer⟩
  | record key node m =>
    obtain ⟨hshadow, hanswer⟩ := h.record_own (of_decide_eq_true hconcerns) node m
    exact ⟨hshadow, fun _ => congrArg Answer.recorded hanswer⟩
  | evict key =>
    obtain ⟨hshadow, hanswer⟩ := h.evict_own (of_decide_eq_true hconcerns)
    exact ⟨hshadow, fun _ => congrArg Answer.evicted hanswer⟩
  | expire instant => exact ⟨h.expire instant, fun hon => absurd hon Bool.false_ne_true⟩
  | failAll code reason => exact ⟨h.failAll code reason, fun hon => absurd hon Bool.false_ne_true⟩
  | drop callback => exact absurd hconcerns Bool.false_ne_true

/-- an operation that does not concern a sender leaves its shadow as it is -/
theorem Shadow.act_other (h : Shadow sender keys s own) {o : Op}
    (hnext : ∀ key, o.registers? = some key → keys[s.receivers.opened]? = some key)
    (hother : o.concerns sender = false) (hstays : o.isDrop = false) : Shadow sender keys (act s o).1 own := by
  cases o with
  | register key deadline => exact h.register_other (of_decide_eq_false hother) (hnext key rfl) deadline
  | record key node m => exact h.record_other (of_decide_eq_false hother) node m
  | evict key => exact h.evict_other (of_decide_eq_false hother)
  | expire | failAll => exact absurd hother.symm Bool.false_ne_true
  | drop callback => exact absurd hstays.symm Bool.false_ne_true

end Shadow

/-! ## Runs -/

section Runs

variable {sender : String} {keys : List RequestKey} {s own : PendingClock}

/-- only a registration opens a callback, and no operation changes the caps -/
theorem act_frame (s : PendingClock) (o : Op) :
    (act s o).1.receivers.opened = s.receivers.opened + o.registers?.toList.length ∧ (act s o).1.limits = s.limits := by
  cases o with
  | register key deadline =>
    rcases register_cases s key deadline with ⟨e, -, hs⟩ | ⟨table, -, hs⟩ <;> simp only [Isolation.act, hs] <;>
      exact ⟨rfl, rfl⟩
  | evict key =>
    rcases evict_cases s key with ⟨-, hs⟩ | ⟨e, -, hs⟩ <;> simp only [Isolation.act, hs] <;> exact ⟨rfl, rfl⟩
  | record | expire | failAll | drop => exact ⟨rfl, rfl⟩

/-- what a turn shows to a sender that is alone -/
def Turn.shown (sender : String) (t : Turn) : Sight := ⟨if t.op.isOn sender then some t.answer else none, t.fates⟩

theorem seen_trace {ops : List Op} (h : Shadow sender keys s own) (hquiet : s.fates = [])
    (hglobal : s.limits.global = 0) (hkeys : keys.drop s.receivers.opened = ops.filterMap Op.registers?)
    (hstays : ∀ o ∈ ops, o.isDrop = false) :
    (trace s ops).filterMap (Turn.seen? sender keys) =
      (trace own (ops.filter (Op.concerns sender))).map (Turn.shown sender) := by
  induction ops generalizing s own with
  | nil => rfl
  | cons o ops ih =>
    obtain ⟨hopened, hlimits⟩ := act_frame s o
    have hnext : ∀ key, o.registers? = some key → keys[s.receivers.opened]? = some key := by
      intro key hkey
      rw [← List.head?_drop, hkeys, List.filterMap_cons, hkey]
      rfl
    have hrest : keys.drop (turn s o).1.receivers.opened = ops.filterMap Op.registers? := by
      have hturn : (turn s o).1.receivers.opened = s.receivers.opened + o.registers?.toList.length := hopened
      rw [hturn, ← List.drop_drop, hkeys]
      cases hreg : o.registers? <;> simp [hreg]
    have hglobal' : (turn s o).1.limits.global = 0 := by
      have hturn : (turn s o).1.limits = s.limits := hlimits
      rw [hturn, hglobal]
    obtain ⟨ho, hops⟩ := List.forall_mem_cons.1 hstays
    by_cases hconcerns : o.concerns sender = true
    · obtain ⟨hshadow, hanswer⟩ := h.act_own hglobal hnext hconcerns
      obtain ⟨hafter, htold⟩ := hshadow.report
      have hih : (trace (turn s o).1 ops).filterMap (Turn.seen? sender keys) =
          (trace (turn own o).1 (ops.filter (Op.concerns sender))).map (Turn.shown sender) :=
        ih hafter rfl hglobal' hrest hops
      have hsight : (turn s o).2.seen? sender keys = some ((turn own o).2.shown sender) := by
        have htold' : ownFates sender keys (turn s o).2.fates = (turn own o).2.fates := htold.symm
        have hop : (turn s o).2.op.concerns sender = true := hconcerns
        simp only [Turn.seen?, Turn.shown, htold', hop, Bool.true_or, if_true]
        by_cases hon : o.isOn sender = true
        · simp [turn, hon, hanswer hon]
        · simp [turn, hon]
      rw [List.filter_cons_of_pos hconcerns, trace, trace, List.filterMap_cons, hsight, List.map_cons, hih]
    · rw [Bool.not_eq_true] at hconcerns
      have hshadow := h.act_other hnext hconcerns ho
      have hnothing : own.fates = [] := by rw [h.fates, hquiet]; rfl
      obtain ⟨hafter, htold⟩ := hshadow.report
      rw [report_of_quiet hnothing] at hafter htold
      have hih := ih (s := (turn s o).1) hafter rfl hglobal' hrest hops
      have hsight : (turn s o).2.seen? sender keys = none := by
        simp [Turn.seen?, turn, hconcerns, ← htold]
      rw [List.filter_cons_of_neg (by simp [hconcerns]), trace, List.filterMap_cons, hsight, hih]

theorem shadow_start (q : Quorum) (limits : Limits) (sender : String) (keys : List RequestKey) :
    Shadow sender keys (.start q limits) (.start q limits) :=
  ⟨rfl, rfl, rfl, rfl, rfl, rfl, fun _ he => absurd he List.not_mem_nil⟩

/-- **What a sender sees of a run is a run of its own**, of the operations that concern it, as if there were no other -/
theorem view_eq (q : Quorum) {limits : Limits} (hglobal : limits.global = 0) (sender : String) {ops : List Op}
    (hstays : ∀ o ∈ ops, o.isDrop = false) :
    view q limits sender ops =
      (trace (.start q limits) (ops.filter (Op.concerns sender))).map (Turn.shown sender) :=
  seen_trace (shadow_start q limits sender _) rfl hglobal rfl hstays

end Runs

end QuorumGateway.Simulation.Isolation
