import Mathlib.Tactic
import QuorumGateway.FanOut
/-!
The race behind a fan-out. Each member has a task of its own, which sends the message when it is polled for the first
time and then waits for whatever comes first: the end of the send, the time limit or the cancellation. Tasks are polled
in any order and any number of times, and where several things have come at once chance decides which of them a poll
looks at first. Time passes only when no task has anything left to do, as it does under a runtime that wakes each task
for what it waits for.

- `run_inv`: however the tasks are polled and whenever the caller cancels, each member is sent the message at most once,
  at its own address, and its task ends with the send, the limit or the cancellation (`Ending`), at the instant of
  whatever came first.
- `returned_of_late`: so no task is left once the limit or the cancellation has passed.
- `returned_of_rounds`: and all tasks come to their ends if each is polled in every instant.
-/

namespace QuorumGateway.FanOut

/-- what the sends do, each left to itself: by the place of the member in the configuration, the address that is passed,
and whether the caller had cancelled when the send began -/
abbrev Network := Nat → String → Bool → Attempt

/-- whether a send left to itself has ended at an instant -/
def Attempt.endsBy (a : Attempt) (instant : Nat) : Bool := a.span.any fun span => span ≤ instant

theorem Attempt.endsBy_iff {a : Attempt} {instant : Nat} :
    a.endsBy instant = true ↔ ∃ span ∈ a.span, span ≤ instant := by
  simp [endsBy, Option.any_eq_true]

theorem Attempt.not_endsBy_iff {a : Attempt} {instant : Nat} :
    a.endsBy instant = false ↔ ∀ span ∈ a.span, instant < span := by
  rw [← Bool.not_eq_true, endsBy_iff]
  simp

/-- how far the task of a member has come -/
inductive Stage where
  | idle
  | sending (a : Attempt)
  | done (span : Nat) (error : Option String)

/-- what a poll of a task that sends makes of it; the send and the cancellation are looked at in either order -/
def look (limit now : Nat) (fired sendFirst : Bool) (a : Attempt) : Stage :=
  if fired && !sendFirst then .done now (some cancelled)
  else if a.endsBy now then .done now a.error
  else if limit ≤ now then .done now (some (timedOut limit))
  else if fired then .done now (some cancelled)
  else .sending a

/-- whether a task has nothing to do at an instant -/
def Stage.rests (limit now : Nat) (fired : Bool) : Stage → Bool
  | .idle => false
  | .sending a => !fired && !a.endsBy now && decide (now < limit)
  | .done _ _ => true

/-- how a task went, once it is done -/
def Stage.leg? (address : String) : Stage → Option Leg
  | .done span error => some ⟨address, span, error⟩
  | _ => none

/-- a send that a task has begun: the place of its member, the address, and whether the caller had cancelled before -/
structure Call where
  position : Nat
  address : String
  late : Bool

/-- a fan-out on its way: the time since its start, when the caller cancelled, how far the tasks have come, and the
sends begun so far -/
structure Race where
  now : Nat
  cancelledAt : Option Nat
  stages : Nat → Stage
  calls : List Call

namespace Race

/-- a fan-out at its start; the caller may have cancelled before -/
def start (before : Bool) : Race := ⟨0, if before then some 0 else none, fun _ => .idle, []⟩

inductive Event where
  | cancel
  | poll (position : Nat) (sendFirst : Bool)
  | tick

def fired (s : Race) : Bool := s.cancelledAt.isSome

/-- whether no task has anything to do -/
def rested (limit : Nat) (members : List Member) (s : Race) : Bool :=
  (List.range members.length).all fun i => (s.stages i).rests limit s.now s.fired

def step (net : Network) (limit : Nat) (members : List Member) (s : Race) : Event → Race
  | .cancel => { s with cancelledAt := s.cancelledAt.or (some s.now) }
  | .poll i sendFirst =>
    match members[i]?, s.stages i with
    | some m, .idle =>
      { s with
        stages := Function.update s.stages i (look limit s.now s.fired sendFirst (net i m.address s.fired))
        calls := s.calls ++ [⟨i, m.address, s.fired⟩] }
    | some _, .sending a => { s with stages := Function.update s.stages i (look limit s.now s.fired sendFirst a) }
    | _, _ => s
  | .tick => if s.rested limit members then { s with now := s.now + 1 } else s

def run (net : Network) (limit : Nat) (members : List Member) (s : Race) (es : List Event) : Race :=
  es.foldl (step net limit members) s

/-- all tasks are done, and the fan-out returns -/
def Returned (members : List Member) (s : Race) : Prop :=
  ∀ i < members.length, ∃ span error, s.stages i = .done span error

/-- how the tasks that are done went, in the order of the configuration -/
def legs (members : List Member) (s : Race) : List Leg :=
  members.zipIdx.filterMap fun p => (s.stages p.2).leg? p.1.address

/-- whether the caller had cancelled when the send to a member began -/
def late (s : Race) (i : Nat) : Bool := s.calls.any fun call => decide (call.position = i) && call.late

end Race

/-! ## How a task ends -/

/-- what a task ends with, and when: with its send, with the time limit or with the cancellation, whichever comes first;
of what comes at the same instant either may be first, but a send that ends at the limit is taken as ended -/
inductive Ending (limit : Nat) (cancelledAt : Option Nat) (a : Attempt) : Nat → Option String → Prop
  | sent {span : Nat} (hspan : span ∈ a.span) (hlimit : span ≤ limit) (hcancel : ∀ c ∈ cancelledAt, span ≤ c) :
    Ending limit cancelledAt a span a.error
  | timedOut (hspan : ∀ span ∈ a.span, limit < span) (hcancel : ∀ c ∈ cancelledAt, limit ≤ c) :
    Ending limit cancelledAt a limit (some (timedOut limit))
  | cancelled {c : Nat} (hc : c ∈ cancelledAt) (hspan : ∀ span ∈ a.span, c ≤ span) (hlimit : c ≤ limit) :
    Ending limit cancelledAt a c (some cancelled)

/-- nothing that the task of a send waits for has passed -/
structure OnTime (limit now : Nat) (cancelledAt : Option Nat) (a : Attempt) : Prop where
  span : ∀ span ∈ a.span, now ≤ span
  limit : now ≤ limit
  cancel : ∀ c ∈ cancelledAt, c = now

variable {limit now : Nat} {cancelledAt : Option Nat} {a : Attempt}

/-- as long as nothing has passed, a poll leaves a task as it is or ends it, with what has just come -/
theorem look_cases (h : OnTime limit now cancelledAt a) (sendFirst : Bool) :
    look limit now cancelledAt.isSome sendFirst a = .sending a ∨
      ∃ error, look limit now cancelledAt.isSome sendFirst a = .done now error ∧
        Ending limit cancelledAt a now error := by
  have hcancelled : cancelledAt.isSome = true → Ending limit cancelledAt a now (some cancelled) := by
    intro hfired
    obtain ⟨c, hc⟩ := Option.isSome_iff_exists.1 hfired
    obtain rfl : c = now := h.cancel c hc
    exact .cancelled hc h.span h.limit
  unfold look
  split_ifs with hfirst hends hlimit hfired
  · exact .inr ⟨_, rfl, hcancelled (Bool.and_eq_true_iff.1 hfirst).1⟩
  · obtain ⟨span, hspan, hle⟩ := Attempt.endsBy_iff.1 hends
    obtain rfl : span = now := Nat.le_antisymm hle (h.span span hspan)
    exact .inr ⟨_, rfl, .sent hspan h.limit fun c hc => (h.cancel c hc).ge⟩
  · obtain rfl : limit = now := Nat.le_antisymm hlimit h.limit
    have hlate := Attempt.not_endsBy_iff.1 (Bool.eq_false_iff.2 hends)
    exact .inr ⟨_, rfl, .timedOut hlate fun c hc => (h.cancel c hc).ge⟩
  · exact .inr ⟨_, rfl, hcancelled hfired⟩
  · exact .inl rfl

/-- a poll leaves a task nothing to do -/
theorem rests_look (limit now : Nat) (fired sendFirst : Bool) (a : Attempt) :
    (look limit now fired sendFirst a).rests limit now fired = true := by
  unfold look
  split_ifs <;> simp_all [Stage.rests]

/-- a task that has ended has ended as it would have with a cancellation from now on -/
theorem Ending.fire {span : Nat} {error : Option String} (h : Ending limit none a span error) (hpast : span ≤ now) :
    Ending limit (some now) a span error := by
  have hnow : ∀ c ∈ some now, span ≤ c := by
    rintro c ⟨⟩
    exact hpast
  cases h with
  | sent hspan hlimit => exact .sent hspan hlimit hnow
  | timedOut hspan => exact .timedOut hspan hnow
  | cancelled hc => cases hc

namespace Race

variable {net : Network} {members : List Member} {before : Bool} {s s' : Race} {i j : Nat} {address : String}
  {stage : Stage}

/-! ## The invariant -/

/-- how far the task of a member can have come -/
inductive Course (net : Network) (limit : Nat) (s : Race) (i : Nat) (address : String) : Stage → Prop
  | idle (hstart : s.now = 0) (hnone : ∀ call ∈ s.calls, call.position ≠ i) : Course net limit s i address .idle
  | sending {late : Bool} (hcall : ⟨i, address, late⟩ ∈ s.calls)
      (htime : OnTime limit s.now s.cancelledAt (net i address late)) :
    Course net limit s i address (.sending (net i address late))
  | done {late : Bool} {span : Nat} {error : Option String} (hcall : ⟨i, address, late⟩ ∈ s.calls)
      (hending : Ending limit s.cancelledAt (net i address late) span error) (hpast : span ≤ s.now) :
    Course net limit s i address (.done span error)

structure Inv (net : Network) (limit : Nat) (before : Bool) (members : List Member) (s : Race) : Prop where
  course : ∀ i m, members[i]? = some m → Course net limit s i m.address (s.stages i)
  once : (s.calls.map Call.position).Nodup
  addressed : ∀ call ∈ s.calls, ∃ m, members[call.position]? = some m ∧ call.address = m.address
  clock : ∀ c ∈ s.cancelledAt, c ≤ s.now
  /-- all sends begin at the start, so the caller had cancelled by then if it had cancelled before one of them -/
  late : ∀ call ∈ s.calls, call.late = true → s.cancelledAt = some 0
  before : before = true → s.cancelledAt = some 0 ∧ ∀ call ∈ s.calls, call.late = true

theorem inv_start (net : Network) (limit : Nat) (before : Bool) (members : List Member) :
    Inv net limit before members (start before) := by
  have hnone : ∀ {P : Call → Prop}, ∀ call ∈ (start before).calls, P call := fun _ h => absurd h List.not_mem_nil
  refine ⟨fun _ _ _ => .idle rfl hnone, List.nodup_nil, hnone, fun c hc => ?_, hnone, fun h => ⟨?_, hnone⟩⟩
  · rw [start, Option.mem_def] at hc
    split_ifs at hc
    cases hc
    exact le_rfl
  · rw [start, h]
    rfl

/-! ### Steps keep the invariant -/

/-- what a poll does: it begins a send, or looks after one, or finds a task done -/
theorem poll_cases (net : Network) (limit : Nat) (members : List Member) (s : Race) (i : Nat) (sendFirst : Bool) :
    (∃ m, members[i]? = some m ∧ s.stages i = .idle ∧ step net limit members s (.poll i sendFirst) =
      { s with
        stages := Function.update s.stages i (look limit s.now s.fired sendFirst (net i m.address s.fired))
        calls := s.calls ++ [⟨i, m.address, s.fired⟩] }) ∨
    (∃ m a, members[i]? = some m ∧ s.stages i = .sending a ∧ step net limit members s (.poll i sendFirst) =
      { s with stages := Function.update s.stages i (look limit s.now s.fired sendFirst a) }) ∨
    ((i < members.length → ∃ span error, s.stages i = .done span error) ∧
      step net limit members s (.poll i sendFirst) = s) := by
  simp only [step]
  cases hm : members[i]? with
  | none => exact .inr (.inr ⟨fun hi => absurd (List.getElem?_eq_none_iff.1 hm) (Nat.not_le.2 hi), rfl⟩)
  | some m =>
    cases s.stages i with
    | idle => exact .inl ⟨m, rfl, rfl, rfl⟩
    | sending a => exact .inr (.inl ⟨m, a, rfl, rfl, rfl⟩)
    | done span error => exact .inr (.inr ⟨fun _ => ⟨span, error, rfl⟩, rfl⟩)

/-- a poll takes no time, and does not cancel -/
theorem poll_keeps (net : Network) (limit : Nat) (members : List Member) (s : Race) (i : Nat) (sendFirst : Bool) :
    (step net limit members s (.poll i sendFirst)).now = s.now ∧
      (step net limit members s (.poll i sendFirst)).cancelledAt = s.cancelledAt := by
  rcases poll_cases net limit members s i sendFirst with ⟨m, -, -, heq⟩ | ⟨m, a, -, -, heq⟩ | ⟨-, heq⟩ <;> rw [heq] <;>
    exact ⟨rfl, rfl⟩

/-- a task goes on as before while the sends of other members begin -/
theorem Course.grow (h : Course net limit s i address stage) {calls : List Call} (hgrow : s.calls ⊆ calls)
    (hothers : ∀ call ∈ calls, call ∈ s.calls ∨ call.position ≠ i) {stages : Nat → Stage} :
    Course net limit { s with stages, calls } i address stage := by
  cases h with
  | idle hstart hnone => exact .idle hstart fun call hcall => (hothers call hcall).elim (hnone call) id
  | sending hcall htime => exact .sending (hgrow hcall) htime
  | done hcall hending hpast => exact .done (hgrow hcall) hending hpast

/-- a task whose send has begun, after a poll -/
theorem course_look {late : Bool} (hcall : ⟨i, address, late⟩ ∈ s.calls)
    (htime : OnTime limit s.now s.cancelledAt (net i address late)) (sendFirst : Bool) (stages : Nat → Stage) :
    Course net limit { s with stages } i address (look limit s.now s.fired sendFirst (net i address late)) := by
  rcases look_cases htime sendFirst with hlook | ⟨error, hlook, hending⟩ <;> rw [fired, hlook]
  · exact .sending hcall htime
  · exact .done hcall hending le_rfl

/-- nothing has passed at the start -/
theorem Inv.onTime (h : Inv net limit before members s) (hstart : s.now = 0) (a : Attempt) :
    OnTime limit s.now s.cancelledAt a := by
  rw [hstart]
  exact ⟨fun _ _ => Nat.zero_le _, Nat.zero_le _, fun c hc => Nat.le_zero.1 (hstart ▸ h.clock c hc)⟩

/-- the send of a task begins -/
theorem Inv.begin (h : Inv net limit before members s) {m : Member} (hm : members[i]? = some m)
    (hidle : s.stages i = .idle) (sendFirst : Bool) : Inv net limit before members
      { s with
        stages := Function.update s.stages i (look limit s.now s.fired sendFirst (net i m.address s.fired))
        calls := s.calls ++ [⟨i, m.address, s.fired⟩] } := by
  have hcourse := h.course i m hm
  rw [hidle] at hcourse
  obtain ⟨hstart, hnone⟩ := hcourse
  set call : Call := ⟨i, m.address, s.fired⟩
  have hnew : ∀ {P : Call → Prop}, (∀ call' ∈ s.calls, P call') → P call → ∀ call' ∈ s.calls ++ [call], P call' := by
    intro P hold hlast call' hcall
    rcases List.mem_append.1 hcall with hcall | hcall
    · exact hold call' hcall
    · exact List.mem_singleton.1 hcall ▸ hlast
  have hlate : call.late = true → s.cancelledAt = some 0 := by
    intro hlate
    obtain ⟨c, hc⟩ := Option.isSome_iff_exists.1 hlate
    have hzero : c = s.now := (h.onTime hstart ⟨none, none⟩).cancel c hc
    exact hc.trans (by rw [hzero, hstart])
  have hbefore : before = true → call.late = true := by
    intro hbefore
    show s.cancelledAt.isSome = true
    rw [(h.before hbefore).1]
    rfl
  refine ⟨fun j m' hm' => ?_, ?_, hnew h.addressed ⟨m, hm, rfl⟩, h.clock, hnew h.late hlate,
    fun hb => ⟨(h.before hb).1, hnew (h.before hb).2 (hbefore hb)⟩⟩
  · simp only [Function.update_apply]
    split_ifs with hji
    · subst hji
      obtain rfl : m = m' := Option.some.inj (hm.symm.trans hm')
      exact course_look (s := { s with calls := s.calls ++ [call] }) (by simp [call]) (h.onTime hstart _) sendFirst _
    · exact (h.course j m' hm').grow (List.subset_append_left _ _)
        (hnew (fun call' hcall => .inl hcall) (.inr (Ne.symm hji)))
  · rw [List.map_append, List.map_singleton, List.nodup_append]
    refine ⟨h.once, List.nodup_singleton _, fun p hp p' hp' => ?_⟩
    obtain ⟨call', hcall, rfl⟩ := List.mem_map.1 hp
    rw [List.mem_singleton.1 hp']
    exact hnone call' hcall

/-- a task that sends is polled -/
theorem Inv.look (h : Inv net limit before members s) {m : Member} (hm : members[i]? = some m) {a : Attempt}
    (hsending : s.stages i = .sending a) (sendFirst : Bool) : Inv net limit before members
      { s with stages := Function.update s.stages i (FanOut.look limit s.now s.fired sendFirst a) } := by
  refine ⟨fun j m' hm' => ?_, h.once, h.addressed, h.clock, h.late, h.before⟩
  simp only [Function.update_apply]
  split_ifs with hji
  · subst hji
    obtain rfl : m = m' := Option.some.inj (hm.symm.trans hm')
    have hcourse := h.course j m hm
    rw [hsending] at hcourse
    cases hcourse with
    | sending hcall htime => exact course_look hcall htime sendFirst _
  · exact (h.course j m' hm').grow (List.Subset.refl _) fun _ hcall => .inl hcall

theorem inv_poll (h : Inv net limit before members s) (i : Nat) (sendFirst : Bool) :
    Inv net limit before members (step net limit members s (.poll i sendFirst)) := by
  rcases poll_cases net limit members s i sendFirst with ⟨m, hm, hidle, heq⟩ | ⟨m, a, hm, hsending, heq⟩ | ⟨-, heq⟩ <;>
    rw [heq]
  · exact h.begin hm hidle sendFirst
  · exact h.look hm hsending sendFirst
  · exact h

theorem inv_cancel (h : Inv net limit before members s) :
    Inv net limit before members (step net limit members s .cancel) := by
  cases hnone : s.cancelledAt with
  | some c =>
    have hsame : step net limit members s .cancel = s := by
      simp only [step, hnone, Option.some_or]
      rw [← hnone]
    rwa [hsame]
  | none =>
    have hstep : step net limit members s .cancel = { s with cancelledAt := some s.now } := by simp [step, hnone]
    rw [hstep]
    refine ⟨fun i m hm => ?_, h.once, h.addressed, by rintro c ⟨⟩; exact le_rfl,
      fun call hcall hlate => ?_, fun hbefore => ?_⟩
    · have hcourse := h.course i m hm
      simp only
      generalize s.stages i = stage at hcourse ⊢
      cases hcourse with
      | idle hstart hnone => exact .idle hstart hnone
      | sending hcall htime => exact .sending hcall ⟨htime.span, htime.limit, by rintro c ⟨⟩; rfl⟩
      | done hcall hending hpast =>
        rw [hnone] at hending
        exact .done hcall (hending.fire hpast) hpast
    · exact absurd (hnone.symm.trans (h.late call hcall hlate)) (by simp)
    · exact absurd (hnone.symm.trans (h.before hbefore).1) (by simp)

/-- time passes for a task that rests -/
theorem Course.tick (h : Course net limit s i address stage) (hrests : stage.rests limit s.now s.fired = true) :
    Course net limit { s with now := s.now + 1 } i address stage := by
  cases h with
  | idle => exact absurd hrests (by simp [Stage.rests])
  | sending hcall htime =>
    simp only [Stage.rests, fired, Bool.and_eq_true, Bool.not_eq_true', decide_eq_true_eq,
      Option.isSome_eq_false_iff, Option.isNone_iff_eq_none] at hrests
    obtain ⟨⟨hquiet, hends⟩, hlimit⟩ := hrests
    exact .sending hcall ⟨Attempt.not_endsBy_iff.1 hends, hlimit, fun c hc => by simp [hquiet] at hc⟩
  | done hcall hending hpast => exact .done hcall hending (Nat.le_succ_of_le hpast)

theorem rested_iff :
    s.rested limit members = true ↔ ∀ i < members.length, (s.stages i).rests limit s.now s.fired = true := by
  simp [rested]

theorem inv_tick (h : Inv net limit before members s) :
    Inv net limit before members (step net limit members s .tick) := by
  simp only [step]
  split_ifs with hrested
  · refine ⟨fun i m hm => ?_, h.once, h.addressed, fun c hc => (h.clock c hc).trans (Nat.le_succ _), h.late, h.before⟩
    exact (h.course i m hm).tick (rested_iff.1 hrested i (List.getElem?_eq_some_iff.1 hm).1)
  · exact h

theorem step_inv (h : Inv net limit before members s) (e : Event) :
    Inv net limit before members (step net limit members s e) := by
  cases e with
  | cancel => exact inv_cancel h
  | poll i sendFirst => exact inv_poll h i sendFirst
  | tick => exact inv_tick h

/-- **However the tasks are polled and whenever the caller cancels, the race is orderly.** -/
theorem run_inv (h : Inv net limit before members s) (es : List Event) :
    Inv net limit before members (run net limit members s es) := by
  induction es generalizing s with
  | nil => exact h
  | cons e es ih => exact ih (step_inv h e)

/-- once the limit or the cancellation has passed, all tasks are done -/
theorem returned_of_late (h : Inv net limit before members s)
    (hlate : limit < s.now ∨ ∃ c ∈ s.cancelledAt, c < s.now) : s.Returned members := by
  intro i hi
  have hcourse := h.course i members[i] (List.getElem?_eq_getElem hi)
  generalize s.stages i = stage at hcourse ⊢
  cases hcourse with
  | idle hstart => omega
  | sending hcall htime =>
    rcases hlate with hlimit | ⟨c, hc, hcancel⟩
    · have := htime.limit
      omega
    · have := htime.cancel c hc
      omega
  | done => exact ⟨_, _, rfl⟩

/-! ## Coming to an end -/

theorem run_append (net : Network) (limit : Nat) (members : List Member) (s : Race) (es es' : List Event) :
    run net limit members s (es ++ es') = run net limit members (run net limit members s es) es' := List.foldl_append

/-- a cancellation stays -/
theorem fired_step (h : s.fired = true) (e : Event) : (step net limit members s e).fired = true := by
  cases e with
  | cancel => simp [step, fired]
  | poll i sendFirst => rwa [fired, (poll_keeps net limit members s i sendFirst).2]
  | tick =>
    simp only [step]
    split_ifs <;> exact h

theorem fired_run (h : s.fired = true) (es : List Event) : (run net limit members s es).fired = true := by
  induction es generalizing s with
  | nil => exact h
  | cons e es ih => exact ih (fired_step h e)

/-- what is done stays done -/
theorem returned_step (h : s.Returned members) (e : Event) : (step net limit members s e).Returned members := by
  cases e with
  | cancel => exact h
  | poll i sendFirst =>
    rcases poll_cases net limit members s i sendFirst with ⟨m, hm, hidle, -⟩ | ⟨m, a, hm, hsending, -⟩ | ⟨-, heq⟩
    · obtain ⟨span, error, hdone⟩ := h i (List.getElem?_eq_some_iff.1 hm).1
      exact absurd (hidle.symm.trans hdone) (by simp)
    · obtain ⟨span, error, hdone⟩ := h i (List.getElem?_eq_some_iff.1 hm).1
      exact absurd (hsending.symm.trans hdone) (by simp)
    · rwa [heq]
  | tick =>
    simp only [step]
    split_ifs <;> exact h

theorem returned_run (h : s.Returned members) (es : List Event) : (run net limit members s es).Returned members := by
  induction es generalizing s with
  | nil => exact h
  | cons e es ih => exact ih (returned_step h e)

/-- the task at a place, if there is one, has nothing to do -/
def RestsAt (limit : Nat) (members : List Member) (s : Race) (i : Nat) : Prop :=
  i < members.length → (s.stages i).rests limit s.now s.fired = true

theorem restsAt_poll (net : Network) (limit : Nat) (members : List Member) (s : Race) (i : Nat) (sendFirst : Bool) :
    RestsAt limit members (step net limit members s (.poll i sendFirst)) i := by
  intro hi
  rcases poll_cases net limit members s i sendFirst with ⟨m, -, -, heq⟩ | ⟨m, a, -, -, heq⟩ | ⟨hdone, heq⟩ <;> rw [heq]
  · simp only [Function.update_self]
    exact rests_look _ _ _ _ _
  · simp only [Function.update_self]
    exact rests_look _ _ _ _ _
  · obtain ⟨span, error, hstage⟩ := hdone hi
    rw [hstage]
    rfl

/-- as long as no time passes and the caller does not cancel, a task that has nothing to do still has nothing to do -/
theorem RestsAt.step (h : RestsAt limit members s i) {e : Event} (htick : e ≠ .tick)
    (hquiet : (Race.step net limit members s e).fired = s.fired) :
    RestsAt limit members (Race.step net limit members s e) i := by
  cases e with
  | cancel =>
    intro hi
    rw [hquiet]
    exact h hi
  | poll j sendFirst =>
    by_cases hij : i = j
    · subst hij
      exact restsAt_poll net limit members s i sendFirst
    · intro hi
      rcases poll_cases net limit members s j sendFirst with ⟨m, -, -, heq⟩ | ⟨m, a, -, -, heq⟩ | ⟨-, heq⟩ <;> rw [heq]
      · simp only [Function.update_of_ne hij]
        exact h hi
      · simp only [Function.update_of_ne hij]
        exact h hi
      · exact h hi
  | tick => exact absurd rfl htick

/-- the events of one instant, in which each task is polled; the caller may cancel between the polls -/
structure Round (members : List Member) (es : List Event) : Prop where
  everyone : ∀ i < members.length, ∃ sendFirst, .poll i sendFirst ∈ es
  instant : .tick ∉ es

theorem now_step {e : Event} (htick : e ≠ .tick) : (step net limit members s e).now = s.now := by
  cases e with
  | cancel => rfl
  | poll i sendFirst => exact (poll_keeps net limit members s i sendFirst).1
  | tick => exact absurd rfl htick

theorem now_run {es : List Event} (htick : .tick ∉ es) : (run net limit members s es).now = s.now := by
  induction es generalizing s with
  | nil => rfl
  | cons e es ih =>
    rw [List.mem_cons, not_or] at htick
    exact (ih htick.2).trans (now_step (Ne.symm htick.1))

/-- a task that is polled in the course of some events has nothing to do after them, unless the caller cancels
meanwhile -/
theorem restsAt_run {es : List Event} (htick : .tick ∉ es) (hquiet : (run net limit members s es).fired = s.fired)
    (h : RestsAt limit members s i ∨ ∃ sendFirst, .poll i sendFirst ∈ es) :
    RestsAt limit members (run net limit members s es) i := by
  induction es generalizing s with
  | nil => exact h.resolve_right (by simp)
  | cons e es ih =>
    rw [List.mem_cons, not_or] at htick
    have hsame : (step net limit members s e).fired = s.fired := by
      cases hfired : s.fired with
      | true => exact fired_step hfired e
      | false =>
        rw [hfired] at hquiet
        exact Bool.eq_false_iff.2 fun hnow => Bool.eq_false_iff.1 hquiet (fired_run hnow es)
    refine ih htick.2 (hquiet.trans hsame.symm) ?_
    rcases h with h | ⟨sendFirst, hmem⟩
    · exact .inl (h.step (Ne.symm htick.1) hsame)
    · rcases List.mem_cons.1 hmem with rfl | hmem
      · exact .inl (restsAt_poll net limit members s i sendFirst)
      · exact .inr ⟨sendFirst, hmem⟩

/-- after a round in which the caller does not cancel, no task has anything to do -/
theorem rested_of_round {es : List Event} (hround : Round members es)
    (hquiet : (run net limit members s es).fired = s.fired) :
    (run net limit members s es).rested limit members = true :=
  rested_iff.2 fun i hi => restsAt_run hround.instant hquiet (.inr (hround.everyone i hi)) hi

/-- a task that has nothing to do after a cancellation is done -/
theorem returned_of_rested (hrested : s.rested limit members = true) (hfired : s.fired = true) :
    s.Returned members := by
  intro i hi
  have hrests := rested_iff.1 hrested i hi
  rw [hfired] at hrests
  cases hstage : s.stages i <;> simp_all [Stage.rests]

/-- how many more rounds a fan-out can take: one for each instant up to the limit, one to notice the limit, and one to
notice a cancellation -/
def left (limit : Nat) (s : Race) : Nat := if s.fired then 1 else limit + 2 - s.now

/-- a round brings a fan-out nearer to its end -/
theorem left_round (h : Inv net limit before members s) {es : List Event} (hround : Round members es) :
    (run net limit members s (es ++ [.tick])).Returned members ∨
      left limit (run net limit members s (es ++ [.tick])) < left limit s := by
  by_cases hreturned : s.Returned members
  · exact .inl (returned_run hreturned _)
  have hroom : s.now ≤ limit := by
    by_contra hlate
    exact hreturned (returned_of_late h (.inl (Nat.lt_of_not_le hlate)))
  have hrun : run net limit members s (es ++ [.tick]) = step net limit members (run net limit members s es) .tick :=
    run_append _ _ _ _ _ _
  rw [hrun]
  cases hfired : s.fired with
  | true =>
    have hnow : (run net limit members s es).fired = true := fired_run hfired es
    exact .inl (returned_step (returned_of_rested (rested_of_round hround (hnow.trans hfired.symm)) hnow) .tick)
  | false =>
    refine .inr ?_
    cases hnow : (run net limit members s es).fired with
    | true =>
      rw [left, left, fired_step hnow, hfired, if_pos rfl, if_neg Bool.false_ne_true]
      omega
    | false =>
      have hrested := rested_of_round hround (hnow.trans hfired.symm)
      have hclock : (run net limit members s es).now = s.now := now_run hround.instant
      have hstill : (step net limit members (run net limit members s es) .tick).fired = false := by
        rw [step, if_pos hrested]
        exact hnow
      have htick : (step net limit members (run net limit members s es) .tick).now = s.now + 1 := by
        rw [step, if_pos hrested, ← hclock]
      rw [left, left, hstill, hfired, htick, if_neg Bool.false_ne_true, if_neg Bool.false_ne_true]
      omega

/-- **A fan-out comes to its end.** From whatever it has come to, if each task is polled in every instant, all tasks are
done by the end of the limit. -/
theorem returned_of_rounds (h : Inv net limit before members s) {rounds : List (List Event)}
    (hrounds : ∀ es ∈ rounds, Round members es) (hlong : left limit s ≤ rounds.length) :
    (run net limit members s (rounds.flatMap fun es => es ++ [.tick])).Returned members := by
  induction rounds generalizing s with
  | nil =>
    have hlate : limit < s.now := by
      rw [left, List.length_nil] at hlong
      split_ifs at hlong <;> omega
    exact returned_of_late h (.inl hlate)
  | cons es rounds ih =>
    rw [List.flatMap_cons, run_append]
    rcases left_round h (hrounds es List.mem_cons_self) with hreturned | hless
    · exact returned_run hreturned _
    · refine ih (run_inv h _) (fun es' hes' => hrounds es' (List.mem_cons_of_mem _ hes')) ?_
      rw [List.length_cons] at hlong
      omega

end Race

end QuorumGateway.FanOut
