import Mathlib.Data.Finset.Card
import Mathlib.Tactic
import QuorumGateway.Simulation.Allowlist
/-!
An allow-list that is fetched by many at once. Any number of calls fetch it on request, each under a time limit of its
own, while repeated refreshes take their turns; their fetches are under way at the same time and end in any order, late
or on time. In between the source changes, in what it lists and in how it answers, and refreshes are told to end.

- `step_effect`: a step puts an answer on the list, or leaves the list as it was.
- `snapshot_integrity`: in every run, the list holds what the last answer named, and nobody before there was one; a call
  returns a size exactly when it has put an answer on the list.
- `Simulated.site`: what an allow-list on the virtual clock comes to, it comes to in such a run.
-/

namespace QuorumGateway.Allowlist

open Simulation (AllowlistClock)

/-! ## Runs -/

/-- who waits for a fetch: a call, by its number, or a repeated refresh -/
inductive Caller where
  | call (id : Nat)
  | refresh
deriving DecidableEq, Repr

/-- what can be seen of an allow-list: how its fetches end, and what calls return -/
inductive Event where
  | answered (who : Caller) (senders : List Address)
  | failed (who : Caller) (failure : Failure)
  /-- a refresh has ended, and its fetch with it -/
  | abandoned
  | returned (id : Nat) (result : Except Failure Nat)

/-- a call whose fetch is under way -/
structure Call where
  id : Nat
  limit : Nat
  fetch : Fetch
deriving Repr

/-- an allow-list with its clock, its source and its refreshes, the calls that wait for it, and what has been seen -/
structure Site where
  clock : AllowlistClock
  calls : List Call
  trace : List Event

/-- how a fetch is seen to end -/
def Fetch.event (f : Fetch) (who : Caller) (contract : Address) (limit : Nat) (source : Source) : Event :=
  match f.ending with
  | .answered => .answered who source.senders
  | .refused => .failed who (.unavailable contract)
  | .gaveUp => .failed who (.timedOut limit)

inductive Op where
  /-- the source changes -/
  | change (source : Source)
  /-- a call starts a fetch -/
  | call (id limit : Nat)
  /-- the fetch of the call at a position ends, and the call returns -/
  | finish (i : Nat)
  | launch (period limit : Nat)
  /-- the refresh at a position does its next step: its fetch ends, or it starts one -/
  | act (i : Nat)
  /-- the refresh at a position is told to end -/
  | quit (i : Nat)
  | pass (span : Nat)
deriving Repr

namespace Site

def start (contract : Address) (confirmations : Nat) (source : Source) : Site :=
  ⟨.start contract confirmations source, [], []⟩

def call (s : Site) (id limit : Nat) : Site :=
  { s with
    clock := { s.clock with fetches := s.clock.fetches + 1 }
    calls := s.calls ++ [⟨id, limit, .start s.clock.now limit s.clock.source.manner⟩] }

def finish (s : Site) (i : Nat) : Site :=
  match s.calls[i]? with
  | none => s
  | some c =>
    let result := c.fetch.result s.clock.contract c.limit s.clock.source
    { clock := { s.clock with now := max s.clock.now c.fetch.ends, snapshot := s.clock.snapshot.after result }
      calls := s.calls.eraseIdx i
      trace := s.trace ++ [c.fetch.event (.call c.id) s.clock.contract c.limit s.clock.source,
        .returned c.id (result.map Snapshot.size)] }

def act (s : Site) (i : Nat) : Site :=
  match s.clock.refreshes[i]? with
  | none => s
  | some r =>
    { s with
      clock := s.clock.stepAt r.due i
      trace := s.trace ++
        r.fetch.toList.map fun f => f.event .refresh s.clock.contract r.limit s.clock.source }

def quit (s : Site) (i : Nat) : Site :=
  { s with
    clock := { s.clock with refreshes := s.clock.refreshes.eraseIdx i }
    trace := s.trace ++ (s.clock.refreshes[i]?.bind Refresh.fetch).toList.map fun _ => .abandoned }

def step (s : Site) : Op → Site
  | .change source => { s with clock := { s.clock with source } }
  | .call id limit => s.call id limit
  | .finish i => s.finish i
  | .launch period limit =>
    { s with clock := { s.clock with refreshes := s.clock.refreshes ++ [.start s.clock.now period limit] } }
  | .act i => s.act i
  | .quit i => s.quit i
  | .pass span => { s with clock := { s.clock with now := s.clock.now + span } }

def run (s : Site) (ops : List Op) : Site := ops.foldl step s

theorem run_append (s : Site) (a b : List Op) : s.run (a ++ b) = (s.run a).run b := List.foldl_append

theorem run_snoc (s : Site) (ops : List Op) (o : Op) : s.run (ops ++ [o]) = (s.run ops).step o := by
  simp [run, List.foldl_append]

end Site

/-! ## What one step does -/

/-- what is seen of a step, with the list before it and after it -/
inductive Effect (before : Snapshot) : List Event → Snapshot → Prop where
  /-- no fetch ends -/
  | quiet : Effect before [] before
  | abandoned : Effect before [.abandoned] before
  | refreshed (senders : List Address) : Effect before [.answered .refresh senders] (.ofFetched senders)
  | refreshFailed (failure : Failure) : Effect before [.failed .refresh failure] before
  | called (id : Nat) (senders : List Address) :
    Effect before [.answered (.call id) senders, .returned id (.ok (Snapshot.ofFetched senders).size)]
      (.ofFetched senders)
  | callFailed (id : Nat) (failure : Failure) :
    Effect before [.failed (.call id) failure, .returned id (.error failure)] before

/-- how a fetch ends is how it is seen to end -/
theorem Fetch.event_cases (f : Fetch) (who : Caller) (contract : Address) (limit : Nat) (source : Source) :
    (∃ senders, f.event who contract limit source = .answered who senders ∧
        f.result contract limit source = .ok (.ofFetched senders)) ∨
      ∃ failure, f.event who contract limit source = .failed who failure ∧
        f.result contract limit source = .error failure := by
  unfold Fetch.event Fetch.result
  cases f.ending with
  | answered => exact .inl ⟨_, rfl, rfl⟩
  | refused => exact .inr ⟨_, rfl, rfl⟩
  | gaveUp => exact .inr ⟨_, rfl, rfl⟩

theorem finish_effect (s : Site) (i : Nat) :
    ∃ es, (s.finish i).trace = s.trace ++ es ∧ Effect s.clock.snapshot es (s.finish i).clock.snapshot := by
  unfold Site.finish
  split
  · exact ⟨[], (List.append_nil _).symm, .quiet⟩
  · next c _ =>
    refine ⟨_, rfl, ?_⟩
    obtain ⟨senders, hevent, hresult⟩ | ⟨failure, hevent, hresult⟩ :=
      c.fetch.event_cases (.call c.id) s.clock.contract c.limit s.clock.source
    · simp only [hevent, hresult]
      exact .called c.id senders
    · simp only [hevent, hresult]
      exact .callFailed c.id failure

theorem act_effect (s : Site) (i : Nat) :
    ∃ es, (s.act i).trace = s.trace ++ es ∧ Effect s.clock.snapshot es (s.act i).clock.snapshot := by
  unfold Site.act
  split
  · exact ⟨[], (List.append_nil _).symm, .quiet⟩
  · next r hr =>
    refine ⟨_, rfl, ?_⟩
    simp only [AllowlistClock.stepAt, AllowlistClock.stepRefresh, hr]
    cases r.fetch with
    | none => exact .quiet
    | some f =>
      obtain ⟨senders, hevent, hresult⟩ | ⟨failure, hevent, hresult⟩ :=
        f.event_cases .refresh s.clock.contract r.limit s.clock.source
      · simp only [Option.toList_some, List.map_singleton, hevent, hresult]
        exact .refreshed senders
      · simp only [Option.toList_some, List.map_singleton, hevent, hresult]
        exact .refreshFailed failure

theorem quit_effect (s : Site) (i : Nat) :
    ∃ es, (s.quit i).trace = s.trace ++ es ∧ Effect s.clock.snapshot es (s.quit i).clock.snapshot := by
  refine ⟨_, rfl, ?_⟩
  cases s.clock.refreshes[i]?.bind Refresh.fetch with
  | none => exact .quiet
  | some f => exact .abandoned

/-- **What one step does to the list**, and that it only adds to the trace -/
theorem step_effect (s : Site) (o : Op) :
    ∃ es, (s.step o).trace = s.trace ++ es ∧ Effect s.clock.snapshot es (s.step o).clock.snapshot := by
  cases o with
  | finish i => exact finish_effect s i
  | act i => exact act_effect s i
  | quit i => exact quit_effect s i
  | _ => exact ⟨[], (List.append_nil _).symm, .quiet⟩

/-! ## Main result -/

def Event.answer? : Event → Option (List Address)
  | .answered _ senders => some senders
  | _ => none

/-- the senders that the last answer named -/
def lastAnswer (trace : List Event) : Option (List Address) := (trace.filterMap Event.answer?).getLast?

/-- an allow-list that holds what the last answer named, and nobody before there was one -/
structure Intact (s : Site) : Prop where
  unanswered : lastAnswer s.trace = none → ∀ a, s.clock.snapshot.allows a = false
  latest : ∀ senders, lastAnswer s.trace = some senders →
    (∀ a, s.clock.snapshot.allows a = true ↔ a ∈ senders) ∧ s.clock.snapshot.size = senders.toFinset.card

/-- what a step does to the list, by what is seen of the step -/
structure Careful (before after : Snapshot) (es : List Event) : Prop where
  /-- an answer is put on the list -/
  answered : ∀ who senders, .answered who senders ∈ es → after = .ofFetched senders
  /-- a fetch that has failed or timed out leaves the list as it was -/
  failed : ∀ who failure, .failed who failure ∈ es → after = before
  /-- and so does one that is abandoned -/
  abandoned : .abandoned ∈ es → after = before
  /-- and so does everything that ends no fetch -/
  quiet : es = [] → after = before
  /-- a call returns a size exactly when it has been answered, and so has put its answer on the list; the size is that
  of the list -/
  returned : ∀ id n, .returned id (.ok n) ∈ es ↔ (∃ senders, .answered (.call id) senders ∈ es) ∧ n = after.size

theorem Effect.careful {before after : Snapshot} {es : List Event} (h : Effect before es after) :
    Careful before after es := by
  cases h with
  | quiet => constructor <;> simp
  | abandoned => constructor <;> simp
  | refreshed senders => constructor <;> simp
  | refreshFailed failure => constructor <;> simp
  | called id senders =>
    refine ⟨by simp, by simp, by simp, by simp, fun id' n => ?_⟩
    simp only [List.mem_cons, reduceCtorEq, Event.returned.injEq, Except.ok.injEq, Event.answered.injEq,
      Caller.call.injEq, List.not_mem_nil, or_false, false_or]
    exact ⟨fun ⟨hid, hn⟩ => ⟨⟨senders, hid, rfl⟩, hn⟩, fun ⟨⟨_, hid, _⟩, hn⟩ => ⟨hid, hn⟩⟩
  | callFailed id failure => constructor <;> simp

theorem size_ofFetched (senders : List Address) : (Snapshot.ofFetched senders).size = senders.toFinset.card := by
  have hsame : (distinct senders).toFinset = senders.toFinset := by
    ext a
    rw [List.mem_toFinset, List.mem_toFinset, mem_distinct]
  rw [← hsame, List.toFinset_card_of_nodup (nodup_distinct senders)]
  rfl

/-- the list of the last answer, or the empty one -/
def upToDate (trace : List Event) : Snapshot := ((lastAnswer trace).map Snapshot.ofFetched).getD .empty

theorem lastAnswer_append (trace es : List Event) :
    lastAnswer (trace ++ es) = (lastAnswer es).or (lastAnswer trace) := by
  rw [lastAnswer, List.filterMap_append, List.getLast?_append]
  rfl

theorem Effect.upToDate {es : List Event} {after : Snapshot} {trace : List Event}
    (h : Effect (upToDate trace) es after) : after = Allowlist.upToDate (trace ++ es) := by
  rw [Allowlist.upToDate, lastAnswer_append]
  cases h <;> rfl

theorem snapshot_run (contract : Address) (confirmations : Nat) (source : Source) (ops : List Op) :
    ((Site.start contract confirmations source).run ops).clock.snapshot =
      upToDate ((Site.start contract confirmations source).run ops).trace := by
  induction ops using List.reverseRecOn with
  | nil => rfl
  | append_singleton ops o ih =>
    rw [Site.run_snoc]
    obtain ⟨es, htrace, heffect⟩ := step_effect ((Site.start contract confirmations source).run ops) o
    rw [ih] at heffect
    rw [htrace]
    exact heffect.upToDate

/-- **The list is the last answer.** In every run of an allow-list, with any calls and refreshes at work at one time and
any behaviour of the source for each fetch, nobody is on the list before a fetch has been answered, and from then on
those and only those are whom the last answer named. A fetch that fails, times out or is abandoned changes nothing, and
a call returns a size exactly when it has put its answer on the list. -/
theorem snapshot_integrity (contract : Address) (confirmations : Nat) (source : Source) (ops : List Op) (o : Op) :
    let s := (Site.start contract confirmations source).run ops
    Intact s ∧ ∃ es, (s.step o).trace = s.trace ++ es ∧ Careful s.clock.snapshot (s.step o).clock.snapshot es := by
  intro s
  have hsnapshot : s.clock.snapshot = upToDate s.trace := snapshot_run contract confirmations source ops
  constructor
  · constructor
    · intro hnone a
      rw [hsnapshot, upToDate, hnone]
      rfl
    · intro senders hlast
      rw [hsnapshot, upToDate, hlast]
      exact ⟨fun a => Snapshot.allows_ofFetched, size_ofFetched senders⟩
  · obtain ⟨es, htrace, heffect⟩ := step_effect s o
    exact ⟨es, htrace, heffect.careful⟩

/-! ## Overtaking -/

/-- two calls fetch the list, and then a refresh does. The second call is answered first, with one sender; then the
first one, with another sender named twice; and the refresh has found nobody at home. -/
def overtaken : List Op :=
  [.change ⟨[], .delay 10⟩, .call 0 20, .change ⟨[], .answer⟩, .call 1 20, .change ⟨[], .hang⟩, .launch 50 5, .act 0,
    .change ⟨[⟨List.replicate 20 1, rfl⟩], .hang⟩, .finish 1,
    .change ⟨[⟨List.replicate 20 2, rfl⟩, ⟨List.replicate 20 2, rfl⟩], .hang⟩, .finish 0]

theorem snapshot_integrity_overtaken :
    let s := (Site.start ⟨List.replicate 20 0, rfl⟩ 1 ⟨[], .hang⟩).run overtaken
    lastAnswer s.trace = some [⟨List.replicate 20 2, rfl⟩, ⟨List.replicate 20 2, rfl⟩] ∧
      s.clock.snapshot.size = 1 ∧ (s.step (.act 0)).clock.snapshot = s.clock.snapshot ∧ Intact s := by
  intro s
  exact ⟨by decide +kernel, by decide +kernel, by decide +kernel,
    (snapshot_integrity ⟨List.replicate 20 0, rfl⟩ 1 ⟨[], .hang⟩ overtaken (.act 0)).1⟩

/-! ## The virtual clock -/

def Event.return? : Event → Option (Except Failure Nat)
  | .returned _ result => some result
  | _ => none

def results (trace : List Event) : List (Except Failure Nat) := trace.filterMap Event.return?

/-- a run in which no call is made and none returns -/
structure Leads (s s' : Site) : Prop where
  run : ∃ ops, s.run ops = s'
  calls : s'.calls = s.calls
  quiet : results s'.trace = results s.trace

theorem Leads.refl (s : Site) : Leads s s := ⟨⟨[], rfl⟩, rfl, rfl⟩

theorem Leads.trans {s s' s'' : Site} (h : Leads s s') (h' : Leads s' s'') : Leads s s'' := by
  obtain ⟨ops, rfl⟩ := h.run
  obtain ⟨ops', rfl⟩ := h'.run
  exact ⟨⟨ops ++ ops', Site.run_append s ops ops'⟩, h'.calls.trans h.calls, h'.quiet.trans h.quiet⟩

theorem Leads.pass (s : Site) (span : Nat) : Leads s (s.step (.pass span)) := ⟨⟨[.pass span], rfl⟩, rfl, rfl⟩

theorem results_append (trace es : List Event) : results (trace ++ es) = results trace ++ results es :=
  List.filterMap_append

/-- only the end of a call's fetch makes a call return -/
theorem Leads.act (s : Site) (i : Nat) : Leads s (s.step (.act i)) := by
  refine ⟨⟨[.act i], rfl⟩, ?_, ?_⟩
  · simp only [Site.step, Site.act]
    split <;> rfl
  · simp only [Site.step, Site.act]
    split
    · rfl
    · next r _ =>
      rw [results_append]
      cases r.fetch with
      | none => exact List.append_nil _
      | some f =>
        obtain ⟨senders, hevent, -⟩ | ⟨failure, hevent, -⟩ :=
          f.event_cases .refresh s.clock.contract r.limit s.clock.source <;>
        simp [hevent, results, Event.return?]

theorem Leads.quit (s : Site) (i : Nat) : Leads s (s.step (.quit i)) := by
  refine ⟨⟨[.quit i], rfl⟩, rfl, ?_⟩
  simp only [Site.step, Site.quit]
  rw [results_append]
  cases s.clock.refreshes[i]?.bind Refresh.fetch with
  | none => exact List.append_nil _
  | some f => exact List.append_nil _

/-- all refreshes end when each of them does -/
theorem exists_shutDown (s : Site) : ∃ s', Leads s s' ∧ s'.clock = s.clock.shutDown := by
  generalize hn : s.clock.refreshes.length = n
  induction n generalizing s with
  | zero =>
    refine ⟨s, .refl s, ?_⟩
    rw [AllowlistClock.shutDown, ← List.length_eq_zero_iff.1 hn]
  | succ n ih =>
    have hlength : (s.step (.quit 0)).clock.refreshes.length = n := by
      simp only [Site.step, Site.quit, List.length_eraseIdx]
      split_ifs <;> omega
    obtain ⟨s', hleads, hclock⟩ := ih (s.step (.quit 0)) hlength
    exact ⟨s', (Leads.quit s 0).trans hleads, hclock⟩

theorem firstDue_eq_some {k due i : Nat} {rs : List Refresh}
    (h : AllowlistClock.firstDue k rs = some (due, i)) : ∃ r, k ≤ i ∧ rs[i - k]? = some r ∧ r.due = due := by
  induction rs generalizing k due i with
  | nil => cases h
  | cons r rest ih =>
    have hhead : ∀ {due' i'}, some (r.due, k) = some (due', i') →
        ∃ r', k ≤ i' ∧ (r :: rest)[i' - k]? = some r' ∧ r'.due = due' := by
      rintro _ _ ⟨⟩
      exact ⟨r, Nat.le_refl _, by simp, rfl⟩
    rw [AllowlistClock.firstDue] at h
    split at h
    · next due' j hrest =>
      split_ifs at h
      · obtain ⟨rfl, rfl⟩ := Prod.mk.inj (Option.some.inj h)
        obtain ⟨r', hle, hr', hdue⟩ := ih hrest
        refine ⟨r', by omega, ?_, hdue⟩
        rwa [show j - k = j - (k + 1) + 1 by omega, List.getElem?_cons_succ]
      · exact hhead h
    · exact hhead h

/-- what falls due on the virtual clock are steps of refreshes -/
theorem exists_settled (s : Site) (fuel target : Nat) :
    ∃ s', Leads s s' ∧ s'.clock = AllowlistClock.settle fuel target s.clock := by
  induction fuel generalizing s with
  | zero => exact ⟨s, .refl s, rfl⟩
  | succ fuel ih =>
    rw [AllowlistClock.settle]
    cases hfirst : AllowlistClock.firstDue 0 s.clock.refreshes with
    | none => exact ⟨s, .refl s, rfl⟩
    | some p =>
      obtain ⟨due, i⟩ := p
      obtain ⟨r, -, hr, rfl⟩ := firstDue_eq_some hfirst
      simp only
      split_ifs
      · have hclock : (s.step (.act i)).clock = s.clock.stepAt r.due i := by
          simp only [Nat.sub_zero] at hr
          simp only [Site.step, Site.act, hr]
        obtain ⟨s', hleads, hsettled⟩ := ih (s.step (.act i))
        exact ⟨s', (Leads.act s i).trans hleads, by rw [hsettled, hclock]⟩
      · exact ⟨s, .refl s, rfl⟩

theorem exists_advanced (s : Site) (target : Nat) :
    ∃ s', Leads s s' ∧ s'.clock = s.clock.advanceTo target := by
  obtain ⟨s', hleads, hclock⟩ := exists_settled s (AllowlistClock.stepBound target s.clock.refreshes) target
  refine ⟨s'.step (.pass (target - s'.clock.now)), hleads.trans (.pass s' _), ?_⟩
  have hnow : s'.clock.now + (target - s'.clock.now) = max s'.clock.now target := by omega
  rw [AllowlistClock.advanceTo, ← hclock, ← hnow]
  rfl

/-- the allow-lists on the virtual clock, with what calls have returned -/
inductive Simulated (contract : Address) (confirmations : Nat) :
    AllowlistClock → List (Except Failure Nat) → Prop where
  | start (source : Source) : Simulated contract confirmations (.start contract confirmations source) []
  | change {clock : AllowlistClock} {rs : List (Except Failure Nat)}
    (h : Simulated contract confirmations clock rs) (source : Source) :
    Simulated contract confirmations { clock with source } rs
  | update {clock : AllowlistClock} {rs : List (Except Failure Nat)}
    (h : Simulated contract confirmations clock rs) (limit : Nat) :
    Simulated contract confirmations (clock.update limit).1 (rs ++ [(clock.update limit).2])
  | startRefresh {clock : AllowlistClock} {rs : List (Except Failure Nat)}
    (h : Simulated contract confirmations clock rs) (period limit : Nat) :
    Simulated contract confirmations (clock.startRefresh period limit) rs
  | advance {clock : AllowlistClock} {rs : List (Except Failure Nat)}
    (h : Simulated contract confirmations clock rs) (target : Nat) :
    Simulated contract confirmations (clock.advanceTo target) rs
  | shutDown {clock : AllowlistClock} {rs : List (Except Failure Nat)}
    (h : Simulated contract confirmations clock rs) :
    Simulated contract confirmations clock.shutDown rs

/-- a call that is waited for, on the virtual clock: whatever falls due before its fetch ends comes first -/
theorem exists_updated (s : Site) (hcalls : s.calls = []) (limit : Nat) :
    ∃ ops, (s.run ops).clock = (s.clock.update limit).1 ∧ (s.run ops).calls = [] ∧
      results (s.run ops).trace = results s.trace ++ [(s.clock.update limit).2] := by
  let f := Fetch.start s.clock.now limit s.clock.source.manner
  obtain ⟨s₁, hleads₁, hclock₁⟩ := exists_advanced (s.step (.call 0 limit)) (f.ends - 1)
  have hcalls₁ : s₁.calls = [⟨0, limit, f⟩] := by
    rw [hleads₁.calls]
    simp only [Site.step, Site.call, hcalls, List.nil_append]
    rfl
  have hfinish : s₁.step (.finish 0) =
      ⟨{ s₁.clock with
          now := max s₁.clock.now f.ends
          snapshot := s₁.clock.snapshot.after (f.result s₁.clock.contract limit s₁.clock.source) }, [],
        s₁.trace ++ [f.event (.call 0) s₁.clock.contract limit s₁.clock.source,
          .returned 0 ((f.result s₁.clock.contract limit s₁.clock.source).map Snapshot.size)]⟩ := by
    simp only [Site.step, Site.finish, hcalls₁]
    rfl
  obtain ⟨s₂, hleads₂, hclock₂⟩ := exists_advanced (s₁.step (.finish 0)) (s₁.step (.finish 0)).clock.now
  obtain ⟨ops₁, hrun₁⟩ := hleads₁.run
  obtain ⟨ops₂, hrun₂⟩ := hleads₂.run
  have hrun : s.run ([.call 0 limit] ++ ops₁ ++ [.finish 0] ++ ops₂) = s₂ := by
    rw [Site.run_append, Site.run_snoc, Site.run_append, ← hrun₂, ← hrun₁]
    rfl
  refine ⟨[.call 0 limit] ++ ops₁ ++ [.finish 0] ++ ops₂, ?_, ?_, ?_⟩
  · rw [hrun, hclock₂, hfinish, hclock₁]
    rfl
  · rw [hrun, hleads₂.calls, hfinish]
  · rw [hrun, hleads₂.quiet, hfinish, hclock₁, results_append, hleads₁.quiet]
    have hevent : ∀ source contract, results [f.event (.call 0) contract limit source] = [] := by
      intro source contract
      obtain ⟨senders, hevent, -⟩ | ⟨failure, hevent, -⟩ := f.event_cases (.call 0) contract limit source <;>
      simp [hevent, results, Event.return?]
    rw [← List.singleton_append, results_append, hevent]
    rfl

/-- **The virtual clock keeps to these runs**: what a simulated allow-list comes to, it comes to in a run, and its calls
return the same -/
theorem Simulated.site {contract : Address} {confirmations : Nat} {clock : AllowlistClock}
    {rs : List (Except Failure Nat)} (h : Simulated contract confirmations clock rs) :
    ∃ source ops, ((Site.start contract confirmations source).run ops).clock = clock ∧
      ((Site.start contract confirmations source).run ops).calls = [] ∧
      results ((Site.start contract confirmations source).run ops).trace = rs := by
  induction h with
  | start source => exact ⟨source, [], rfl, rfl, rfl⟩
  | change _ source ih =>
    obtain ⟨source₀, ops, rfl, hcalls, hresults⟩ := ih
    exact ⟨source₀, ops ++ [.change source], by rw [Site.run_snoc]; rfl, by rw [Site.run_snoc]; exact hcalls,
      by rw [Site.run_snoc]; exact hresults⟩
  | update _ limit ih =>
    obtain ⟨source₀, ops, rfl, hcalls, rfl⟩ := ih
    obtain ⟨ops', hclock, hcalls', hresults⟩ := exists_updated _ hcalls limit
    rw [← Site.run_append] at hclock hcalls' hresults
    exact ⟨source₀, ops ++ ops', hclock, hcalls', hresults⟩
  | startRefresh _ period limit ih =>
    obtain ⟨source₀, ops, rfl, hcalls, rfl⟩ := ih
    obtain ⟨s', hleads, hclock⟩ := exists_advanced
      (((Site.start contract confirmations source₀).run ops).step (.launch period limit))
      ((Site.start contract confirmations source₀).run ops).clock.now
    obtain ⟨ops', rfl⟩ := hleads.run
    have hrun := Site.run_append (.start contract confirmations source₀) (ops ++ [.launch period limit]) ops'
    rw [Site.run_snoc] at hrun
    refine ⟨source₀, ops ++ [.launch period limit] ++ ops', ?_, ?_, ?_⟩
    · rw [hrun, hclock]
      rfl
    · rw [hrun, hleads.calls]
      exact hcalls
    · rw [hrun, hleads.quiet]
      rfl
  | advance _ target ih =>
    obtain ⟨source₀, ops, rfl, hcalls, rfl⟩ := ih
    obtain ⟨s', hleads, hclock⟩ := exists_advanced ((Site.start contract confirmations source₀).run ops) target
    obtain ⟨ops', rfl⟩ := hleads.run
    rw [← Site.run_append] at hclock hleads
    exact ⟨source₀, ops ++ ops', hclock, hleads.calls.trans hcalls, hleads.quiet⟩
  | shutDown _ ih =>
    obtain ⟨source₀, ops, rfl, hcalls, rfl⟩ := ih
    obtain ⟨s', hleads, hclock⟩ := exists_shutDown ((Site.start contract confirmations source₀).run ops)
    obtain ⟨ops', rfl⟩ := hleads.run
    rw [← Site.run_append] at hclock hleads
    exact ⟨source₀, ops ++ ops', hclock, hleads.calls.trans hcalls, hleads.quiet⟩

end QuorumGateway.Allowlist
