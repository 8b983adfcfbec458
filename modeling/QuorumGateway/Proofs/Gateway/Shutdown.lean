import QuorumGateway.Proofs.Gateway.Admission
import QuorumGateway.Proofs.Gateway.Contract
import QuorumGateway.Proofs.Pending.Accounts
/-!
The end of a gateway. A start brings the background work to life: a task that sweeps the table, and one that fetches the
allow-list if there is one. A call that closes the gateway tells both to end, waits for one after the other, and then
settles all open requests. In between everything else goes on: calls that are on their way end, nodes answer, tasks that
have not noticed yet take a turn, and there are more calls to start or to close. A run is any sequence of these acts
that can happen one after the other (`Act`, `perform`).

- `Phase`: a gateway is open, or one call is closing it and waits for every task that still runs, or it has been closed
  and nothing is left of its work.
- `shutdown_final`: only one start and only one close succeed; once a close has, no callback is left waiting, and
  nothing that comes later can open a request, spend a token or bring the background work back.
-/

namespace QuorumGateway.Gateway

open Pending (Delivery Table Entry)

/-! ## The background work -/

/-- a task of the background work -/
inductive Job where
  | sweeper
  | refresher
deriving DecidableEq, Repr

/-- a gateway with its background work: the tasks that run, those whose end has to be waited for, and those that a call
waits for while it is closing the gateway -/
structure Site where
  gateway : State
  running : List Job
  held : List Job
  awaited : Option (List Job)

/-- what can happen: an operation of the gateway, the end of a task, and the closing call noticing it -/
inductive Act where
  | op (o : Op)
  | cease (job : Job)
  | join

namespace Site

def ofBuilt (b : Built) : Site := ⟨.ofBuilt b, [], [], none⟩

/-- the tasks that a start brings to life -/
def jobs (g : Setup) : List Job := if g.settings.allowlist.isSome then [.refresher, .sweeper] else [.sweeper]

/-- whether an operation can come next: turns are taken by tasks that run, and the open requests are settled by the
closing call when it has waited for all tasks -/
def admits (w : Site) : Op → Bool
  | .sweep _ => w.running.contains .sweeper
  | .refresh _ => w.running.contains .refresher
  | .drain => w.awaited == some []
  | _ => true

/-- what an operation does to the tasks -/
def manage (g : Setup) (w : Site) : Op → Site
  | .start =>
    match (start w.gateway).2 with
    | .ok () => { w with running := w.running ++ jobs g, held := w.held ++ jobs g }
    | .error _ => w
  | .beginClose =>
    match (beginClose w.gateway).2 with
    | .ok () => { w with held := [], awaited := some w.held }
    | .error _ => w
  | .drain => { w with awaited := none }
  | _ => w

/-- one act, if it can happen; a task ends when it has been told to -/
def perform (S : Crypto.Scheme) (g : Setup) (w : Site) : Act → Option Site
  | .op o => if w.admits o then some { w.manage g o with gateway := step S g w.gateway o } else none
  | .cease job =>
    if w.gateway.closing = true ∧ job ∈ w.running then some { w with running := w.running.erase job } else none
  | .join =>
    match w.awaited with
    | some (job :: rest) => if job ∈ w.running then none else some { w with awaited := some rest }
    | _ => none

/-- the acts of a run, if they can happen one after the other -/
def run (S : Crypto.Scheme) (g : Setup) (w : Site) (acts : List Act) : Option Site := acts.foldlM (perform S g) w

end Site

def Act.op? : Act → Option Op
  | .op o => some o
  | _ => none

/-- the operations of a run -/
def operations (acts : List Act) : List Op := acts.filterMap Act.op?

/-- a start that has succeeded -/
def Event.isStart : Event → Bool
  | .started (.ok ()) => true
  | _ => false

/-- a close that has succeeded -/
def Event.isClose : Event → Bool
  | .closed (.ok ()) => true
  | _ => false

theorem countP_isClose_pos {trace : List Event} : 0 < trace.countP Event.isClose ↔ .closed (.ok ()) ∈ trace := by
  rw [List.countP_pos_iff]
  constructor
  · rintro ⟨ev, hev, hclose⟩
    cases ev with
    | closed result =>
      cases result with
      | error e => exact absurd hclose Bool.false_ne_true
      | ok u => exact hev
    | _ => exact absurd hclose Bool.false_ne_true
  · intro h
    exact ⟨_, h, rfl⟩

section Step

variable {S : Crypto.Scheme} {g : Setup} {s : State} {o : Op} {table : Table} {calls : List Call} {es : List Event}

/-! ## One operation -/

/-- operations on requests report no start, and none but the last of the closing call reports a close -/
theorem Effect.unmarked (heff : Effect S g s o table calls es) (ho : o.isBackground = false) :
    (∀ ev ∈ es, ev.isStart = false) ∧ (o ≠ .drain → ∀ ev ∈ es, ev.isClose = false) := by
  cases heff with
  | background ho' => exact absurd (ho.symm.trans ho') Bool.false_ne_true
  | drained =>
    refine ⟨fun ev hev => ?_, fun h => absurd rfl h⟩
    rcases List.mem_append.1 hev with hev | hev
    · obtain ⟨d, -, rfl⟩ := List.mem_map.1 hev
      rfl
    · rw [List.mem_singleton.1 hev]
      rfl
  | _ => simp [Event.isStart, Event.isClose]

/-- only a start reports a start, and only the closing call that it has closed the gateway -/
theorem marks_step (S : Crypto.Scheme) (g : Setup) (s : State) (o : Op) :
    ∃ es, (step S g s o).trace = s.trace ++ es ∧ (o ≠ .start → ∀ ev ∈ es, ev.isStart = false) ∧
      (o ≠ .drain → ∀ ev ∈ es, ev.isClose = false) := by
  cases ho : o.isBackground with
  | false =>
    obtain ⟨es, htrace, heff⟩ := step_effect S g s o
    exact ⟨es, htrace, fun _ => (heff.unmarked ho).1, (heff.unmarked ho).2⟩
  | true =>
    cases o with
    | refresh result => exact ⟨[], by simp [step, refresh], by simp, by simp⟩
    | start => exact ⟨_, rfl, fun h => absurd rfl h, by simp [Event.isClose]⟩
    | beginClose =>
      simp only [step, beginClose]
      split
      · exact ⟨_, rfl, by simp [Event.isStart], by simp [Event.isClose]⟩
      · exact ⟨[], by simp, by simp, by simp⟩
    | _ => exact absurd ho Bool.false_ne_true

theorem countP_unmarked {p : Event → Bool} (trace : List Event) (h : ∀ ev ∈ es, p ev = false) :
    (trace ++ es).countP p = trace.countP p := by
  have hnone : es.countP p = 0 := List.countP_eq_zero.2 fun ev hev => by simp [h ev hev]
  rw [List.countP_append, hnone, Nat.add_zero]

theorem closes_step (hdrain : o ≠ .drain) :
    (step S g s o).trace.countP Event.isClose = s.trace.countP Event.isClose := by
  obtain ⟨es, htrace, -, hclose⟩ := marks_step S g s o
  rw [htrace, countP_unmarked _ (hclose hdrain)]

theorem closes_drain : (step S g s .drain).trace.countP Event.isClose = s.trace.countP Event.isClose + 1 := by
  simp [step, drain, State.emit, State.deliver, State.withTable, Event.isClose, List.countP_map, Function.comp_def]

/-- the last operation of the closing call hands every open request the failure of the shutdown -/
theorem delivered_drain {e : Entry} (he : e ∈ s.table.entries) :
    .delivered e.callback (.failure .fatalError shutdownReason) ∈ (step S g s .drain).trace := by
  simp only [step, drain, State.emit, State.deliver, State.withTable, Table.failAll, List.map_map, List.mem_append,
    List.mem_map]
  exact .inl (.inr ⟨e, he, rfl⟩)

/-- that there has been a start is remembered -/
theorem started_step (h : s.started = true) : (step S g s o).started = true := by
  cases o with
  | submit now call m =>
    rw [step]
    unfold submit
    split
    · exact h
    · simp only [charge_state]
      split
      · exact h
      · split <;> exact h
  | finish call legs =>
    simp only [step, finish]
    split
    · exact h
    · split
      · exact h
      · split <;> exact h
  | respond node m =>
    simp only [step, respond]
    split <;> exact h
  | beginClose =>
    simp only [step, beginClose]
    split <;> exact h
  | start => rfl
  | _ => exact h

/-- so a start succeeds only where there has been none before -/
theorem starts_step (h : s.trace.countP Event.isStart ≤ s.started.toNat) :
    (step S g s o).trace.countP Event.isStart ≤ (step S g s o).started.toNat := by
  by_cases hstart : o = .start
  · subst hstart
    rw [step, start]
    cases hstarted : s.started with
    | true =>
      rw [hstarted] at h
      simpa [State.emit, Event.isStart] using h
    | false =>
      rw [hstarted] at h
      have hnone : s.trace.countP Event.isStart = 0 := Nat.le_zero.1 h
      cases s.closing <;> simp [State.emit, hnone, Event.isStart]
  · obtain ⟨es, htrace, hmarks, -⟩ := marks_step S g s o
    rw [htrace, countP_unmarked _ (hmarks hstart)]
    refine h.trans ?_
    cases hstarted : s.started with
    | false => exact Nat.zero_le _
    | true => rw [started_step hstarted]

/-! ## A table that is shut -/

/-- nothing is open, and nothing can be registered any more -/
def Shut (table : Table) : Prop := table.closed = true ∧ table.entries = []

theorem Shut.find? (h : Shut table) (key : RequestKey) : table.find? key = none :=
  Table.find?_eq_none_iff.2 fun _ he => absurd (h.2 ▸ he) List.not_mem_nil

/-- a table that is shut stays so -/
theorem Effect.shut (heff : Effect S g s o table calls es) (h : Shut s.table) : Shut table := by
  cases heff with
  | admitted now call m hscreen hcharge hregister =>
    obtain ⟨hopen, -⟩ := Table.register_ok hregister
    exact absurd (hopen.symm.trans h.1) Bool.false_ne_true
  | evicted call legs error hcall hfew hopen => exact absurd (hopen.symm.trans (h.find? _)) (by simp)
  | answered node m hmember =>
    unfold Table.record
    rw [h.find?]
    exact h
  | swept now =>
    have hdistinct : s.table.Distinct := by simp [Table.Distinct, h.2]
    exact ⟨(Table.closed_expire _ _ _).trans h.1, by rw [Table.entries_expire hdistinct, h.2]; rfl⟩
  | drained => exact ⟨rfl, rfl⟩
  | _ => exact h

/-! ## After the end -/

/-- a gateway with its work when it has been closed: nothing is open and no task runs; another start or close fails, a
call is refused before it sends anything or takes a token, nobody listens to the nodes, and a call that is still on its
way ends without an error, however its sends have gone -/
structure Final (S : Crypto.Scheme) (g : Setup) (w : Site) : Prop where
  empty : w.gateway.table.entries = []
  idle : w.running = []
  start : ∃ reason, (start w.gateway).2 = .error (.lifecycle reason)
  close : ∃ reason, (beginClose w.gateway).2 = .error (.lifecycle reason)
  refused : ∀ now call m, Refused w.gateway (submit S g w.gateway now call m) call closedError ∧
    (submit S g w.gateway now call m).limiter = w.gateway.limiter
  unheard : ∀ node m, ∃ metrics, respond g w.gateway node m = { w.gateway with metrics }
  accepted : ∀ c ∈ w.gateway.calls, ∀ legs, (finish g w.gateway c.id legs).table.entries = [] ∧
    (finish g w.gateway c.id legs).trace = w.gateway.trace ++ [.returned c.id (.ok ())]

theorem screen_closing (S : Crypto.Scheme) (g : Setup) (m : Message) (h : s.closing = true) :
    screen S g s m = .error closedError := by
  simp only [screen, h]
  rfl

theorem respond_shut (node : String) (m : Message) (h : Shut s.table) :
    ∃ metrics, respond g s node m = { s with metrics } := by
  unfold respond Table.record
  split
  · exact ⟨_, rfl⟩
  · rw [h.find?]
    exact ⟨_, by simp [State.count, State.deliver, State.heard]; rfl⟩

theorem finish_shut (h : Shut s.table) {c : Call} (hc : c ∈ s.calls) (legs : List FanOut.Leg) :
    (finish g s c.id legs).table = s.table ∧
      (finish g s c.id legs).trace = s.trace ++ [.returned c.id (.ok ())] := by
  have hsome : (s.calls.find? fun c' => c'.id = c.id).isSome = true :=
    List.find?_isSome.2 ⟨c, hc, decide_eq_true rfl⟩
  obtain ⟨c', hfound⟩ := Option.isSome_iff_exists.1 hsome
  have hid : c'.id = c.id := by simpa using List.find?_some hfound
  unfold finish
  simp only [hfound, State.count, Table.evict, h.find?, Table.erase_of_find?_none (h.find? _)]
  split <;> simp [accept, State.count, State.emit, State.withTable, hid]

/-- a gateway whose table is shut, that is closing and whose tasks have all ended has been closed for good -/
theorem final_of_shut {w : Site} (hshut : Shut w.gateway.table) (hclosing : w.gateway.closing = true)
    (hidle : w.running = []) : Final S g w := by
  refine ⟨hshut.2, hidle, ?_, ?_, fun now call m => ?_, fun node m => respond_shut node m hshut, fun c hc legs => ?_⟩
  · unfold Gateway.start
    cases w.gateway.started <;> simp [hclosing, closedError]
  · simp [beginClose, hclosing]
  · rw [submit_of_screen_error S g _ now call (screen_closing S g m hclosing)]
    exact ⟨refused_reject _ _ _ _, rfl⟩
  · obtain ⟨htable, htrace⟩ := finish_shut (g := g) hshut hc legs
    exact ⟨by rw [htable]; exact hshut.2, htrace⟩

end Step

/-! ## Runs -/

namespace Site

variable {S : Crypto.Scheme} {g : Setup} {w w' : Site} {a : Act} {acts more : List Act}

theorem run_append : run S g w (acts ++ more) = (run S g w acts).bind fun w' => run S g w' more := List.foldlM_append

theorem run_snoc : run S g w (acts ++ [a]) = (run S g w acts).bind fun w' => perform S g w' a := by
  rw [run_append]
  simp [run]

/-- what the gateway of a run has done are the operations of the run -/
theorem gateway_run (h : run S g w acts = some w') : w'.gateway = Gateway.run S g w.gateway (operations acts) := by
  induction acts using List.reverseRecOn generalizing w' with
  | nil =>
    cases h
    rfl
  | append_singleton acts a ih =>
    rw [run_snoc] at h
    obtain ⟨w₁, hw₁, ha⟩ := Option.bind_eq_some_iff.1 h
    have hops : operations (acts ++ [a]) = operations acts ++ a.op?.toList := by
      cases hop : a.op? <;> simp [operations, List.filterMap_append, hop]
    rw [hops, Gateway.run_append, ← ih hw₁]
    cases a with
    | op o =>
      obtain ⟨-, ⟨⟩⟩ := Option.ite_none_right_eq_some.1 ha
      rfl
    | cease job =>
      obtain ⟨-, ⟨⟩⟩ := Option.ite_none_right_eq_some.1 ha
      rfl
    | join =>
      simp only [perform] at ha
      split at ha
      · obtain ⟨-, ⟨⟩⟩ := Option.ite_none_left_eq_some.1 ha
        rfl
      · cases ha

/-- how far the end of a gateway has come -/
inductive Phase (w : Site) : Prop where
  /-- the gateway is open, and the end of every task that runs will be waited for -/
  | opened (hclosing : w.gateway.closing = false) (hawaited : w.awaited = none)
    (hcloses : w.gateway.trace.countP Event.isClose = 0) (hrunning : ∀ job ∈ w.running, job ∈ w.held)
  /-- a call is closing it, and waits for every task that still runs -/
  | closing (jobs : List Job) (hclosing : w.gateway.closing = true) (hawaited : w.awaited = some jobs)
    (hcloses : w.gateway.trace.countP Event.isClose = 0) (hrunning : ∀ job ∈ w.running, job ∈ jobs)
  /-- it has been closed -/
  | closed (hclosing : w.gateway.closing = true) (hawaited : w.awaited = none)
    (hcloses : w.gateway.trace.countP Event.isClose = 1) (hrunning : w.running = []) (hshut : Shut w.gateway.table)

theorem phase_ofBuilt (b : Built) : Phase (.ofBuilt b) := .opened rfl rfl rfl (by simp [ofBuilt])

/-- an operation that neither begins nor ends a close leaves the phase as it is, whatever the tasks -/
theorem Phase.other (h : Phase w) {o : Op} (hbegin : o ≠ .beginClose) (hdrain : o ≠ .drain) :
    Phase { w with gateway := step S g w.gateway o } := by
  have hclosing : (step S g w.gateway o).closing = w.gateway.closing := by
    rw [Bool.eq_iff_iff, step_closing]
    exact or_iff_left hbegin
  have hcloses := closes_step (S := S) (g := g) (s := w.gateway) hdrain
  obtain ⟨hopen, ha, hc, hr⟩ | ⟨jobs, hopen, ha, hc, hr⟩ | ⟨hopen, ha, hc, hr, hshut⟩ := h
  · exact .opened (hclosing.trans hopen) ha (hcloses.trans hc) hr
  · exact .closing jobs (hclosing.trans hopen) ha (hcloses.trans hc) hr
  · obtain ⟨es, -, heff⟩ := step_effect S g w.gateway o
    exact .closed (hclosing.trans hopen) ha (hcloses.trans hc) hr (heff.shut hshut)

/-- tasks are only brought to life while the gateway is open, and the end of each will be waited for -/
theorem Phase.start (h : Phase w) : Phase { w.manage g .start with gateway := step S g w.gateway .start } := by
  have hother : Phase { w with gateway := step S g w.gateway .start } := h.other (by simp) (by simp)
  simp only [manage]
  split
  · rename_i hok
    have hclosing : w.gateway.closing = false := by
      revert hok
      unfold Gateway.start
      cases w.gateway.started <;> cases w.gateway.closing <;> simp
    obtain ⟨hopen, ha, hc, hr⟩ | ⟨_, hopen, -⟩ | ⟨hopen, -⟩ := hother
    · refine .opened hopen ha hc fun job hjob => ?_
      rcases List.mem_append.1 hjob with hjob | hjob
      · exact List.mem_append_left _ (hr job hjob)
      · exact List.mem_append_right _ hjob
    · exact absurd (hclosing.symm.trans hopen) Bool.false_ne_true
    · exact absurd (hclosing.symm.trans hopen) Bool.false_ne_true
  · exact hother

/-- the first call to close waits for all tasks that are held, and those are all that run; any other call fails -/
theorem Phase.beginClose (h : Phase w) :
    Phase { w.manage g .beginClose with gateway := step S g w.gateway .beginClose } := by
  have hcloses := closes_step (S := S) (g := g) (s := w.gateway) (o := .beginClose) (by simp)
  simp only [manage, step, Gateway.beginClose] at hcloses ⊢
  obtain ⟨hopen, ha, hc, hr⟩ | ⟨jobs, hopen, ha, hc, hr⟩ | ⟨hopen, ha, hc, hr, hshut⟩ := h
  · simp only [hopen, Bool.false_eq_true, if_false]
    exact .closing w.held rfl rfl hc hr
  · simp only [hopen, if_true] at hcloses ⊢
    exact .closing jobs hopen ha (hcloses.trans hc) hr
  · simp only [hopen, if_true] at hcloses ⊢
    exact .closed hopen ha (hcloses.trans hc) hr hshut

/-- the closing call settles the open requests when no task runs any more -/
theorem Phase.drain (h : Phase w) (hawaited : w.awaited = some []) :
    Phase { w.manage g .drain with gateway := step S g w.gateway .drain } := by
  obtain ⟨-, ha, -⟩ | ⟨jobs, hopen, ha, hc, hr⟩ | ⟨-, ha, -⟩ := h
  · exact absurd (ha.symm.trans hawaited) (by simp)
  · obtain rfl : jobs = [] := Option.some.inj (ha.symm.trans hawaited)
    have hcloses : (step S g w.gateway .drain).trace.countP Event.isClose = 1 := by rw [closes_drain, hc]
    have hidle : w.running = [] := by
      apply List.eq_nil_iff_forall_not_mem.2
      intro job hjob
      simpa using hr job hjob
    exact .closed hopen rfl hcloses hidle ⟨rfl, rfl⟩
  · exact absurd (ha.symm.trans hawaited) (by simp)

/-- **What one act does to the phase** -/
theorem Phase.perform (h : Phase w) (hw : w.perform S g a = some w') : Phase w' := by
  cases a with
  | op o =>
    obtain ⟨hadmits, ⟨⟩⟩ := Option.ite_none_right_eq_some.1 hw
    cases o with
    | start => exact h.start
    | beginClose => exact h.beginClose
    | drain => exact h.drain (by simpa [admits] using hadmits)
    | _ => exact h.other (by simp) (by simp)
  | cease job =>
    obtain ⟨⟨hclosing, -⟩, ⟨⟩⟩ := Option.ite_none_right_eq_some.1 hw
    have hsub : ∀ job' ∈ w.running.erase job, job' ∈ w.running := fun _ h => List.mem_of_mem_erase h
    obtain ⟨hopen, ha, hc, hr⟩ | ⟨jobs, hopen, ha, hc, hr⟩ | ⟨hopen, ha, hc, hr, hshut⟩ := h
    · exact absurd (hopen.symm.trans hclosing) Bool.false_ne_true
    · exact .closing jobs hopen ha hc fun job' h => hr job' (hsub job' h)
    · exact .closed hopen ha hc (by simp [hr]) hshut
  | join =>
    simp only [Site.perform] at hw
    split at hw
    · rename_i job rest hjobs
      obtain ⟨hended, ⟨⟩⟩ := Option.ite_none_left_eq_some.1 hw
      obtain ⟨hopen, ha, hc, hr⟩ | ⟨jobs, hopen, ha, hc, hr⟩ | ⟨hopen, ha, hc, hr, hshut⟩ := h
      · exact absurd (ha.symm.trans hjobs) (by simp)
      · refine .closing rest hopen rfl hc fun job' hjob' => ?_
        obtain rfl : jobs = job :: rest := Option.some.inj (ha.symm.trans hjobs)
        exact (List.mem_cons.1 (hr job' hjob')).resolve_left fun heq => hended (heq ▸ hjob')
      · exact absurd (ha.symm.trans hjobs) (by simp)
    · cases hw

/-- **What a run does to the phase** -/
theorem Phase.run (h : Phase w) (hw : run S g w acts = some w') : Phase w' := by
  induction acts using List.reverseRecOn generalizing w' with
  | nil =>
    cases hw
    exact h
  | append_singleton acts a ih =>
    rw [run_snoc] at hw
    obtain ⟨w₁, hw₁, ha⟩ := Option.bind_eq_some_iff.1 hw
    exact (ih hw₁).perform ha

/-- the tasks of a gateway that is being closed can all end -/
theorem run_cease (S : Crypto.Scheme) (g : Setup) (hclosing : w.gateway.closing = true) :
    run S g w (w.running.map .cease) = some { w with running := [] } := by
  obtain ⟨gateway, running, held, awaited⟩ := w
  induction running with
  | nil => rfl
  | cons job rest ih =>
    have hfirst : perform S g ⟨gateway, job :: rest, held, awaited⟩ (.cease job) =
        some ⟨gateway, rest, held, awaited⟩ := by simp [perform, show gateway.closing = true from hclosing]
    rw [List.map_cons, run, List.foldlM_cons, hfirst]
    exact ih hclosing

/-- and then the closing call notices that each of them has -/
theorem run_join (S : Crypto.Scheme) (g : Setup) {jobs : List Job} (hidle : w.running = [])
    (hawaited : w.awaited = some jobs) :
    run S g w (jobs.map fun _ => .join) = some { w with awaited := some [] } := by
  obtain ⟨gateway, running, held, awaited⟩ := w
  subst hidle hawaited
  induction jobs with
  | nil => rfl
  | cons job rest ih => exact ih

/-- **A close comes to its end.** However far a call that is closing the gateway has come, there is a way on in which it
succeeds. -/
theorem close_completes (S : Crypto.Scheme) (g : Setup) {jobs : List Job} (hclosing : w.gateway.closing = true)
    (hawaited : w.awaited = some jobs) :
    ∃ more w', run S g w more = some w' ∧ .closed (.ok ()) ∈ w'.gateway.trace := by
  have hjoin := run_join S g (w := { w with running := [] }) rfl hawaited
  let w' : Site := ⟨step S g w.gateway .drain, [], w.held, none⟩
  refine ⟨w.running.map .cease ++ ((jobs.map fun _ => .join) ++ [.op .drain]), w', ?_, ?_⟩
  · rw [run_append, run_cease S g hclosing, Option.bind_some, run_snoc, hjoin, Option.bind_some]
    simp [perform, admits, manage, w']
  · exact List.mem_append_right _ (List.mem_singleton.2 rfl)

/-- a gateway whose close has succeeded has been closed for good -/
theorem Phase.final (h : Phase w) (hclosed : .closed (.ok ()) ∈ w.gateway.trace) : Final S g w := by
  have hpos := countP_isClose_pos.2 hclosed
  obtain ⟨-, -, hc, -⟩ | ⟨-, -, -, hc, -⟩ | ⟨hopen, -, -, hr, hshut⟩ := h
  · omega
  · omega
  · exact final_of_shut hshut hopen hr

end Site

/-- however often a gateway is started, one start succeeds at most -/
theorem starts_reached (S : Crypto.Scheme) (b : Built) (ops : List Op) :
    (reached S b ops).trace.countP Event.isStart ≤ (reached S b ops).started.toNat := by
  induction ops using List.reverseRecOn with
  | nil => exact Nat.le_refl 0
  | append_singleton ops o ih =>
    rw [reached_snoc]
    exact starts_step ih

/-! ## Main result -/

section Main

variable {S : Crypto.Scheme} {b : Built} {acts : List Act} {w : Site}

/-- what holds after a run in which the acts have happened to a gateway from its start on -/
structure Ended (S : Crypto.Scheme) (b : Built) (acts : List Act) (w : Site) : Prop where
  starts : w.gateway.trace.countP Event.isStart ≤ 1
  closes : w.gateway.trace.countP Event.isClose ≤ 1
  /-- once a close has succeeded, the gateway is closed for good, whatever happens later -/
  final : .closed (.ok ()) ∈ w.gateway.trace →
    ∀ more w', Site.run S b.setup w more = some w' → Final S b.setup w'
  /-- and then each call that has been made has had its callback answered once, or dropped -/
  settled : .closed (.ok ()) ∈ w.gateway.trace →
    ∀ call ∈ (operations acts).filterMap Op.submits?,
      (received w.gateway.trace call).length + (drops w.gateway.trace).count call = 1
  /-- a request that is open when the closing call settles all requests receives that failure and nothing else -/
  drained : ∀ pre post w₀, acts = pre ++ .op .drain :: post → Site.run S b.setup (.ofBuilt b) pre = some w₀ →
    ∀ e ∈ w₀.gateway.table.entries,
      received w.gateway.trace e.callback = [.failure .fatalError shutdownReason]

theorem mem_received {trace : List Event} {callback : Nat} {reply : Reply} :
    reply ∈ received trace callback ↔ .delivered callback reply ∈ trace := by
  simp only [received, List.mem_map, List.mem_filter, List.mem_filterMap, decide_eq_true_eq]
  constructor
  · rintro ⟨d, ⟨⟨ev, hev, hd⟩, rfl⟩, rfl⟩
    cases ev <;> simp only [Event.delivery?, reduceCtorEq, Option.some.injEq] at hd
    exact hd ▸ hev
  · intro h
    exact ⟨⟨callback, reply⟩, ⟨⟨_, h, rfl⟩, rfl⟩, rfl⟩

/-- no callback receives more than one value -/
theorem Inv.received_le {submitted : List Nat} {s : State} (h : Inv submitted s.table s.calls s.trace)
    (hfresh : submitted.Nodup) (call : Nat) : (received s.trace call).length ≤ 1 := by
  have hcount := h.once.count_eq call
  have hle := List.nodup_iff_count_le_one.1 hfresh call
  rw [List.count_append, List.count_append] at hcount
  rw [length_received]
  omega

/-- when nothing is open, each call has had its callback answered once, or dropped -/
theorem Inv.settled {submitted : List Nat} {s : State} (h : Inv submitted s.table s.calls s.trace)
    (hfresh : submitted.Nodup) (hempty : s.table.entries = []) {call : Nat} (hcall : call ∈ submitted) :
    (received s.trace call).length + (drops s.trace).count call = 1 := by
  have hcount := h.once.count_eq call
  rw [List.count_eq_one_of_mem hfresh hcall, Table.callbacks, hempty, List.map_nil, List.nil_append,
    List.count_append] at hcount
  rw [length_received, hcount]

/-- **The end is complete and final.** Whatever happens to a gateway, and in whatever order it can happen, one start and
one close succeed at most. Once a close has, nothing is open and no task runs, every callback has been answered or
dropped, those of the requests that were still open with the one failure of the shutdown, and nothing that can happen
afterwards changes any of that. -/
theorem shutdown_final (hrun : Site.run S b.setup (.ofBuilt b) acts = some w)
    (hfresh : ((operations acts).filterMap Op.submits?).Nodup) : Ended S b acts w := by
  have hgateway : w.gateway = reached S b (operations acts) := Site.gateway_run hrun
  have hphase : Site.Phase w := (Site.phase_ofBuilt b).run hrun
  have hinv := inv_reached S b (operations acts) hfresh
  rw [← hgateway] at hinv
  refine ⟨?_, ?_, fun hclosed more w' hmore => ?_, fun hclosed call hcall => ?_, fun pre post w₀ hsplit hpre e he => ?_⟩
  · have hstarts := starts_reached S b (operations acts)
    rw [← hgateway] at hstarts
    exact hstarts.trans (Bool.toNat_le _)
  · obtain ⟨-, -, hcloses, -⟩ | ⟨-, -, -, hcloses, -⟩ | ⟨-, -, hcloses, -, -⟩ := hphase <;> omega
  · refine (hphase.run hmore).final ?_
    rw [Site.gateway_run hmore]
    exact (trace_run S b.setup w.gateway (operations more)).subset hclosed
  · exact hinv.settled hfresh (hphase.final (S := S) (g := b.setup) hclosed).empty hcall
  · have hops : operations acts = operations pre ++ .drain :: operations post := by
      rw [hsplit, operations, List.filterMap_append]
      rfl
    have hw₀ : w₀.gateway = reached S b (operations pre) := Site.gateway_run hpre
    have hdelivered : .delivered e.callback (.failure .fatalError shutdownReason) ∈ w.gateway.trace := by
      rw [hgateway, hops, List.append_cons, reached, run_append]
      refine (trace_run S b.setup _ _).subset ?_
      rw [run_snoc, ← reached, ← hw₀]
      exact delivered_drain he
    have hle := hinv.received_le hfresh e.callback
    have hmem := mem_received.2 hdelivered
    obtain ⟨reply, hone⟩ := List.length_eq_one_iff.1 (Nat.le_antisymm hle (List.length_pos_of_mem hmem))
    rw [hone] at hmem ⊢
    rw [List.mem_singleton.1 hmem]

end Main

/-! ## An end -/

/-- a gateway with an allow-list and rate limits is started, twice, and a call is on its way when two calls come to
close it; the sweeper takes one more turn before it ends, a node answers too late, and when the gateway is closed there
are more calls, before the sends of the first one fail -/
def lastActs : List Act :=
  [.op .start, .op .start, .op (.refresh (.ok (.ofFetched [alice]))), .op (.submit 0 0 (aliceRequest "don")),
    .op .beginClose, .op .beginClose, .op (.sweep 0), .cease .sweeper, .cease .refresher, .join, .join, .op .drain,
    .op (.respond "0x01" (aliceRequest "don")), .op .start, .op .beginClose,
    .op (.submit 1 1 (aliceRequest "don")), .op (.finish 0 [⟨"0x01", 1000, some "timed out"⟩])]

/-- the first start and the first close succeed, and the call that was on its way ends without an error -/
theorem shutdown_final_guarded :
    ∃ w, Site.run aliceScheme guarded.setup (.ofBuilt guarded) lastActs = some w ∧
      ((operations lastActs).filterMap Op.submits?).Nodup ∧
      w.gateway.trace.countP Event.isStart = 1 ∧ .closed (.ok ()) ∈ w.gateway.trace ∧
      deliveries w.gateway.trace = [0] ∧ drops w.gateway.trace = [1] ∧ returns w.gateway.trace = [1, 0] ∧
      failures w.gateway.trace = [1] ∧ Ended aliceScheme guarded lastActs w := by
  have hfresh : ((operations lastActs).filterMap Op.submits?).Nodup := by decide
  -- the run is evaluated once, by the kernel
  have hseen : (Site.run aliceScheme guarded.setup (.ofBuilt guarded) lastActs).map (fun w =>
      [[w.gateway.trace.countP Event.isStart, w.gateway.trace.countP Event.isClose], deliveries w.gateway.trace,
        drops w.gateway.trace, returns w.gateway.trace, failures w.gateway.trace]) =
      some [[1, 1], [0], [1], [1, 0], [1]] := by
    decide +kernel
  obtain ⟨w, hrun, hw⟩ := Option.map_eq_some_iff.1 hseen
  simp only [List.cons.injEq, and_true] at hw
  obtain ⟨⟨hstarts, hcloses⟩, hdeliveries, hdrops, hreturns, hfailures⟩ := hw
  refine ⟨w, hrun, hfresh, hstarts, ?_, hdeliveries, hdrops, hreturns, hfailures, shutdown_final hrun hfresh⟩
  exact countP_isClose_pos.1 (by rw [hcloses]; exact Nat.one_pos)

end QuorumGateway.Gateway
