import QuorumGateway.Proofs.Gateway.Step
/-!
What admission depends on, apart from the message: whether the end of the gateway has begun, the allow-list, and the
rate limits. Said for one operation, and then for a run by what was done in it: the gateway is closing if its end has
begun (`closing_reached`), and the allow-list is the one that the last successful fetch has brought
(`allowlist_reached`). Of the rate limits only calls take tokens, and only calls that pass all other checks
(`limiter_submit`).
-/

namespace QuorumGateway.Gateway

/-! ## The list that was fetched last -/

/-- the list that an operation brings -/
def Op.fetched? : Op → Option Allowlist.Snapshot
  | .refresh (.ok list) => some list
  | _ => none

/-- the list of the last successful fetch among operations; before the first, nobody is on it -/
def lastFetched (ops : List Op) : Allowlist.Snapshot := ((ops.filterMap Op.fetched?).getLast?).getD .empty

theorem lastFetched_snoc (ops : List Op) (o : Op) : lastFetched (ops ++ [o]) = o.fetched?.getD (lastFetched ops) := by
  cases h : o.fetched? <;> simp [lastFetched, List.filterMap_append, h]

theorem lastFetched_eq (pre : List Op) (list : Allowlist.Snapshot) (mid : List Op) :
    lastFetched (pre ++ .refresh (.ok list) :: mid) = list ∨
      .refresh (.ok (lastFetched (pre ++ .refresh (.ok list) :: mid))) ∈ mid := by
  induction mid using List.reverseRecOn with
  | nil => exact .inl (by rw [lastFetched_snoc]; rfl)
  | append_singleton mid o ih =>
    rw [← List.cons_append, ← List.append_assoc, lastFetched_snoc]
    cases hfetched : o.fetched? with
    | none => exact ih.imp_right fun hmem => List.mem_append_left _ hmem
    | some next =>
      right
      cases o with
      | refresh result => cases result <;> simp_all [Op.fetched?]
      | _ => simp [Op.fetched?] at hfetched

/-! ## One operation -/

section Step

variable (S : Crypto.Scheme) (g : Setup) (s : State)

/-- a call leaves the end of the gateway and the allow-list alone -/
theorem submit_frame (now call : Nat) (m : Message) :
    (submit S g s now call m).closing = s.closing ∧ (submit S g s now call m).allowlist = s.allowlist := by
  unfold submit
  split
  · exact ⟨rfl, rfl⟩
  · simp only [charge_state]
    split
    · exact ⟨rfl, rfl⟩
    · split <;> exact ⟨rfl, rfl⟩

theorem finish_frame (call : Nat) (legs : List FanOut.Leg) :
    (finish g s call legs).closing = s.closing ∧ (finish g s call legs).allowlist = s.allowlist ∧
      (finish g s call legs).limiter = s.limiter := by
  unfold finish
  split
  · exact ⟨rfl, rfl, rfl⟩
  · simp only
    split
    · exact ⟨rfl, rfl, rfl⟩
    · split <;> exact ⟨rfl, rfl, rfl⟩

theorem step_closing (o : Op) : (step S g s o).closing = true ↔ s.closing = true ∨ o = .beginClose := by
  cases o with
  | submit now call m => simp [step, (submit_frame S g s now call m).1]
  | finish call legs => simp [step, (finish_frame g s call legs).1]
  | respond node m =>
    simp only [step, respond]
    split <;> simp [State.count, State.deliver, State.heard]
  | beginClose =>
    simp only [step, beginClose]
    split <;> simp [State.emit, *]
  | _ => simp [step, sweep, refresh, start, drain, State.deliver, State.withTable, State.emit]

theorem step_allowlist (o : Op) : (step S g s o).allowlist = s.allowlist.map fun list => o.fetched?.getD list := by
  have hsame : s.allowlist = s.allowlist.map fun list => list := by simp
  cases o with
  | submit now call m => exact (submit_frame S g s now call m).2.trans hsame
  | finish call legs => exact (finish_frame g s call legs).2.1.trans hsame
  | respond node m =>
    simp only [step, respond]
    split <;> exact hsame
  | refresh result => cases result <;> rfl
  | beginClose =>
    simp only [step, beginClose]
    split <;> exact hsame
  | _ => exact hsame

theorem charge_granted (sender : Address) (now : Nat) :
    (charge s sender now).1 = true ↔ ∀ l, s.limiter = some l → (l.allow sender.text now).1 = true := by
  unfold charge
  cases s.limiter <;> simp

/-- a call that passes all other checks asks the rate limits for a token -/
theorem limiter_submit {sender : Address} {m : Message} (now call : Nat) (hscreen : screen S g s m = .ok sender) :
    (submit S g s now call m).limiter = s.limiter.map fun l => (l.allow sender.text now).2 := by
  unfold submit
  simp only [hscreen, charge_state]
  split
  · rfl
  · split <;> rfl

/-- a call that fails one of them does not -/
theorem submit_of_screen_error {m : Message} {e : GatewayError} (now call : Nat) (hscreen : screen S g s m = .error e) :
    submit S g s now call m = reject s call m.body.method e := by
  simp only [submit, hscreen]

/-- only calls spend tokens -/
theorem step_limiter {o : Op} (ho : o.submits? = none) : (step S g s o).limiter = s.limiter := by
  cases o with
  | submit => simp [Op.submits?] at ho
  | finish call legs => exact (finish_frame g s call legs).2.2
  | respond node m =>
    simp only [step, respond]
    split <;> rfl
  | beginClose =>
    simp only [step, beginClose]
    split <;> rfl
  | _ => rfl

theorem isSome_step_limiter (o : Op) : (step S g s o).limiter.isSome = s.limiter.isSome := by
  cases ho : o.submits? with
  | none => rw [step_limiter S g s ho]
  | some call =>
    cases o with
    | submit now call m =>
      cases hscreen : screen S g s m with
      | error e => rw [step, submit_of_screen_error S g s now call hscreen]; rfl
      | ok sender => rw [step, limiter_submit S g s now call hscreen, Option.isSome_map]
    | _ => simp [Op.submits?] at ho

end Step

/-! ## Runs -/

section Run

variable (S : Crypto.Scheme) (b : Built)

theorem closing_reached (ops : List Op) : (reached S b ops).closing = true ↔ .beginClose ∈ ops := by
  induction ops using List.reverseRecOn with
  | nil => simp [run, State.ofBuilt]
  | append_singleton ops o ih => rw [reached_snoc, step_closing, ih, List.mem_append, List.mem_singleton, eq_comm]

theorem allowlist_reached (ops : List Op) :
    (reached S b ops).allowlist = b.contract.map fun _ => lastFetched ops := by
  induction ops using List.reverseRecOn with
  | nil => rfl
  | append_singleton ops o ih => rw [reached_snoc, step_allowlist, ih, Option.map_map, lastFetched_snoc]; rfl

theorem isSome_limiter_reached (ops : List Op) : (reached S b ops).limiter.isSome = b.limiter.isSome := by
  induction ops using List.reverseRecOn with
  | nil => rfl
  | append_singleton ops o ih => rw [reached_snoc, isSome_step_limiter, ih]

end Run

/-! ## Building -/

/-- a gateway has an allow-list and rate limits exactly if its settings ask for them -/
theorem configured_of_build {raw : Json} {network : Network} {hasSource : Bool} {b : Built}
    (h : build raw network hasSource = .ok b) :
    b.contract.isSome = b.setup.settings.allowlist.isSome ∧
      b.limiter.isSome = b.setup.settings.rateLimiter.isSome := by
  unfold build at h
  obtain ⟨settings, -, h⟩ := bind_eq_ok.1 h
  obtain ⟨⟨⟩, -, h⟩ := bind_eq_ok.1 h
  obtain ⟨contract, hcontract, h⟩ := bind_eq_ok.1 h
  obtain ⟨limiter, hlimiter, h⟩ := bind_eq_ok.1 h
  cases Except.ok.inj h
  constructor
  · unfold contract? at hcontract
    split at hcontract
    · rename_i hnone
      simp [← Except.ok.inj hcontract, hnone]
    · rename_i hsome
      split at hcontract
      · cases hcontract
      · split at hcontract
        · simp [← Except.ok.inj hcontract, hsome]
        · cases hcontract
  · unfold limiter? at hlimiter
    split at hlimiter
    · rename_i hnone
      simp [← Except.ok.inj hlimiter, hnone]
    · rename_i r hsome
      cases hbudgets : RateLimit.Limiter.ofSettings r with
      | error p => simp [hbudgets, Except.map] at hlimiter
      | ok l =>
        rw [hbudgets] at hlimiter
        simp [← Except.ok.inj hlimiter, hsome]

end QuorumGateway.Gateway
