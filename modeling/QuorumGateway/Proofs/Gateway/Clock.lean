import QuorumGateway.Simulation.Gateway
import QuorumGateway.Proofs.Gateway.Deadlines
/-!
A gateway on the virtual clock is a gateway on a clock of milliseconds. As long as nodes, the source of the allow-list
and callers take whole milliseconds, all that waits does so for whole milliseconds, the clock goes from one instant at
which something is due to the next, and what happens there is an operation of the gateway (`Steady.go`). Each of these
steps leaves less to do up to an instant (`work_go`), so time passes only when nothing is due any more.

- `Simulated.timed`: what a simulated gateway comes to, it comes to in a run on a clock of milliseconds, with all turns
  of the sweeper taken that are due.
- `Simulated.prompt`: so none of its requests outlives its time by a period of the sweeper.
-/

namespace QuorumGateway

open Gateway (Built State Op Timed reached step)

/-! ## Whole milliseconds -/

namespace Time

variable {a b : Nat}

theorem Whole.add (ha : Whole a) (hb : Whole b) : Whole (a + b) := by
  unfold Whole at *
  rw [Nat.add_mod, ha, hb, Nat.zero_add, Nat.zero_mod]

theorem Whole.max (ha : Whole a) (hb : Whole b) : Whole (max a b) := by
  rcases Nat.le_total a b with hle | hle
  · rwa [Nat.max_eq_right hle]
  · rwa [Nat.max_eq_left hle]

theorem whole_zero : Whole 0 := rfl

theorem whole_millis (n : Nat) : Whole (millis n) := Nat.mul_mod_right _ _

theorem whole_seconds (n : Nat) : Whole (seconds n) := by
  unfold Whole seconds perMilli perSecond
  omega

end Time

open Time (Whole)

namespace FanOut

/-- a node that takes whole milliseconds for a message -/
def Conduct.Whole : Conduct → Prop
  | .delay span => Time.Whole span
  | _ => True

def Cancel.Whole : Cancel → Prop
  | .after span => Time.Whole span
  | _ => True

theorem whole_bounded {limit : Nat} {cancel : Cancel} {a : Attempt} (address : String) (hlimit : Time.Whole limit)
    (hcancel : cancel.Whole) (ha : ∀ span ∈ a.span, Time.Whole span) :
    Time.Whole (bounded limit cancel address a).span := by
  have hlast : Time.Whole (cutoff limit cancel).1 := by
    cases cancel with
    | never => exact hlimit
    | before => exact Time.whole_zero
    | after span =>
      simp only [cutoff]
      split_ifs
      · exact hcancel
      · exact hlimit
  simp only [bounded]
  cases hspan : a.span with
  | none => exact hlast
  | some span =>
    simp only
    split_ifs
    · exact ha span hspan
    · exact hlast

theorem whole_legs {cs : Connections} {cancel : Cancel} {limit : Nat} (hcs : ∀ p ∈ cs, p.2.conduct.Whole)
    (hcancel : cancel.Whole) (hlimit : Time.Whole limit) (members : List Member) :
    ∀ l ∈ legs cs cancel limit members, Time.Whole l.span := by
  intro l hl
  obtain ⟨m, -, rfl⟩ := List.mem_map.1 hl
  apply whole_bounded _ hlimit hcancel
  intro span hspan
  split at hspan
  · cases hspan
    exact Time.whole_zero
  · split at hspan
    · cases hspan
      exact Time.whole_zero
    · next c hfound =>
      have hconduct := hcs _ (SortedMap.mem_of_get? hfound)
      cases hc : c.conduct <;> simp only [hc, Conduct.attempt, Option.mem_def, Option.some.injEq, reduceCtorEq] at hspan
      · exact hspan ▸ Time.whole_zero
      · exact hspan ▸ Time.whole_zero
      · rw [hc] at hconduct
        exact hspan ▸ hconduct

end FanOut

def Allowlist.Manner.Whole : Allowlist.Manner → Prop
  | .delay span | .fail span => Time.Whole span
  | _ => True

theorem Allowlist.whole_start {now limit : Nat} {manner : Allowlist.Manner} (hnow : Whole now) (hlimit : Whole limit)
    (hmanner : manner.Whole) : Whole (Allowlist.Fetch.start now limit manner).ends := by
  cases manner with
  | answer => exact hnow
  | refuse => exact hnow
  | hang => exact hnow.add hlimit
  | delay span | fail span =>
    simp only [Allowlist.Fetch.start]
    split_ifs
    · exact hnow.add hmanner
    · exact hnow.add hlimit

namespace Simulation

/-! ## Flights -/

namespace Flight

variable {f : Flight}

/-- the next end of a send is the end of one -/
theorem exists_due (h : f.landings ≠ []) : ∃ l ∈ f.landings, l.ends = f.due := by
  have hleast : ∀ (ls : List Landing) (t : Nat), ls.foldl (fun t l => min t l.ends) t = t ∨
      ∃ l ∈ ls, l.ends = ls.foldl (fun t l => min t l.ends) t := by
    intro ls
    induction ls with
    | nil =>
      intro t
      exact .inl rfl
    | cons l ls ih =>
      intro t
      rw [List.foldl_cons]
      rcases ih (min t l.ends) with heq | ⟨l', hl', heq⟩
      · rcases Nat.le_total t l.ends with hle | hle
        · rw [heq, Nat.min_eq_left hle]
          exact .inl rfl
        · rw [heq, Nat.min_eq_right hle]
          exact .inr ⟨l, List.mem_cons_self, rfl⟩
      · exact .inr ⟨l', List.mem_cons_of_mem _ hl', heq⟩
  unfold due
  cases hls : f.landings with
  | nil => exact absurd hls h
  | cons l ls =>
    rcases hleast ls l.ends with heq | ⟨l', hl', heq⟩
    · exact ⟨l, List.mem_cons_self, heq.symm⟩
    · exact ⟨l', List.mem_cons_of_mem _ hl', heq⟩

theorem whole_due (h : ∀ l ∈ f.landings, Whole l.ends) : Whole f.due := by
  by_cases hnone : f.landings = []
  · unfold due
    rw [hnone]
    exact Time.whole_zero
  · obtain ⟨l, hl, hdue⟩ := exists_due hnone
    exact hdue ▸ h l hl

theorem whole_ends (h : ∀ l ∈ f.landings, Whole l.ends) : Whole f.ends := by
  have hmost : ∀ (ls : List Landing) (t : Nat), Whole t → (∀ l ∈ ls, Whole l.ends) →
      Whole (ls.foldl (fun t l => max t l.ends) t) := by
    intro ls
    induction ls with
    | nil =>
      intro t ht hls
      exact ht
    | cons l ls ih =>
      intro t ht hls
      rw [List.foldl_cons]
      apply ih _ (ht.max (hls l List.mem_cons_self))
      intro l' hl'
      exact hls l' (List.mem_cons_of_mem _ hl')
  exact hmost f.landings 0 Time.whole_zero h

end Flight

namespace GatewayClock

variable {w : GatewayClock} {instant target : Nat} {p : Part} {f : Flight}

/-! ## What falls due first -/

theorem earliest_eq_none {l : List (Nat × Part)} (h : earliest l = none) : l = [] := by
  cases l with
  | nil => rfl
  | cons q rest =>
    rw [earliest] at h
    split at h
    · split_ifs at h
    · cases h

theorem earliest_eq_some {l : List (Nat × Part)} {q : Nat × Part} (h : earliest l = some q) :
    q ∈ l ∧ ∀ q' ∈ l, q.1 ≤ q'.1 := by
  induction l generalizing q with
  | nil => cases h
  | cons q₀ rest ih =>
    rw [earliest] at h
    split at h
    · next q₁ hrest =>
      obtain ⟨hmem, hleast⟩ := ih hrest
      split_ifs at h with hlt <;> cases h
      · refine ⟨List.mem_cons_of_mem _ hmem, ?_⟩
        intro q' hq'
        rcases List.mem_cons.1 hq' with rfl | hq'
        · exact Nat.le_of_lt hlt
        · exact hleast q' hq'
      · refine ⟨List.mem_cons_self, ?_⟩
        intro q' hq'
        rcases List.mem_cons.1 hq' with rfl | hq'
        · exact Nat.le_refl _
        · exact (Nat.le_of_not_lt hlt).trans (hleast q' hq')
    · next hrest =>
      cases h
      obtain rfl := earliest_eq_none hrest
      simp

theorem mem_waiting :
    (instant, p) ∈ w.waiting ↔ (∃ f ∈ w.flights, instant = f.due ∧ p = .flight f) ∨
      (∃ r ∈ w.refresh, instant = r.due ∧ p = .refresh r) ∨ ∃ t ∈ w.sweeper, instant = t.wake ∧ p = .sweeper t := by
  simp [waiting, eq_comm]

/-! ## How much is left to do -/

/-- the steps up to an instant at most -/
def work (w : GatewayClock) (target : Nat) : Nat :=
  (w.flights.map fun f => f.landings.length + 1).sum
    + w.refresh.elim 0 (fun r => 2 * (target + 1 - r.ticker.due) + r.fetch.toList.length)
    + w.sweeper.elim 0 (fun t => target + 1 - t.due)

theorem work_le_stepBound (w : GatewayClock) (target : Nat) : w.work target ≤ w.stepBound target := by
  have hrefresh : w.refresh.elim 0 (fun r => 2 * (target + 1 - r.ticker.due) + r.fetch.toList.length) ≤
      w.refresh.elim 0 (fun r => 2 * (target + 1 - r.ticker.due) + 1) := by
    cases w.refresh with
    | none => exact Nat.le_refl 0
    | some r => cases hfetch : r.fetch <;> simp [hfetch]
  exact Nat.add_le_add_right (Nat.add_le_add_left hrefresh _) _

/-- the ends of sends that are still to come after those that are due -/
def later (w : GatewayClock) (f : Flight) : List Landing := f.landings.filter fun l => !decide (l.ends ≤ w.now)

theorem land_eq (w : GatewayClock) (f : Flight) :
    w.land f =
      let gateway := ((f.landings.filter fun l => l.ends ≤ w.now).filterMap Landing.answer).foldl
        (fun s a => Gateway.respond w.setup s a.1 a.2) w.gateway
      if (w.later f).isEmpty then
        { w with
          gateway := Gateway.finish w.setup gateway f.call f.legs
          flights := w.flights.filter fun x => x.call ≠ f.call }
      else
        { w with
          gateway
          flights := w.flights.map fun x => if x.call = f.call then { f with landings := w.later f } else x } := by
  simp only [land, later, List.partition_eq_filter_filter]
  rfl

/-- the sum of sizes after a change of the flights of a call -/
theorem sum_lt {fs : List Flight} (hcalls : (fs.map Flight.call).Nodup) (hf : f ∈ fs) {n : Nat}
    (hn : n < f.landings.length + 1) :
    (fs.map fun x => if x.call = f.call then n else x.landings.length + 1).sum <
      (fs.map fun x => x.landings.length + 1).sum := by
  apply List.sum_lt_sum
  · intro x hx
    split_ifs with hcall
    · obtain rfl : x = f := List.inj_on_of_nodup_map hcalls hx hf hcall
      exact Nat.le_of_lt hn
    · exact Nat.le_refl _
  · exact ⟨f, hf, by rwa [if_pos rfl]⟩

theorem sum_filter (fs : List Flight) (call : Nat) :
    ((fs.filter fun x => x.call ≠ call).map fun x => x.landings.length + 1).sum =
      (fs.map fun x => if x.call = call then 0 else x.landings.length + 1).sum := by
  induction fs with
  | nil => rfl
  | cons x fs ih => by_cases hcall : x.call = call <;> simp_all

/-- sends that are due end, or a flight without any is over -/
theorem work_land (h : (w.flights.map Flight.call).Nodup) (hf : f ∈ w.flights) (hdue : f.due ≤ w.now) :
    (w.land f).work target < w.work target := by
  have hflights : ((w.land f).flights.map fun x => x.landings.length + 1).sum <
      (w.flights.map fun x => x.landings.length + 1).sum := by
    rw [land_eq]
    simp only
    split_ifs with hnone
    · rw [sum_filter]
      exact sum_lt h hf (Nat.succ_pos _)
    · have hlater : (w.later f).length < f.landings.length := by
        have hsome : f.landings ≠ [] := by
          intro hempty
          simp [later, hempty] at hnone
        obtain ⟨l, hl, hends⟩ := Flight.exists_due hsome
        exact List.length_filter_lt_length_iff_exists.2 ⟨l, hl, by simp [hends, hdue]⟩
      have hsum := sum_lt h hf (Nat.succ_lt_succ hlater)
      rw [List.map_map]
      convert hsum using 3
      funext x
      rw [Function.comp]
      split_ifs <;> rfl
  have hrest : (w.land f).refresh = w.refresh ∧ (w.land f).sweeper = w.sweeper := by
    rw [land_eq]
    simp only
    split_ifs <;> exact ⟨rfl, rfl⟩
  unfold work
  rw [hrest.1, hrest.2]
  omega

theorem work_refresh {r : Allowlist.Refresh} (hr : r ∈ w.refresh) (hdue : r.due ≤ target) :
    (w.stepRefresh r).work target < w.work target := by
  have hwake : r.ticker.due ≤ r.ticker.wake := Time.le_wake r.ticker.due
  rw [Option.mem_def] at hr
  unfold stepRefresh
  split
  · next f hfetch => simp [work, hr, hfetch, Allowlist.Refresh.finish]
  · next hfetch =>
    have hnext := Time.Ticker.due_lt_due_advance r.ticker w.now
    simp only [Allowlist.Refresh.due, hfetch] at hdue
    simp [work, hr, hfetch, Allowlist.Refresh.begin]
    omega
  · cases hfetch : r.fetch with
    | none =>
      simp only [Allowlist.Refresh.due, hfetch] at hdue
      simp [work, hr, hfetch]
      omega
    | some f => simp [work, hr, hfetch]

/-- **Every step leaves less to do** -/
theorem work_go (h : (w.flights.map Flight.call).Nodup) (hp : (instant, p) ∈ w.waiting) (hinstant : instant ≤ target) :
    (w.go instant p).work target < w.work target := by
  rcases mem_waiting.1 hp with ⟨f, hf, rfl, rfl⟩ | ⟨r, hr, rfl, rfl⟩ | ⟨t, ht, rfl, rfl⟩
  · exact work_land (w := { w with now := max w.now f.due }) h hf (Nat.le_max_right _ _)
  · exact work_refresh (w := { w with now := max w.now r.due }) hr hinstant
  · have hdue := Time.Ticker.due_lt_due_advance t (max w.now t.wake)
    have hwake : t.due ≤ t.wake := Time.le_wake t.due
    rw [Option.mem_def] at ht
    simp [go, work, ht]
    omega

/-! ## The gateway on the clock -/

/-- what a gateway on the virtual clock can come to: the gateway has got there in a run on a clock of milliseconds, and
all that waits does so for whole milliseconds -/
structure Steady (b : Built) (w : GatewayClock) : Prop where
  setup : w.setup = b.setup
  timed : ∃ ops, w.gateway = reached w.scheme b ops ∧ Timed w.scheme b ops w.now w.sweeper
  calls : (w.flights.map Flight.call).Nodup
  fresh : ∀ f ∈ w.flights, f.call < w.receivers.opened
  landings : ∀ f ∈ w.flights, ∀ l ∈ f.landings, Whole l.ends
  refresh : ∀ r ∈ w.refresh, Whole r.limit ∧ ∀ f ∈ r.fetch, Whole f.ends
  connections : ∀ c ∈ w.connections, c.2.conduct.Whole
  source : ∀ s ∈ w.source, s.manner.Whole

variable {b : Built}

theorem Steady.whole_now (h : Steady b w) : Whole w.now := by
  obtain ⟨ops, -, htimed⟩ := h.timed
  exact htimed.whole

theorem Steady.whole_instant (h : Steady b w) (hp : (instant, p) ∈ w.waiting) : Whole instant := by
  rcases mem_waiting.1 hp with ⟨f, hf, rfl, -⟩ | ⟨r, hr, rfl, -⟩ | ⟨t, -, rfl, -⟩
  · exact Flight.whole_due (h.landings f hf)
  · unfold Allowlist.Refresh.due
    split
    · next f hfetch => exact (h.refresh r hr).2 f hfetch
    · exact Time.whole_wake _
  · exact Time.whole_wake _

/-- an operation that comes in leaves everything that waits as it is -/
theorem Steady.other (h : Steady b w) (o : Op) (ho : o.comesAt w.now) :
    Steady b { w with gateway := step w.scheme w.setup w.gateway o } := by
  obtain ⟨ops, hgateway, htimed⟩ := h.timed
  refine { h with timed := ⟨ops ++ [o], ?_, htimed.other o ho⟩ }
  rw [Gateway.reached_snoc, hgateway, h.setup]

theorem Steady.responds (h : Steady b w) (answers : List (String × Message)) :
    Steady b { w with gateway := answers.foldl (fun s a => Gateway.respond w.setup s a.1 a.2) w.gateway } := by
  induction answers generalizing w with
  | nil => exact h
  | cons a answers ih => exact ih (h.other (.respond a.1 a.2) trivial)

/-- time passes, but not beyond what waits -/
theorem Steady.pass (h : Steady b w) {later : Nat} (hlater : w.now ≤ later) (hwhole : Whole later)
    (hwait : ∀ t ∈ w.sweeper, later ≤ t.wake) : Steady b { w with now := later } := by
  obtain ⟨ops, hgateway, htimed⟩ := h.timed
  exact { h with timed := ⟨ops, hgateway, htimed.pass later hlater hwhole hwait⟩ }

theorem Steady.land (h : Steady b w) (hf : f ∈ w.flights) : Steady b (w.land f) := by
  have hgateway := h.responds ((f.landings.filter fun l => l.ends ≤ w.now).filterMap Landing.answer)
  rw [land_eq]
  simp only
  split_ifs
  · have hover := hgateway.other (.finish f.call f.legs) trivial
    refine { hover with calls := ?_, fresh := ?_, landings := ?_ }
    · exact h.calls.sublist (List.filter_sublist.map _)
    · intro x hx
      exact h.fresh x (List.mem_of_mem_filter hx)
    · intro x hx
      exact h.landings x (List.mem_of_mem_filter hx)
  · have hfrom : ∀ x ∈ w.flights.map fun x => if x.call = f.call then { f with landings := w.later f } else x,
        ∃ y ∈ w.flights, x.call = y.call ∧ ∀ l ∈ x.landings, l ∈ y.landings := by
      intro x hx
      obtain ⟨y, hy, rfl⟩ := List.mem_map.1 hx
      split_ifs with hcall
      · exact ⟨f, hf, rfl, fun l hl => List.mem_of_mem_filter hl⟩
      · exact ⟨y, hy, rfl, fun l hl => hl⟩
    refine { hgateway with calls := ?_, fresh := ?_, landings := ?_ }
    · have hcalls : (w.flights.map fun x => if x.call = f.call then { f with landings := w.later f } else x).map
          Flight.call = w.flights.map Flight.call := by
        rw [List.map_map]
        apply List.map_congr_left
        intro x hx
        rw [Function.comp]
        split_ifs with hcall
        · exact hcall.symm
        · rfl
      rw [hcalls]
      exact h.calls
    · intro x hx
      obtain ⟨y, hy, hcall, -⟩ := hfrom x hx
      rw [hcall]
      exact h.fresh y hy
    · intro x hx l hl
      obtain ⟨y, hy, -, hsub⟩ := hfrom x hx
      exact h.landings y hy l (hsub l hl)

theorem Steady.stepRefresh (h : Steady b w) {r : Allowlist.Refresh} (hr : r ∈ w.refresh) :
    Steady b (w.stepRefresh r) := by
  obtain ⟨hlimit, hfetch⟩ := h.refresh r hr
  unfold GatewayClock.stepRefresh
  split
  · next source contract f _ _ _ =>
    refine { h.other (.refresh (f.result contract r.limit source)) trivial with refresh := ?_ }
    rintro _ ⟨⟩
    exact ⟨hlimit, by simp [Allowlist.Refresh.finish]⟩
  · next source hsource _ =>
    refine { h with refresh := ?_ }
    rintro _ ⟨⟩
    refine ⟨hlimit, ?_⟩
    rintro _ ⟨⟩
    exact Allowlist.whole_start h.whole_now hlimit (h.source source hsource)
  · refine { h with refresh := ?_ }
    simp

theorem Steady.le_wake (h : Steady b w) : ∀ t ∈ w.sweeper, w.now ≤ t.wake := by
  obtain ⟨ops, -, htimed⟩ := h.timed
  intro t ht
  exact (htimed.ticking t ht).unmissed

/-- **A step of the clock is a step of the gateway**, or time that passes for it -/
theorem Steady.go (h : Steady b w) (hp : (instant, p) ∈ w.waiting) (hleast : ∀ q ∈ w.waiting, instant ≤ q.1) :
    Steady b (w.go instant p) := by
  have hpassed : Steady b { w with now := max w.now instant } := by
    apply h.pass (Nat.le_max_left _ _) (h.whole_now.max (h.whole_instant hp))
    intro t ht
    exact Nat.max_le.2 ⟨h.le_wake t ht, hleast (t.wake, .sweeper t) (mem_waiting.2 (.inr (.inr ⟨t, ht, rfl, rfl⟩)))⟩
  rcases mem_waiting.1 hp with ⟨f, hf, rfl, rfl⟩ | ⟨r, hr, rfl, rfl⟩ | ⟨t, ht, rfl, rfl⟩
  · exact hpassed.land hf
  · exact hpassed.stepRefresh hr
  · obtain ⟨ops, hgateway, htimed⟩ := hpassed.timed
    simp only [Option.mem_def.1 ht] at hgateway htimed
    refine { hpassed with timed := ⟨_, ?_, htimed.turn (Nat.le_max_right _ _)⟩ }
    simp only [GatewayClock.go, Gateway.reached_snoc, ← hgateway, h.setup]
    rfl

theorem now_go (w : GatewayClock) (instant : Nat) (p : Part) : (w.go instant p).now = max w.now instant := by
  cases p with
  | flight f =>
    rw [GatewayClock.go, land_eq]
    simp only
    split_ifs <;> rfl
  | refresh r =>
    rw [GatewayClock.go, GatewayClock.stepRefresh]
    split <;> rfl
  | sweeper t => rfl

/-- **Everything that falls due is dealt with**, and the steps are enough for it -/
theorem Steady.settle (h : Steady b w) (hnow : w.now ≤ target) {fuel : Nat} (hfuel : w.work target ≤ fuel) :
    Steady b (settle fuel target w) ∧ (settle fuel target w).now ≤ target ∧
      ∀ q ∈ (settle fuel target w).waiting, target < q.1 := by
  induction fuel generalizing w with
  | zero =>
    -- whatever were due would be work that is left
    refine ⟨h, hnow, ?_⟩
    intro q hq
    by_contra hdue
    have hless := work_go h.calls hq (Nat.le_of_not_lt hdue)
    rw [Nat.le_zero.1 hfuel] at hless
    exact Nat.not_lt_zero _ hless
  | succ fuel ih =>
    rw [GatewayClock.settle]
    cases hfirst : earliest w.waiting with
    | none =>
      refine ⟨h, hnow, ?_⟩
      simp [earliest_eq_none hfirst]
    | some q =>
      obtain ⟨instant, p⟩ := q
      obtain ⟨hp, hleast⟩ := earliest_eq_some hfirst
      simp only
      split_ifs with hdue
      · have hless := work_go h.calls hp hdue
        apply ih (h.go hp hleast) _ (by omega)
        rw [now_go]
        exact Nat.max_le.2 ⟨hnow, hdue⟩
      · refine ⟨h, hnow, ?_⟩
        intro q hq
        exact (Nat.lt_of_not_le hdue).trans_le (hleast q hq)

/-- **Time passes up to an instant**, and nothing is left that was due by then -/
theorem Steady.advanceTo (h : Steady b w) (hnow : w.now ≤ target) (hwhole : Whole target) :
    Steady b (w.advanceTo target) ∧ (w.advanceTo target).now = target ∧
      ∀ q ∈ (w.advanceTo target).waiting, target < q.1 := by
  obtain ⟨hsteady, hle, hdone⟩ := h.settle hnow (w.work_le_stepBound target)
  have htarget : max (GatewayClock.settle (w.stepBound target) target w).now target = target := Nat.max_eq_right hle
  have hpassed := hsteady.pass hle hwhole fun t ht =>
    Nat.le_of_lt (hdone (t.wake, .sweeper t) (mem_waiting.2 (.inr (.inr ⟨t, ht, rfl, rfl⟩))))
  unfold GatewayClock.advanceTo
  simp only [htarget]
  exact ⟨hpassed, trivial, hdone⟩

/-! ## Operations -/

theorem Steady.start (S : Crypto.Scheme) (b : Built) {connections : FanOut.Connections}
    {source : Option Allowlist.Source} (hconnections : ∀ c ∈ connections, c.2.conduct.Whole)
    (hsource : ∀ s ∈ source, s.manner.Whole) : Steady b (.start S b connections source) where
  setup := rfl
  timed := ⟨[], rfl, .built Time.whole_zero⟩
  calls := List.nodup_nil
  fresh := by simp [GatewayClock.start]
  landings := by simp [GatewayClock.start]
  refresh := by simp [GatewayClock.start]
  connections := hconnections
  source := hsource

theorem whole_timeout (g : Gateway.Setup) : Whole g.timeout := Time.whole_millis _

theorem Steady.submit (h : Steady b w) (m : Message) {cancel : FanOut.Cancel} (hcancel : cancel.Whole) (front : Bool) :
    Steady b (w.submit m cancel front).1 ∧ (w.submit m cancel front).1.now = w.now ∧
      w.now ≤ (w.submit m cancel front).2 ∧ Whole (w.submit m cancel front).2 := by
  let f := Flight.launch w.connections cancel w.setup.timeout w.now w.receivers.opened w.setup.network.members m
  have hlandings : ∀ l ∈ f.landings, Whole l.ends := by
    intro l hl
    obtain ⟨leg, hleg, rfl⟩ := List.mem_map.1 hl
    exact h.whole_now.add (FanOut.whole_legs h.connections hcancel (whole_timeout w.setup) _ leg hleg)
  have hcalled : Steady b { w with
      gateway := Gateway.submit w.scheme w.setup w.gateway w.now w.receivers.opened m
      receivers := w.receivers.add } := by
    refine { h.other (.submit w.now w.receivers.opened m) rfl with fresh := ?_ }
    intro x hx
    exact Nat.lt_succ_of_lt (h.fresh x hx)
  have hflown : ∀ fs, fs.Perm (f :: w.flights) → Steady b { w with
      gateway := Gateway.submit w.scheme w.setup w.gateway w.now w.receivers.opened m
      receivers := w.receivers.add
      flights := fs
      called := w.called ++ FanOut.called w.connections cancel w.setup.network.members } := by
    intro fs hfs
    refine { hcalled with calls := ?_, fresh := ?_, landings := ?_ }
    · rw [(hfs.map Flight.call).nodup_iff, List.map_cons, List.nodup_cons]
      refine ⟨?_, h.calls⟩
      intro hmem
      obtain ⟨x, hx, hcall⟩ := List.mem_map.1 hmem
      exact Nat.lt_irrefl _ (hcall ▸ h.fresh x hx)
    · intro x hx
      rcases List.mem_cons.1 (hfs.subset hx) with rfl | hx
      · exact Nat.lt_succ_self _
      · exact hcalled.fresh x hx
    · intro x hx
      rcases List.mem_cons.1 (hfs.subset hx) with rfl | hx
      · exact hlandings
      · exact h.landings x hx
  have hends : Whole (max w.now f.ends) := h.whole_now.max (Flight.whole_ends hlandings)
  unfold GatewayClock.submit
  simp only
  split_ifs
  · exact ⟨hflown _ (List.Perm.refl _), rfl, Nat.le_max_left _ _, hends⟩
  · exact ⟨hflown _ (List.perm_append_singleton _ _), rfl, Nat.le_max_left _ _, hends⟩
  · exact ⟨hcalled, rfl, Nat.le_refl _, h.whole_now⟩

/-- what a gateway on the virtual clock comes to when it is left alone: nothing is due -/
structure Settled (b : Built) (w : GatewayClock) : Prop extends Steady b w where
  idle : ∀ q ∈ w.waiting, w.now < q.1

theorem Steady.settled (h : Steady b w) (hnow : w.now ≤ target) (hwhole : Whole target) :
    Settled b (w.advanceTo target) := by
  obtain ⟨hsteady, htarget, hdone⟩ := h.advanceTo hnow hwhole
  exact ⟨hsteady, by rwa [htarget]⟩

theorem Settled.user (h : Settled b w) (m : Message) {cancel : FanOut.Cancel} (hcancel : cancel.Whole) :
    Settled b (w.user m cancel).1 := by
  obtain ⟨hsteady, hnow, hends, hwhole⟩ := h.toSteady.submit m hcancel true
  exact hsteady.settled (hnow.trans_le hends) hwhole

theorem Settled.userInBackground (h : Settled b w) (m : Message) {cancel : FanOut.Cancel} (hcancel : cancel.Whole) :
    Settled b (w.userInBackground m cancel).1 := by
  have hnoted : Steady b { w with background := w.background ++ [(w.receivers.opened, w.background.length)] } :=
    { h.toSteady with }
  obtain ⟨hsteady, hnow, -, -⟩ := hnoted.submit m hcancel false
  exact hsteady.settled (Nat.le_refl _) hsteady.whole_now

theorem Settled.startWork (h : Settled b w) : Settled b w.startWork.1 := by
  obtain ⟨ops, hgateway, htimed⟩ := h.timed
  have hstart := htimed.start
  rw [Gateway.swept, ← hgateway] at hstart
  have hreached : (Gateway.start w.gateway).1 = reached w.scheme b (ops ++ [.start]) := by
    rw [Gateway.reached_snoc, hgateway]
    rfl
  unfold GatewayClock.startWork
  split
  · next gateway e hfailed =>
    rw [hfailed] at hstart hreached
    exact ⟨{ h.toSteady with timed := ⟨_, hreached, hstart⟩ }, h.idle⟩
  · next gateway hdone =>
    rw [hdone] at hstart hreached
    have hbegun : Steady b { w with
        gateway
        refresh := w.setup.settings.allowlist.map fun a =>
          Allowlist.Refresh.start w.now (Time.seconds a.updateFrequencySec) (Time.seconds a.updateTimeoutSec)
        sweeper := some (.start w.now w.setup.sweepInterval) } := by
      refine { h.toSteady with timed := ⟨_, hreached, ?_⟩, refresh := ?_ }
      · rw [h.setup]
        exact hstart
      · intro r hr
        obtain ⟨a, -, rfl⟩ := Option.map_eq_some_iff.1 hr
        exact ⟨Time.whole_seconds _, by simp [Allowlist.Refresh.start]⟩
    exact hbegun.settled (Nat.le_refl _) h.whole_now

/-! ## Runs -/

/-- the runs of a gateway on the virtual clock that is not closed: users call and wait or do not wait, nodes answer of
their own accord, the background work is started, and time passes, all in whole milliseconds; in between the network and
the source of the allow-list may change -/
inductive Simulated (b : Built) : GatewayClock → Prop where
  | start (S : Crypto.Scheme) (connections : FanOut.Connections) (source : Option Allowlist.Source)
    (hconnections : ∀ c ∈ connections, c.2.conduct.Whole) (hsource : ∀ s ∈ source, s.manner.Whole) :
    Simulated b (.start S b connections source)
  | user {w : GatewayClock} (h : Simulated b w) (m : Message) (cancel : FanOut.Cancel) (hcancel : cancel.Whole) :
    Simulated b (w.user m cancel).1
  | userInBackground {w : GatewayClock} (h : Simulated b w) (m : Message) (cancel : FanOut.Cancel)
    (hcancel : cancel.Whole) : Simulated b (w.userInBackground m cancel).1
  | respond {w : GatewayClock} (h : Simulated b w) (node : String) (m : Message) : Simulated b (w.respond node m)
  | startWork {w : GatewayClock} (h : Simulated b w) : Simulated b w.startWork.1
  | advance {w : GatewayClock} (h : Simulated b w) (span : Nat) (hspan : Whole span) :
    Simulated b (w.advanceTo (w.now + span))
  | report {w : GatewayClock} (h : Simulated b w) : Simulated b w.report.1
  | drop {w : GatewayClock} (h : Simulated b w) (callback : Nat) :
    Simulated b { w with receivers := (w.receivers.drop callback).1 }
  | surroundings {w : GatewayClock} (h : Simulated b w) (connections : FanOut.Connections)
    (source : Option Allowlist.Source) (hconnections : ∀ c ∈ connections, c.2.conduct.Whole)
    (hsource : ∀ s ∈ source, s.manner.Whole) : Simulated b { w with connections, source }

theorem Simulated.settled (h : Simulated b w) : Settled b w := by
  induction h with
  | start S connections source hconnections hsource =>
    exact ⟨Steady.start S b hconnections hsource, by simp [waiting, GatewayClock.start]⟩
  | user _ m cancel hcancel ih => exact ih.user m hcancel
  | userInBackground _ m cancel hcancel ih => exact ih.userInBackground m hcancel
  | respond _ node m ih => exact ⟨ih.toSteady.other (.respond node m) trivial, ih.idle⟩
  | startWork _ ih => exact ih.startWork
  | advance _ span hspan ih => exact ih.toSteady.settled (Nat.le_add_right _ _) (ih.whole_now.add hspan)
  | report _ ih => exact ⟨{ ih.toSteady with }, ih.idle⟩
  | drop _ callback ih => exact ⟨{ ih.toSteady with }, ih.idle⟩
  | surroundings _ connections source hconnections hsource ih =>
    exact ⟨{ ih.toSteady with connections := hconnections, source := hsource }, ih.idle⟩

/-- **The virtual clock keeps to the clock of the gateway**: what a simulated gateway comes to, it comes to in a run on
a clock of milliseconds in which the sweeper has taken all turns that are due -/
theorem Simulated.timed (h : Simulated b w) :
    ∃ ops, w.gateway = reached w.scheme b ops ∧ Timed w.scheme b ops w.now w.sweeper ∧
      ∀ t ∈ w.sweeper, w.now < t.wake := by
  obtain ⟨ops, hgateway, htimed⟩ := h.settled.toSteady.timed
  refine ⟨ops, hgateway, htimed, ?_⟩
  intro t ht
  exact h.settled.idle (t.wake, .sweeper t) (mem_waiting.2 (.inr (.inr ⟨t, ht, rfl, rfl⟩)))

/-- **No request outlives its time by a period** while a simulated gateway sweeps -/
theorem Simulated.prompt (h : Simulated b w) {t : Time.Ticker} (ht : w.sweeper = some t) :
    ∀ e ∈ w.gateway.table.entries, w.now < e.deadline + b.setup.sweepInterval := by
  obtain ⟨ops, hgateway, htimed, hwake⟩ := h.timed
  rw [hgateway]
  exact (htimed.ticking t ht).prompt htimed.whole (hwake t ht)

end GatewayClock

end Simulation

end QuorumGateway
