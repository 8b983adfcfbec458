import QuorumGateway.Proofs.FanOut.Race
/-!
What a fan-out reports. Whatever course its race takes, each member has one leg, in the order of the configuration, and
the leg ends as one of the things does that the task of the member waits for (`Ran`). So the report accounts for each
member once (`Tally`): a send that ends with an error, or not in time, is lost, and one that ends well before the limit
and the cancellation is not. Only at the very instant of the cancellation may it go either way (`tied`).

- `ran_of_returned`, `ran_legs`: the legs of a race, and those that the gateway reckons with for the local network.
- `Concluded.addresses`: whichever of these a call ends with, they are one for each member.
- `fan_out_accounted`: the report accounts for every member once, over any network and in any order of events; over the
  local network nobody is reached after a cancellation, and unless something ends at the instant of the cancellation all
  races come to the legs that the gateway reckons with.
-/

namespace QuorumGateway.FanOut

variable {limit : Nat} {cancelledAt : Option Nat} {a : Attempt} {members : List Member} {ls ls' : List Leg}

/-! ## Sends that are lost -/

namespace Attempt

/-- a send ends with an error, or has not ended when the limit is reached or the caller cancels -/
def Lost (a : Attempt) (limit : Nat) (cancelledAt : Option Nat) : Prop :=
  a.error ≠ none ∨ a.endsBy limit = false ∨ ∃ c ∈ cancelledAt, a.endsBy c = false

/-- a send ends without an error by the limit, and before the caller cancels -/
def Won (a : Attempt) (limit : Nat) (cancelledAt : Option Nat) : Prop :=
  a.error = none ∧ ∃ span ∈ a.span, span ≤ limit ∧ ∀ c ∈ cancelledAt, span < c

/-- a send that is neither lost nor won ends when the caller cancels -/
theorem tied (hlost : ¬ a.Lost limit cancelledAt) (hwon : ¬ a.Won limit cancelledAt) :
    ∃ c ∈ cancelledAt, c ∈ a.span := by
  simp only [Lost, not_or, not_not, Bool.not_eq_false, not_exists, not_and, endsBy_iff] at hlost
  obtain ⟨hnone, ⟨span, hspan, hlimit⟩, hcancel⟩ := hlost
  by_contra hapart
  refine hwon ⟨hnone, span, hspan, hlimit, fun c hc => ?_⟩
  obtain ⟨span', hspan', hle⟩ := hcancel c hc
  obtain rfl : span' = span := Option.mem_unique hspan' hspan
  refine Nat.lt_of_le_of_ne hle ?_
  rintro rfl
  exact hapart ⟨_, hc, hspan⟩

end Attempt

namespace Ending

variable {span span' : Nat} {error error' : Option String}

theorem le_limit (h : Ending limit cancelledAt a span error) : span ≤ limit := by
  cases h with
  | sent _ hlimit => exact hlimit
  | timedOut => exact le_rfl
  | cancelled _ _ hlimit => exact hlimit

theorem le_cancel (h : Ending limit cancelledAt a span error) : ∀ c ∈ cancelledAt, span ≤ c := by
  cases h with
  | sent _ _ hcancel => exact hcancel
  | timedOut _ hcancel => exact hcancel
  | cancelled hc => exact fun c' hc' => (Option.mem_unique hc hc').le

theorem error_of_lost (h : Ending limit cancelledAt a span error) (hlost : a.Lost limit cancelledAt) :
    error ≠ none := by
  cases h with
  | sent hspan hlimit hcancel =>
    rcases hlost with herror | hends | ⟨c, hc, hends⟩
    · exact herror
    · exact absurd hlimit (Nat.not_le.2 (Attempt.not_endsBy_iff.1 hends _ hspan))
    · exact absurd (hcancel c hc) (Nat.not_le.2 (Attempt.not_endsBy_iff.1 hends _ hspan))
  | timedOut => exact Option.some_ne_none _
  | cancelled => exact Option.some_ne_none _

theorem error_of_won (h : Ending limit cancelledAt a span error) (hwon : a.Won limit cancelledAt) : error = none := by
  obtain ⟨hnone, span', hspan', hlimit', hcancel'⟩ := hwon
  cases h with
  | sent => exact hnone
  | timedOut hspan => exact absurd hlimit' (Nat.not_le.2 (hspan _ hspan'))
  | cancelled hc hspan => exact absurd (hcancel' _ hc) (Nat.not_lt.2 (hspan _ hspan'))

/-- a send that a cancellation came before fails at once -/
theorem of_refused (h : Ending limit (some 0) ⟨some 0, some FanOut.cancelled⟩ span error) :
    span = 0 ∧ error = some FanOut.cancelled := by
  cases h with
  | sent hspan => exact ⟨(Option.some.inj hspan).symm, rfl⟩
  | timedOut hspan => exact absurd (hspan 0 rfl) (Nat.not_lt_zero _)
  | cancelled hc => exact ⟨(Option.some.inj hc).symm, rfl⟩

/-- unless the send or the limit comes at the very instant of the cancellation, there is only one way to end -/
theorem unique (hapart : ∀ c ∈ cancelledAt, c ≠ limit ∧ c ∉ a.span) (h : Ending limit cancelledAt a span error)
    (h' : Ending limit cancelledAt a span' error') : span = span' ∧ error = error' := by
  cases h with
  | sent hspan hlimit hcancel =>
    cases h' with
    | sent hspan' => exact ⟨Option.mem_unique hspan hspan', rfl⟩
    | timedOut hspan' => exact absurd hlimit (Nat.not_le.2 (hspan' _ hspan))
    | cancelled hc hspan' =>
      obtain rfl := Nat.le_antisymm (hcancel _ hc) (hspan' _ hspan)
      exact absurd hspan (hapart _ hc).2
  | timedOut hspan hcancel =>
    cases h' with
    | sent hspan' hlimit' => exact absurd hlimit' (Nat.not_le.2 (hspan _ hspan'))
    | timedOut => exact ⟨rfl, rfl⟩
    | cancelled hc _ hlimit' => exact absurd (Nat.le_antisymm hlimit' (hcancel _ hc)) (hapart _ hc).1
  | cancelled hc hspan hlimit =>
    cases h' with
    | sent hspan' _ hcancel' =>
      obtain rfl := Nat.le_antisymm (hcancel' _ hc) (hspan _ hspan')
      exact absurd hspan' (hapart _ hc).2
    | timedOut _ hcancel' => exact absurd (Nat.le_antisymm hlimit (hcancel' _ hc)) (hapart _ hc).1
    | cancelled hc' => exact ⟨Option.mem_unique hc hc', rfl⟩

end Ending

/-! ## One leg for each member -/

/-- the legs of a fan-out, one for each member in the order of the configuration; `sends` says what the send to a member
does, by the place of the member and its address -/
structure Ran (limit : Nat) (cancelledAt : Option Nat) (sends : Nat → String → Attempt) (members : List Member)
    (ls : List Leg) : Prop where
  addresses : ls.map Leg.address = members.map Member.address
  ends : ∀ (i : Nat) (l : Leg), ls[i]? = some l → Ending limit cancelledAt (sends i l.address) l.span l.error

theorem length_of_addresses (h : ls.map Leg.address = members.map Member.address) : ls.length = members.length := by
  calc ls.length = (ls.map Leg.address).length := (List.length_map _).symm
    _ = (members.map Member.address).length := congrArg List.length h
    _ = members.length := List.length_map _

theorem Ran.length_eq {sends : Nat → String → Attempt} (h : Ran limit cancelledAt sends members ls) :
    ls.length = members.length :=
  length_of_addresses h.addresses

theorem Ran.address_eq {sends : Nat → String → Attempt} (h : Ran limit cancelledAt sends members ls) {i : Nat} {l : Leg}
    {m : Member} (hl : ls[i]? = some l) (hm : members[i]? = some m) : l.address = m.address := by
  have haddress := congrArg (·[i]?) h.addresses
  simpa [hl, hm] using haddress

/-- two fan-outs have the same legs if each of their sends can end in one way only -/
theorem Ran.eq {sends sends' : Nat → String → Attempt} (h : Ran limit cancelledAt sends members ls)
    (h' : Ran limit cancelledAt sends' members ls')
    (hunique : ∀ i m, members[i]? = some m → ∀ span error span' error',
      Ending limit cancelledAt (sends i m.address) span error →
      Ending limit cancelledAt (sends' i m.address) span' error' → span = span' ∧ error = error') : ls = ls' := by
  refine List.ext_getElem (h.length_eq.trans h'.length_eq.symm) fun i hi hi' => ?_
  have hl := List.getElem?_eq_getElem hi
  have hl' := List.getElem?_eq_getElem hi'
  have hm := List.getElem?_eq_getElem (h.length_eq ▸ hi)
  have haddress := h.address_eq hl hm
  have haddress' := h'.address_eq hl' hm
  obtain ⟨hspan, herror⟩ := hunique i _ hm _ _ _ _ (haddress ▸ h.ends i _ hl) (haddress' ▸ h'.ends i _ hl')
  calc ls[i] = ⟨ls[i].address, ls[i].span, ls[i].error⟩ := rfl
    _ = ls'[i] := by rw [haddress, ← haddress', hspan, herror]

theorem duration_le {n : Nat} (h : ∀ l ∈ ls, l.span ≤ n) : duration ls ≤ n := by
  have hfold : ∀ d ≤ n, ls.foldl (fun d l => max d l.span) d ≤ n := by
    induction ls with
    | nil => exact fun d hd => hd
    | cons l ls ih =>
      obtain ⟨hl, hls⟩ := List.forall_mem_cons.1 h
      exact fun d hd => ih hls _ (Nat.max_le.2 ⟨hd, hl⟩)
  exact hfold 0 (Nat.zero_le n)

/-- each leg either succeeds or fails -/
theorem report_total (ls : List Leg) : (report ls).succeeded + (report ls).failed.length = ls.length := by
  have hfailed : (failures ls).length = ls.countP fun l : Leg => decide ¬ l.error.isNone = true := by
    rw [failures, List.length_filterMap_eq_countP]
    refine List.countP_congr fun l _ => ?_
    simp [Option.isSome_iff_ne_none]
  rw [report, hfailed]
  exact (List.length_eq_countP_add_countP fun l : Leg => l.error.isNone).symm

theorem failures_eq (h : ls.map Leg.address = members.map Member.address) :
    failures ls = (members.zip ls).filterMap fun p => p.2.error.map fun e => (p.1.address, e) := by
  induction ls generalizing members with
  | nil => simp [failures]
  | cons l ls ih =>
    cases members with
    | nil => simp at h
    | cons m members =>
      obtain ⟨haddress, hrest⟩ := List.cons.inj h
      have hls := ih hrest
      rw [failures] at hls ⊢
      rw [List.zip_cons_cons, List.filterMap_cons, List.filterMap_cons, hls, haddress]

/-- what a fan-out reports of its members, and when it returns -/
structure Tally (limit : Nat) (cancelledAt : Option Nat) (sends : Nat → String → Attempt) (members : List Member)
    (ls : List Leg) : Prop where
  total : (report ls).succeeded + (report ls).failed.length = members.length
  inTime : duration ls ≤ limit ∧ ∀ c ∈ cancelledAt, duration ls ≤ c
  /-- the failed members are listed in the order of the configuration -/
  failed : (report ls).failed = (members.zip ls).filterMap fun p => p.2.error.map fun e => (p.1.address, e)
  one : ls.length = members.length
  lost : ∀ (i : Nat) (m : Member) (l : Leg), members[i]? = some m → ls[i]? = some l →
    (sends i m.address).Lost limit cancelledAt → l.error ≠ none
  won : ∀ (i : Nat) (m : Member) (l : Leg), members[i]? = some m → ls[i]? = some l →
    (sends i m.address).Won limit cancelledAt → l.error = none
  /-- only a send that ends at the very instant of the cancellation may go either way -/
  either : ∀ (i : Nat) (m : Member), members[i]? = some m → ¬ (sends i m.address).Lost limit cancelledAt →
    ¬ (sends i m.address).Won limit cancelledAt → ∃ c ∈ cancelledAt, c ∈ (sends i m.address).span

theorem Ran.tally {sends : Nat → String → Attempt} (h : Ran limit cancelledAt sends members ls) :
    Tally limit cancelledAt sends members ls := by
  have hending : ∀ l ∈ ls, ∃ a, Ending limit cancelledAt a l.span l.error := fun l hl =>
    have ⟨i, hi⟩ := List.getElem?_of_mem hl
    ⟨_, h.ends i l hi⟩
  refine ⟨(report_total ls).trans h.length_eq, ⟨duration_le fun l hl => ?_, fun c hc => duration_le fun l hl => ?_⟩,
    failures_eq h.addresses, h.length_eq, fun i m l hm hl hlost => ?_, fun i m l hm hl hwon => ?_,
    fun i m _ hlost hwon => Attempt.tied hlost hwon⟩
  · obtain ⟨a, ha⟩ := hending l hl
    exact ha.le_limit
  · obtain ⟨a, ha⟩ := hending l hl
    exact ha.le_cancel c hc
  · rw [← h.address_eq hl hm] at hlost
    exact (h.ends i l hl).error_of_lost hlost
  · rw [← h.address_eq hl hm] at hwon
    exact (h.ends i l hl).error_of_won hwon

/-! ## The legs of a race -/

/-- where a function gives something everywhere, filtering by it keeps the places -/
theorem getElem?_filterMap_of_some {α β : Type} {f : α → Option β} {l : List α} (h : ∀ x ∈ l, (f x).isSome) (i : Nat) :
    (l.filterMap f)[i]? = l[i]?.bind f := by
  induction l generalizing i with
  | nil => rfl
  | cons x l ih =>
    obtain ⟨hx, hl⟩ := List.forall_mem_cons.1 h
    obtain ⟨y, hy⟩ := Option.isSome_iff_exists.1 hx
    cases i with
    | zero => simp [hy]
    | succ i => simp [hy, ih hl]

namespace Race

variable {net : Network} {before : Bool} {s : Race}

theorem late_of_mem (h : Inv net limit before members s) {call : Call} (hcall : call ∈ s.calls) :
    s.late call.position = call.late := by
  rw [Bool.eq_iff_iff, late, List.any_eq_true]
  constructor
  · rintro ⟨call', hcall', hlate⟩
    simp only [Bool.and_eq_true, decide_eq_true_eq] at hlate
    rw [← List.inj_on_of_nodup_map h.once hcall' hcall hlate.1]
    exact hlate.2
  · exact fun hlate => ⟨call, hcall, by simp [hlate]⟩

/-- the task of a member that is done, its call and its end -/
theorem done_of_returned (h : Inv net limit before members s) (hreturned : s.Returned members) {i : Nat} {m : Member}
    (hm : members[i]? = some m) : ⟨i, m.address, s.late i⟩ ∈ s.calls ∧ ∃ span error, s.stages i = .done span error ∧
      Ending limit s.cancelledAt (net i m.address (s.late i)) span error := by
  obtain ⟨span, error, hdone⟩ := hreturned i (List.getElem?_eq_some_iff.1 hm).1
  have hcourse := h.course i m hm
  rw [hdone] at hcourse
  cases hcourse with
  | done hcall hending _ =>
    rw [late_of_mem h hcall]
    exact ⟨hcall, span, error, hdone, hending⟩

theorem getElem?_legs (hreturned : s.Returned members) (i : Nat) :
    (s.legs members)[i]? = members[i]?.bind fun m => (s.stages i).leg? m.address := by
  have hsome : ∀ p ∈ members.zipIdx, ((s.stages p.2).leg? p.1.address).isSome := by
    intro p hp
    obtain ⟨-, hlt, -⟩ := List.mem_zipIdx hp
    obtain ⟨span, error, hdone⟩ := hreturned p.2 (by omega)
    rw [hdone]
    rfl
  rw [legs, getElem?_filterMap_of_some hsome, List.getElem?_zipIdx]
  cases members[i]? <;> simp

theorem ran_of_returned (h : Inv net limit before members s) (hreturned : s.Returned members) :
    Ran limit s.cancelledAt (fun i address => net i address (s.late i)) members (s.legs members) := by
  refine ⟨List.ext_getElem? fun i => ?_, fun i l hl => ?_⟩
  · rw [List.getElem?_map, List.getElem?_map, getElem?_legs hreturned]
    cases hm : members[i]? with
    | none => rfl
    | some m =>
      obtain ⟨-, span, error, hdone, -⟩ := done_of_returned h hreturned hm
      simp [hdone, Stage.leg?]
  · rw [getElem?_legs hreturned, Option.bind_eq_some_iff] at hl
    obtain ⟨m, hm, hl⟩ := hl
    obtain ⟨-, span, error, hdone, hending⟩ := done_of_returned h hreturned hm
    rw [hdone] at hl
    cases hl
    exact hending

/-- when a fan-out returns, each member has been sent the message once, at its own address -/
theorem calls_perm (h : Inv net limit before members s) (hreturned : s.Returned members) :
    s.calls.Perm (members.zipIdx.map fun p => ⟨p.2, p.1.address, s.late p.2⟩) := by
  refine (List.perm_ext_iff_of_nodup (h.once.of_map _) ?_).2 fun call => ?_
  · refine List.Nodup.of_map Call.position ?_
    have hpositions := List.nodup_range' (s := 0) (n := members.length) 1
    rw [← List.zipIdx_map_snd] at hpositions
    rwa [List.map_map]
  · rw [List.mem_map]
    constructor
    · intro hcall
      obtain ⟨m, hm, haddress⟩ := h.addressed call hcall
      refine ⟨(m, call.position), List.mk_mem_zipIdx_iff_getElem?.2 hm, ?_⟩
      rw [late_of_mem h hcall, ← haddress]
    · rintro ⟨⟨m, i⟩, hp, rfl⟩
      exact (done_of_returned h hreturned (List.mk_mem_zipIdx_iff_getElem?.1 hp)).1

end Race

/-! ## The local network -/

/-- when a caller cancels, from the start of the fan-out -/
def Cancel.instant : Cancel → Option Nat
  | .never => none
  | .before => some 0
  | .after span => some span

/-- a send over the local network: it fails at once if the caller has cancelled before -/
def Connections.attempt (cs : Connections) (late : Bool) (address : String) : Attempt :=
  if late then ⟨some 0, some cancelled⟩
  else match cs.find? address with
    | none => notConnected address
    | some c => c.conduct.attempt

def Connections.network (cs : Connections) : Network := fun _ address late => cs.attempt late address

/-- the registered addresses of the connections that sends go through -/
def reached (cs : Connections) (calls : List Call) : List String :=
  calls.filterMap fun call => (route cs (if call.late then .before else .never) call.address).map Connection.address

/-- sends are given up at the limit or at the cancellation, whichever comes first -/
theorem cutoff_cases (limit : Nat) (cancel : Cancel) :
    (cutoff limit cancel = (limit, timedOut limit) ∧ ∀ c ∈ cancel.instant, limit ≤ c) ∨
      ∃ c ∈ cancel.instant, c ≤ limit ∧ cutoff limit cancel = (c, cancelled) := by
  cases cancel with
  | never => exact .inl ⟨rfl, fun c hc => by cases hc⟩
  | before => exact .inr ⟨0, rfl, Nat.zero_le _, rfl⟩
  | after span =>
    by_cases hspan : span ≤ limit
    · exact .inr ⟨span, rfl, hspan, if_pos hspan⟩
    · refine .inl ⟨if_neg hspan, ?_⟩
      rintro c ⟨⟩
      exact (Nat.lt_of_not_le hspan).le

theorem ending_bounded (limit : Nat) (cancel : Cancel) (address : String) (a : Attempt) :
    Ending limit cancel.instant a (bounded limit cancel address a).span (bounded limit cancel address a).error := by
  rcases cutoff_cases limit cancel with ⟨hcutoff, hcancel⟩ | ⟨c, hc, hlimit, hcutoff⟩ <;>
    simp only [bounded, hcutoff] <;> split
  · next hnever => exact .timedOut (by simp [hnever]) hcancel
  · next span hspan =>
    split_ifs with hle
    · exact .sent hspan hle fun c hc => hle.trans (hcancel c hc)
    · exact .timedOut (fun span' hspan' => Option.mem_unique hspan hspan' ▸ Nat.lt_of_not_le hle) hcancel
  · next hnever => exact .cancelled hc (by simp [hnever]) hlimit
  · next span hspan =>
    split_ifs with hle
    · exact .sent hspan (hle.trans hlimit) fun c' hc' => Option.mem_unique hc hc' ▸ hle
    · exact .cancelled hc (fun span' hspan' => Option.mem_unique hspan hspan' ▸ (Nat.lt_of_not_le hle).le) hlimit

theorem ran_legs (cs : Connections) (cancel : Cancel) (limit : Nat) (members : List Member) :
    Ran limit cancel.instant (fun _ => cs.attempt (decide (cancel = .before))) members
      (legs cs cancel limit members) := by
  have hlegs : legs cs cancel limit members =
      members.map fun m => bounded limit cancel m.address (cs.attempt (decide (cancel = .before)) m.address) := by
    refine List.map_congr_left fun m _ => congrArg (bounded limit cancel m.address) ?_
    by_cases hbefore : cancel = .before
    · simp [Connections.attempt, hbefore]
    · cases hfound : cs.find? m.address <;> simp [Connections.attempt, hbefore, hfound]
  have haddress : ∀ address a, (bounded limit cancel address a).address = address := by
    intro address a
    simp only [bounded]
    split
    · rfl
    · split_ifs <;> rfl
  rw [hlegs]
  refine ⟨?_, fun i l hl => ?_⟩
  · rw [List.map_map]
    exact List.map_congr_left fun m _ => haddress _ _
  · obtain ⟨m, -, rfl⟩ := List.mem_map.1 (List.mem_of_getElem? hl)
    rw [haddress]
    exact ending_bounded _ _ _ _

theorem report_refused (cs : Connections) (limit : Nat) (members : List Member) :
    report (legs cs .before limit members) = ⟨0, members.map fun m => (m.address, cancelled)⟩ := by
  have hlegs : legs cs .before limit members = members.map fun m => ⟨m.address, 0, some cancelled⟩ := rfl
  rw [hlegs, report, failures, List.filterMap_map]
  simp [List.countP_map, Function.comp_def, List.filterMap_eq_map']

namespace Race

variable {cs : Connections} {cancel : Cancel} {s : Race}

theorem reached_of_late (h : ∀ call ∈ s.calls, call.late = true) : reached cs s.calls = [] := by
  refine List.filterMap_eq_nil_iff.2 fun call hcall => ?_
  rw [h call hcall]
  rfl

/-- unless the caller cancels at the start, all sends begin before it does -/
theorem late_eq (h : Inv cs.network limit (decide (cancel = .before)) members s) (hreturned : s.Returned members)
    (hcancel : s.cancelledAt = cancel.instant) (hlater : cancel ≠ .before → ∀ c ∈ cancel.instant, 0 < c) {i : Nat}
    (hi : i < members.length) : s.late i = decide (cancel = .before) := by
  obtain ⟨hcall, -⟩ := done_of_returned h hreturned (List.getElem?_eq_getElem hi)
  by_cases hbefore : cancel = .before
  · rw [decide_eq_true hbefore]
    exact (h.before (decide_eq_true hbefore)).2 _ hcall
  · rw [decide_eq_false hbefore]
    refine Bool.eq_false_iff.2 fun hlate => ?_
    exact absurd (hlater hbefore 0 (hcancel ▸ h.late _ hcall hlate)) (Nat.lt_irrefl 0)

theorem legs_eq (h : Inv cs.network limit (decide (cancel = .before)) members s) (hreturned : s.Returned members)
    (hcancel : s.cancelledAt = cancel.instant)
    (hapart : cancel ≠ .before → ∀ c ∈ cancel.instant, 0 < c ∧ c ≠ limit ∧
      ∀ m ∈ members, c ∉ (cs.attempt false m.address).span) :
    s.legs members = FanOut.legs cs cancel limit members := by
  have hran := ran_of_returned h hreturned
  rw [hcancel] at hran
  refine hran.eq (ran_legs cs cancel limit members) fun i m hm span error span' error' hends hends' => ?_
  have hlate := late_eq h hreturned hcancel (fun hbefore c hc => (hapart hbefore c hc).1)
    (List.getElem?_eq_some_iff.1 hm).1
  rw [Connections.network, hlate] at hends
  by_cases hbefore : cancel = .before
  · subst hbefore
    obtain ⟨rfl, rfl⟩ := hends.of_refused
    obtain ⟨rfl, rfl⟩ := hends'.of_refused
    exact ⟨rfl, rfl⟩
  · rw [decide_eq_false hbefore] at hends hends'
    refine Ending.unique (fun c hc => ?_) hends hends'
    obtain ⟨-, hlimit, hspans⟩ := hapart hbefore c hc
    exact ⟨hlimit, hspans m (List.mem_of_getElem? hm)⟩

theorem reached_perm (h : Inv cs.network limit (decide (cancel = .before)) members s) (hreturned : s.Returned members)
    (hcancel : s.cancelledAt = cancel.instant) (hlater : cancel ≠ .before → ∀ c ∈ cancel.instant, 0 < c) :
    (reached cs s.calls).Perm (called cs cancel members) := by
  have hroute : ∀ p ∈ members.zipIdx, (route cs (if s.late p.2 then .before else .never) p.1.address).map
      Connection.address = (route cs cancel p.1.address).map Connection.address := by
    intro p hp
    obtain ⟨-, hlt, -⟩ := List.mem_zipIdx hp
    rw [late_eq h hreturned hcancel hlater (by omega)]
    by_cases hbefore : cancel = .before <;> simp [route, hbefore]
  have hcalled : called cs cancel members =
      members.zipIdx.filterMap fun p => (route cs cancel p.1.address).map Connection.address := by
    conv_lhs => rw [called, ← List.zipIdx_map_fst 0 members, List.filterMap_map]
    rfl
  have hperm := (calls_perm h hreturned).filterMap fun call =>
    (route cs (if call.late then .before else .never) call.address).map Connection.address
  rw [List.filterMap_map] at hperm
  rw [hcalled, ← List.filterMap_congr hroute]
  exact hperm

end Race

/-! ## What fan-outs come to -/

/-- legs that a fan-out to the members can come to: those that the gateway reckons with, and those of a race over any
network that has returned -/
inductive Concluded (members : List Member) : List Leg → Prop where
  | reckoned (cs : Connections) (cancel : Cancel) (limit : Nat) : Concluded members (legs cs cancel limit members)
  | raced (net : Network) (limit : Nat) (before : Bool) (es : List Race.Event)
    (hreturned : (Race.run net limit members (.start before) es).Returned members) :
    Concluded members ((Race.run net limit members (.start before) es).legs members)

/-- **One leg for each member**, at the member's address and in its place -/
theorem Concluded.addresses (h : Concluded members ls) : ls.map Leg.address = members.map Member.address := by
  cases h with
  | reckoned cs cancel limit => exact (ran_legs cs cancel limit members).addresses
  | raced net limit before es hreturned =>
    have hinv := Race.run_inv (Race.inv_start net limit before members) es
    exact (Race.ran_of_returned hinv hreturned).addresses

theorem Concluded.length_eq (h : Concluded members ls) : ls.length = members.length :=
  length_of_addresses h.addresses

/-! ## Main result -/

/-- what holds of a fan-out over a network, however far it has come -/
structure Orderly (net : Network) (limit : Nat) (members : List Member) (s : Race) : Prop where
  /-- no member is sent the message twice, and each at its own address -/
  once : (s.calls.map Call.position).Nodup
  addressed : ∀ call ∈ s.calls, ∃ m, members[call.position]? = some m ∧ call.address = m.address
  /-- it does not go on after the limit, nor after the cancellation -/
  punctual : ¬ s.Returned members → s.now ≤ limit ∧ ∀ c ∈ s.cancelledAt, s.now ≤ c
  /-- it returns, if from now on each task is polled in every instant -/
  returns : ∀ rounds : List (List Race.Event), (∀ es ∈ rounds, Race.Round members es) → limit + 2 ≤ rounds.length →
    (Race.run net limit members s (rounds.flatMap fun es => es ++ [.tick])).Returned members
  everyone : s.Returned members → s.calls.Perm (members.zipIdx.map fun p => ⟨p.2, p.1.address, s.late p.2⟩)
  tally : s.Returned members →
    Tally limit s.cancelledAt (fun i address => net i address (s.late i)) members (s.legs members)

/-- what holds of fan-outs over the local network -/
structure Routed (cs : Connections) (limit : Nat) (members : List Member) : Prop where
  /-- after a cancellation nobody is reached, and all members are reported -/
  silent : ∀ es s, s = Race.run cs.network limit members (.start true) es → reached cs s.calls = [] ∧
    (s.Returned members → report (s.legs members) = ⟨0, members.map fun m => (m.address, cancelled)⟩)
  /-- the legs that the gateway reckons with account for each member -/
  tally : ∀ cancel : Cancel, Tally limit cancel.instant (fun _ => cs.attempt (decide (cancel = .before))) members
    (legs cs cancel limit members)
  /-- unless something else comes at the very instant of the cancellation, they are the legs of all races -/
  agrees : ∀ (cancel : Cancel) es s, s = Race.run cs.network limit members (.start (decide (cancel = .before))) es →
    s.Returned members → s.cancelledAt = cancel.instant →
    (cancel ≠ .before → ∀ c ∈ cancel.instant, 0 < c ∧ c ≠ limit ∧
      ∀ m ∈ members, c ∉ (cs.attempt false m.address).span) →
    s.legs members = legs cs cancel limit members ∧ (reached cs s.calls).Perm (called cs cancel members)

theorem orderly (net : Network) (limit : Nat) (members : List Member) (before : Bool) (es : List Race.Event) :
    Orderly net limit members (Race.run net limit members (.start before) es) := by
  have h := Race.run_inv (Race.inv_start net limit before members) es
  set s := Race.run net limit members (.start before) es
  refine ⟨h.once, h.addressed, fun hgoing => ⟨?_, fun c hc => ?_⟩, fun rounds hrounds hlong => ?_,
    fun hreturned => Race.calls_perm h hreturned, fun hreturned => (Race.ran_of_returned h hreturned).tally⟩
  · by_contra hlate
    exact hgoing (Race.returned_of_late h (.inl (Nat.lt_of_not_le hlate)))
  · by_contra hlate
    exact hgoing (Race.returned_of_late h (.inr ⟨c, hc, Nat.lt_of_not_le hlate⟩))
  · refine Race.returned_of_rounds h hrounds ?_
    rw [Race.left]
    split_ifs <;> omega

theorem routed (cs : Connections) (limit : Nat) (members : List Member) : Routed cs limit members := by
  refine ⟨?_, fun cancel => (ran_legs cs cancel limit members).tally, ?_⟩
  · rintro es s rfl
    have h := Race.run_inv (Race.inv_start cs.network limit (decide (Cancel.before = .before)) members) es
    obtain ⟨hfired, hlate⟩ := h.before rfl
    refine ⟨Race.reached_of_late hlate, fun hreturned => ?_⟩
    rw [← report_refused cs limit members]
    exact congrArg report (Race.legs_eq h hreturned hfired fun hbefore => absurd rfl hbefore)
  · rintro cancel es s rfl hreturned hcancel hapart
    have h := Race.run_inv (Race.inv_start cs.network limit (decide (cancel = .before)) members) es
    exact ⟨Race.legs_eq h hreturned hcancel hapart,
      Race.reached_perm h hreturned hcancel fun hbefore c hc => (hapart hbefore c hc).1⟩

/-- **A fan-out accounts for every member once.** Whatever the sends do, however their tasks are polled and whenever the
caller cancels, each member is sent the message at most once, at its own address; the fan-out returns by the limit and
by the cancellation; and its report lists, in the order of the configuration, the members whose sends erred or had not
ended then. Over the local network nobody is reached once the caller has cancelled, and what the gateway reckons with is
what such races come to. -/
theorem fan_out_accounted (cs : Connections) (limit : Nat) (members : List Member) :
    (∀ net before es, Orderly net limit members (Race.run net limit members (.start before) es)) ∧
      Routed cs limit members :=
  ⟨fun net before es => orderly net limit members before es, routed cs limit members⟩

/-- a send that ends well when the caller cancels may go either way -/
example :
    let m : Member := ⟨"n", "0xn"⟩
    let net : Network := fun _ _ _ => ⟨some 1, none⟩
    let race (sendFirst : Bool) : Race :=
      .run net 5 [m] (.start false) [.poll 0 true, .tick, .cancel, .poll 0 sendFirst]
    (race true).legs [m] = [⟨"0xn", 1, none⟩] ∧ (race false).legs [m] = [⟨"0xn", 1, some cancelled⟩] := by
  decide

end QuorumGateway.FanOut
