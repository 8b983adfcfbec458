import QuorumGateway.Proofs.Gateway.Step
import QuorumGateway.Proofs.Quorum
/-!
The life of a request. It begins with the call that registers it, and while it is open it hears the responses of members
to its key; what the table holds of it is what it has heard since (`openRequest`). It ends when it is settled, and its
callback receives a value, or when it is evicted, and its callback is dropped (`fate_of_effect`).

- `history`: every open request was registered by a call of the run, and it has been open ever since.
- `delivery_history`: so was every request whose callback has received a value, up to the operation that settled it.
-/

namespace QuorumGateway.Gateway

open Pending (Delivery Table Entry)

/-! ## Hearing -/

/-- the response to a request that an operation brings, with its node in small letters; only members are listened to -/
def Op.answer? (g : Setup) (key : RequestKey) : Op → Option (String × Message)
  | .respond node m =>
    if g.network.isMember node = true ∧ RequestKey.ofMessage m = key then some (Text.lower node, m) else none
  | _ => none

/-- the responses to a request that operations bring, in their order -/
def heard (g : Setup) (key : RequestKey) (ops : List Op) : List (String × Message) := ops.filterMap (Op.answer? g key)

/-- the last of the responses of a node to a request; the node is given in small letters -/
def latest (g : Setup) (key : RequestKey) (node : String) (ops : List Op) : Option Message :=
  (((heard g key ops).filter fun r => r.1 = node).getLast?).map Prod.snd

/-- the request that a call registers, as the table holds it after the operations since -/
def openRequest (g : Setup) (now call : Nat) (m : Message) (since : List Op) : Entry :=
  ⟨RequestKey.ofMessage m, call, SortedMap.ofPairs (heard g (RequestKey.ofMessage m) since), now + g.timeout⟩

/-- a request after one more operation, if that leaves it open -/
def kept (g : Setup) (e : Entry) (o : Op) : Entry :=
  match o.answer? g e.key with
  | none => e
  | some r => { e with responses := SortedMap.put r.1 r.2 e.responses }

/-- how an operation settles an open request -/
inductive Settles (g : Setup) (e : Entry) : Op → Reply → Prop where
  /-- a response decides it -/
  | decided (node : String) (m : Message) (reply : Reply)
    (hanswer : Op.answer? g e.key (.respond node m) = some (Text.lower node, m))
    (hreply : Table.replyTo (g.quorum.decision (kept g e (.respond node m)).responses) = some reply) :
    Settles g e (.respond node m) reply
  /-- it is overdue -/
  | overdue (now : Nat) (hlate : e.deadline ≤ now) : Settles g e (.sweep now) (Table.timeout g.quorum e).reply
  /-- the gateway is closed -/
  | drained : Settles g e .drain (.failure .fatalError shutdownReason)

theorem answer?_eq_some_iff {g : Setup} {key : RequestKey} {o : Op} {r : String × Message} :
    o.answer? g key = some r ↔
      ∃ node, o = .respond node r.2 ∧ g.network.isMember node = true ∧ RequestKey.ofMessage r.2 = key ∧
        Text.lower node = r.1 := by
  cases o with
  | respond node m =>
    simp only [Op.answer?, Option.ite_none_right_eq_some, Option.some.injEq, Op.respond.injEq]
    constructor
    · rintro ⟨⟨hmember, hkey⟩, rfl⟩
      exact ⟨node, ⟨rfl, rfl⟩, hmember, hkey, rfl⟩
    · rintro ⟨node', ⟨rfl, rfl⟩, hmember, hkey, hnode⟩
      exact ⟨⟨hmember, hkey⟩, by rw [hnode]⟩
  | _ => simp [Op.answer?]

/-- what a request hears comes from members and has its key -/
theorem mem_heard {g : Setup} {key : RequestKey} {ops : List Op} {r : String × Message} :
    r ∈ heard g key ops ↔
      ∃ node, .respond node r.2 ∈ ops ∧ g.network.isMember node = true ∧ RequestKey.ofMessage r.2 = key ∧
        Text.lower node = r.1 := by
  simp only [heard, List.mem_filterMap, answer?_eq_some_iff]
  constructor
  · rintro ⟨o, ho, node, rfl, hmember, hkey, hnode⟩
    exact ⟨node, ho, hmember, hkey, hnode⟩
  · rintro ⟨node, ho, hmember, hkey, hnode⟩
    exact ⟨_, ho, node, rfl, hmember, hkey, hnode⟩

theorem heard_snoc (g : Setup) (key : RequestKey) (ops : List Op) (o : Op) :
    heard g key (ops ++ [o]) = heard g key ops ++ (o.answer? g key).toList := by
  cases h : o.answer? g key <;> simp [heard, h]

theorem openRequest_snoc (g : Setup) (now call : Nat) (m : Message) (since : List Op) (o : Op) :
    openRequest g now call m (since ++ [o]) = kept g (openRequest g now call m since) o := by
  simp only [openRequest, kept, heard_snoc]
  cases o.answer? g (RequestKey.ofMessage m) with
  | none => simp
  | some r => simp [SortedMap.ofPairs_concat]

@[simp] theorem kept_key (g : Setup) (e : Entry) (o : Op) : (kept g e o).key = e.key := by
  unfold kept
  split <;> rfl

@[simp] theorem kept_callback (g : Setup) (e : Entry) (o : Op) : (kept g e o).callback = e.callback := by
  unfold kept
  split <;> rfl

/-! ## One operation -/

section Step

variable {S : Crypto.Scheme} {g : Setup} {s : State} {o : Op} {table : Table} {calls : List Call} {es : List Event}

/-- a request that is not addressed is kept as it is -/
theorem kept_of_answer?_none {e : Entry} (h : o.answer? g e.key = none) : kept g e o = e := by
  unfold kept
  rw [h]

theorem kept_answered {e : Entry} {node : String} {m : Message} (hmember : g.network.isMember node = true)
    (hkey : e.key = RequestKey.ofMessage m) : kept g e (.respond node m) = e.answered node m := by
  simp [kept, Op.answer?, hmember, hkey, Entry.answered]

theorem kept_other {e : Entry} {node : String} {m : Message} (hkey : e.key ≠ RequestKey.ofMessage m) :
    kept g e (.respond node m) = e :=
  kept_of_answer?_none (by simp [Op.answer?, Ne.symm hkey])

/-- an open request was registered just now, or it was open before; a response that leaves it open does not decide it -/
theorem entry_of_effect (hd : s.table.Distinct) (heff : Effect S g s o table calls es) {e' : Entry}
    (he' : e' ∈ table.entries) :
    (∃ now m, o = .submit now e'.callback m ∧ e' = openRequest g now e'.callback m []) ∨
      ∃ e ∈ s.table.entries, e' = kept g e o ∧
        (o.answer? g e.key ≠ none → g.quorum.decision e'.responses = .pending) := by
  cases heff with
  | background ho hquiet =>
    refine .inr ⟨e', he', ?_⟩
    cases o with
    | refresh _ | start | beginClose => exact ⟨rfl, fun h => absurd rfl h⟩
    | _ => exact absurd ho Bool.false_ne_true
  | admitted now call m hscreen hcharge hregister =>
    obtain ⟨-, -, hentries, -⟩ := Table.register_ok hregister
    rw [hentries] at he'
    rcases List.mem_append.1 he' with he' | he'
    · exact .inr ⟨e', he', rfl, fun h => absurd rfl h⟩
    · rw [List.mem_singleton] at he'
      subst he'
      exact .inl ⟨now, m, rfl, rfl⟩
  | evicted call legs error hcall hfew hopen =>
    exact .inr ⟨e', (Table.mem_erase.1 he').1, rfl, fun h => absurd rfl h⟩
  | outsider node m hmember =>
    have hnone : Op.answer? g e'.key (.respond node m) = none := by simp [Op.answer?, hmember]
    exact .inr ⟨e', he', (kept_of_answer?_none hnone).symm, fun h => absurd hnone h⟩
  | answered node m hmember =>
    right
    have hother : ∀ e ∈ s.table.entries, e.key ≠ RequestKey.ofMessage m → e' = e →
        ∃ e ∈ s.table.entries, e' = kept g e (.respond node m) ∧
          (Op.answer? g e.key (.respond node m) ≠ none → g.quorum.decision e'.responses = .pending) := by
      rintro e he hkey rfl
      exact ⟨e', he, (kept_other hkey).symm, fun h => absurd (by simp [Op.answer?, Ne.symm hkey]) h⟩
    rcases Table.record_cases s.table g.quorum (RequestKey.ofMessage m) node m with
      ⟨hnone, h⟩ | ⟨e, hf, hpending, h⟩ | ⟨e, reply, hf, hreply, h⟩ <;> rw [h] at he'
    · exact hother e' he' (Table.find?_eq_none_iff.1 hnone e' he') rfl
    · rcases Table.mem_replace.1 he' with ⟨he', hkey⟩ | ⟨rfl, -⟩
      · exact hother e' he' (fun heq => hkey (heq.trans (Table.key_of_find? hf).symm)) rfl
      · exact ⟨e, Table.mem_of_find? hf, (kept_answered hmember (Table.key_of_find? hf)).symm, fun _ => hpending⟩
    · obtain ⟨he', hkey⟩ := Table.mem_erase.1 he'
      exact hother e' he' hkey rfl
  | swept now =>
    rw [Table.entries_expire hd] at he'
    exact .inr ⟨e', (List.mem_filter.1 he').1, rfl, fun h => absurd rfl h⟩
  | drained => simp [Table.failAll] at he'
  | _ => exact .inr ⟨e', he', rfl, fun h => absurd rfl h⟩

/-- **How a request ends**: an operation keeps it open, or settles it with a value for its callback, or evicts it and
drops its callback -/
theorem fate_of_effect (hd : s.table.Distinct) (heff : Effect S g s o table calls es) {e : Entry}
    (he : e ∈ s.table.entries) :
    kept g e o ∈ table.entries ∨ (∃ reply, Settles g e o reply ∧ .delivered e.callback reply ∈ es) ∨
      ((∃ call legs, o = .finish call legs) ∧ .dropped e.callback ∈ es) := by
  cases heff with
  | background ho hquiet =>
    left
    cases o with
    | refresh _ | start | beginClose => exact he
    | _ => exact absurd ho Bool.false_ne_true
  | admitted now call m hscreen hcharge hregister =>
    obtain ⟨-, -, hentries, -⟩ := Table.register_ok hregister
    exact .inl (hentries ▸ List.mem_append_left _ he)
  | @evicted call legs c e' error hcall hfew hopen =>
    by_cases hkey : e.key = c.key
    · have hsame : e = e' := hd.eq_of_key he (Table.mem_of_find? hopen) (hkey.trans (Table.key_of_find? hopen).symm)
      exact .inr (.inr ⟨⟨call, legs, rfl⟩, hsame ▸ List.mem_cons_self⟩)
    · exact .inl (Table.mem_erase.2 ⟨he, hkey⟩)
  | outsider node m hmember =>
    have hnone : Op.answer? g e.key (.respond node m) = none := by simp [Op.answer?, hmember]
    exact .inl ((kept_of_answer?_none hnone).symm ▸ he)
  | answered node m hmember =>
    rcases Table.record_cases s.table g.quorum (RequestKey.ofMessage m) node m with
      ⟨hnone, h⟩ | ⟨e', hf, hpending, h⟩ | ⟨e', reply, hf, hreply, h⟩ <;> rw [h]
    · exact .inl ((kept_other (Table.find?_eq_none_iff.1 hnone e he)).symm ▸ he)
    · left
      by_cases hkey : e.key = RequestKey.ofMessage m
      · have hsame : e = e' := hd.eq_of_key he (Table.mem_of_find? hf) (hkey.trans (Table.key_of_find? hf).symm)
        rw [kept_answered hmember hkey, hsame]
        exact Table.mem_replace.2 (.inr ⟨rfl, e', Table.mem_of_find? hf, rfl⟩)
      · rw [kept_other hkey]
        have hfound : e'.key = RequestKey.ofMessage m := Table.key_of_find? hf
        have hkey' : e.key ≠ (e'.answered node m).key := fun heq => hkey (heq.trans hfound)
        exact Table.mem_replace.2 (.inl ⟨he, hkey'⟩)
    · by_cases hkey : e.key = RequestKey.ofMessage m
      · have hsame : e = e' := hd.eq_of_key he (Table.mem_of_find? hf) (hkey.trans (Table.key_of_find? hf).symm)
        refine .inr (.inl ⟨reply, .decided node m reply (by simp [Op.answer?, hmember, hkey]) ?_, by simp [hsame]⟩)
        rw [kept_answered hmember hkey, hsame]
        exact hreply
      · left
        rw [kept_other hkey]
        exact Table.mem_erase.2 ⟨he, hkey⟩
  | swept now =>
    by_cases hlate : e.deadline ≤ now
    · refine .inr (.inl ⟨_, .overdue now hlate, List.mem_map.2 ⟨Table.timeout g.quorum e, ?_, rfl⟩⟩)
      exact List.mem_map_of_mem (List.mem_filter.2 ⟨he, by simpa using hlate⟩)
    · have hopen : e ∈ (s.table.expire g.quorum now).1.entries := by
        rw [Table.entries_expire hd]
        exact List.mem_filter.2 ⟨he, by simpa using hlate⟩
      exact .inl hopen
  | drained =>
    refine .inr (.inl ⟨_, .drained, List.mem_append_left _ (List.mem_map.2 ⟨⟨e.callback, _⟩, ?_, rfl⟩)⟩)
    exact List.mem_map_of_mem he
  | _ => exact .inl he

/-- a callback that receives a value is that of an open request that is settled with it -/
theorem settles_of_effect (heff : Effect S g s o table calls es) {callback : Nat} {reply : Reply}
    (hev : .delivered callback reply ∈ es) : ∃ e ∈ s.table.entries, e.callback = callback ∧ Settles g e o reply := by
  cases heff with
  | background ho hquiet => exact absurd (hquiet _ hev).1 (by simp [Event.delivery?])
  | answered node m hmember =>
    rcases Table.record_cases s.table g.quorum (RequestKey.ofMessage m) node m with
      ⟨hnone, h⟩ | ⟨e, hf, hpending, h⟩ | ⟨e, reply', hf, hreply, h⟩ <;> rw [h] at hev
    · simp at hev
    · simp at hev
    · have hkey := Table.key_of_find? hf
      simp only [List.map_cons, List.map_nil, List.mem_singleton, Event.delivered.injEq] at hev
      obtain ⟨rfl, rfl⟩ := hev
      refine ⟨e, Table.mem_of_find? hf, rfl, .decided node m reply (by simp [Op.answer?, hmember, hkey]) ?_⟩
      rw [kept_answered hmember hkey]
      exact hreply
  | swept now =>
    obtain ⟨d, hd, hdeliver⟩ := List.mem_map.1 hev
    obtain ⟨e, he, rfl⟩ := List.mem_map.1 hd
    obtain ⟨he, hlate⟩ := List.mem_filter.1 he
    obtain ⟨rfl, rfl⟩ := Event.delivered.inj hdeliver
    exact ⟨e, he, rfl, .overdue now (by simpa using hlate)⟩
  | drained =>
    rcases List.mem_append.1 hev with hev | hev
    · obtain ⟨d, hd, hdeliver⟩ := List.mem_map.1 hev
      obtain ⟨e, he, rfl⟩ := List.mem_map.1 hd
      obtain ⟨rfl, rfl⟩ := Event.delivered.inj hdeliver
      exact ⟨e, he, rfl, .drained⟩
    · simp at hev
  | _ => simp at hev

end Step

/-! ## Runs -/

section Run

variable (S : Crypto.Scheme) (b : Built)

/-- a run begins with no open requests, and no two have one key -/
theorem distinct_reached (ops : List Op) : (reached S b ops).table.Distinct := by
  induction ops using List.reverseRecOn with
  | nil => exact Table.distinct_empty
  | append_singleton ops o ih =>
    obtain ⟨es, -, heff⟩ := step_effect S b.setup (reached S b ops) o
    rw [reached_snoc]
    exact heff.distinct ih

/-- the request that a call registers after the operations `pre` is open from then on, through the operations `mid` -/
def StaysOpen (pre : List Op) (now call : Nat) (m : Message) (mid : List Op) : Prop :=
  ∀ since, since <+: mid →
    openRequest b.setup now call m since ∈ (reached S b (pre ++ .submit now call m :: since)).table.entries

theorem StaysOpen.mono {pre mid mid' : List Op} {now call : Nat} {m : Message}
    (h : StaysOpen S b pre now call m mid) (hpre : mid' <+: mid) : StaysOpen S b pre now call m mid' :=
  fun since hsince => h since (hsince.trans hpre)

theorem staysOpen_snoc {pre mid : List Op} {now call : Nat} {m : Message} {o : Op}
    (h : StaysOpen S b pre now call m mid)
    (ho : openRequest b.setup now call m (mid ++ [o]) ∈
      (reached S b (pre ++ .submit now call m :: (mid ++ [o]))).table.entries) :
    StaysOpen S b pre now call m (mid ++ [o]) := by
  intro since hsince
  rcases List.prefix_concat_iff.1 hsince with rfl | hsince
  · exact ho
  · exact h since hsince

/-- **Where open requests come from.** Every open request was registered by a call of the run, has been open ever since,
and holds what it has heard since. -/
theorem history (ops : List Op) {e : Entry} (he : e ∈ (reached S b ops).table.entries) :
    ∃ pre now m mid, ops = pre ++ .submit now e.callback m :: mid ∧ e = openRequest b.setup now e.callback m mid ∧
      StaysOpen S b pre now e.callback m mid := by
  induction ops using List.reverseRecOn generalizing e with
  | nil => exact absurd he List.not_mem_nil
  | append_singleton ops o ih =>
    have hlast := he
    obtain ⟨es, -, heff⟩ := step_effect S b.setup (reached S b ops) o
    rw [reached_snoc] at he
    rcases entry_of_effect (distinct_reached S b ops) heff he with ⟨now, m, rfl, hnew⟩ | ⟨e₀, he₀, hkept, -⟩
    · refine ⟨ops, now, m, [], rfl, hnew, fun since hsince => ?_⟩
      rw [List.prefix_nil.1 hsince, ← hnew]
      exact hlast
    · obtain ⟨pre, now, m, mid, rfl, hopen, hstays⟩ := ih he₀
      have hcallback : e.callback = e₀.callback := by rw [hkept, kept_callback]
      have hnext : e = openRequest b.setup now e.callback m (mid ++ [o]) := by
        rw [openRequest_snoc, hcallback, ← hopen, hkept]
      refine ⟨pre, now, m, mid ++ [o], by simp [hcallback], hnext, ?_⟩
      rw [hcallback] at hnext ⊢
      refine staysOpen_snoc S b hstays ?_
      rw [← hnext]
      simpa using hlast

/-- no response has decided an open request -/
theorem undecided (ops : List Op) {e : Entry} (he : e ∈ (reached S b ops).table.entries) :
    e.responses = [] ∨ b.setup.quorum.decision e.responses = .pending := by
  induction ops using List.reverseRecOn generalizing e with
  | nil => exact absurd he List.not_mem_nil
  | append_singleton ops o ih =>
    obtain ⟨es, -, heff⟩ := step_effect S b.setup (reached S b ops) o
    rw [reached_snoc] at he
    rcases entry_of_effect (distinct_reached S b ops) heff he with ⟨now, m, rfl, hnew⟩ | ⟨e₀, he₀, hkept, hpending⟩
    · exact .inl (by rw [hnew]; rfl)
    · by_cases hnone : o.answer? b.setup e₀.key = none
      · rw [hkept, kept_of_answer?_none hnone]
        exact ih he₀
      · exact .inr (hpending hnone)

/-- **Where values come from.** The request of a callback that has received a value was registered by a call of the run
and stayed open up to the operation that settled it, which handed the callback the value. -/
theorem delivery_history (ops : List Op) {callback : Nat} {reply : Reply}
    (hev : .delivered callback reply ∈ (reached S b ops).trace) :
    ∃ pre now m mid o post, ops = pre ++ .submit now callback m :: (mid ++ o :: post) ∧
      StaysOpen S b pre now callback m mid ∧ Settles b.setup (openRequest b.setup now callback m mid) o reply := by
  induction ops using List.reverseRecOn with
  | nil => exact absurd hev List.not_mem_nil
  | append_singleton ops o ih =>
    obtain ⟨es, htrace, heff⟩ := step_effect S b.setup (reached S b ops) o
    rw [reached_snoc, htrace] at hev
    rcases List.mem_append.1 hev with hev | hev
    · obtain ⟨pre, now, m, mid, o', post, rfl, hstays, hsettles⟩ := ih hev
      exact ⟨pre, now, m, mid, o', post ++ [o], by simp, hstays, hsettles⟩
    · obtain ⟨e, he, rfl, hsettles⟩ := settles_of_effect heff hev
      obtain ⟨pre, now, m, mid, rfl, hopen, hstays⟩ := history S b ops he
      rw [hopen] at hsettles
      exact ⟨pre, now, m, mid, o, [], by simp, hstays, hsettles⟩

/-- **How a registered request fares**: it is still open, or it has been settled and its callback has received a value,
or it has been evicted and its callback dropped -/
theorem open_or_ended {pre : List Op} {now call : Nat} {m : Message} (mid : List Op)
    (hregistered : StaysOpen S b pre now call m []) :
    StaysOpen S b pre now call m mid ∨
      ∃ since o, since ++ [o] <+: mid ∧ StaysOpen S b pre now call m since ∧
        ((∃ reply, Settles b.setup (openRequest b.setup now call m since) o reply ∧
          .delivered call reply ∈ (reached S b (pre ++ .submit now call m :: mid)).trace) ∨
        .dropped call ∈ (reached S b (pre ++ .submit now call m :: mid)).trace) := by
  induction mid using List.reverseRecOn with
  | nil => exact .inl hregistered
  | append_singleton mid o ih =>
    have hsnoc : pre ++ .submit now call m :: (mid ++ [o]) = (pre ++ .submit now call m :: mid) ++ [o] := by simp
    obtain ⟨es, htrace, heff⟩ := step_effect S b.setup (reached S b (pre ++ .submit now call m :: mid)) o
    rw [hsnoc, reached_snoc, htrace]
    rcases ih with hstays | ⟨since, o', hpre, hstays, hended⟩
    · have hdistinct := distinct_reached S b (pre ++ .submit now call m :: mid)
      rcases fate_of_effect hdistinct heff (hstays mid (List.prefix_refl _)) with
        hkept | ⟨reply, hsettles, hev⟩ | ⟨-, hev⟩
      · left
        refine staysOpen_snoc S b hstays ?_
        rw [openRequest_snoc, hsnoc, reached_snoc]
        exact hkept
      · exact .inr ⟨mid, o, List.prefix_refl _, hstays, .inl ⟨reply, hsettles, List.mem_append_right _ hev⟩⟩
      · exact .inr ⟨mid, o, List.prefix_refl _, hstays, .inr (List.mem_append_right _ hev)⟩
    · refine .inr ⟨since, o', hpre.trans (List.prefix_append _ _), hstays, hended.imp ?_ fun hev => ?_⟩
      · rintro ⟨reply, hsettles, hev⟩
        exact ⟨reply, hsettles, List.mem_append_left _ hev⟩
      · exact List.mem_append_left _ hev

/-- a call is made at one place of a run in which no two calls are the same -/
theorem split_unique {ops pre pre' mid mid' : List Op} {now now' call : Nat} {m m' : Message}
    (hfresh : (ops.filterMap Op.submits?).Nodup) (h : ops = pre ++ .submit now call m :: mid)
    (h' : ops = pre' ++ .submit now' call m' :: mid') : pre = pre' ∧ now = now' ∧ m = m' ∧ mid = mid' := by
  -- the call cannot come again after it has come
  have hlater : ∀ (l x y : List Op) (n n' : Nat) (k k' : Message),
      ops ≠ l ++ .submit n call k :: (x ++ .submit n' call k' :: y) := by
    rintro l x y n n' k k' rfl
    simp only [List.filterMap_append, List.filterMap_cons, Op.submits?] at hfresh
    exact (List.nodup_cons.1 (List.nodup_append.1 hfresh).2.1).1 (by simp)
  rcases List.append_eq_append_iff.1 (h.symm.trans h') with ⟨l, hpre, hrest⟩ | ⟨l, hpre, hrest⟩ <;>
    rcases l with _ | ⟨o, l⟩
  · simp only [List.nil_append, List.cons.injEq, Op.submit.injEq] at hrest
    exact ⟨by simpa using hpre.symm, hrest.1.1, hrest.1.2.2, hrest.2⟩
  · simp only [List.cons_append, List.cons.injEq] at hrest
    exact absurd (h.trans (by rw [hrest.2])) (hlater pre l mid' now now' m m')
  · simp only [List.nil_append, List.cons.injEq, Op.submit.injEq] at hrest
    exact ⟨by simpa using hpre, hrest.1.1.symm, hrest.1.2.2.symm, hrest.2.symm⟩
  · simp only [List.cons_append, List.cons.injEq] at hrest
    exact absurd (h'.trans (by rw [hrest.2])) (hlater pre' l mid now' now m' m)

end Run

end QuorumGateway.Gateway
