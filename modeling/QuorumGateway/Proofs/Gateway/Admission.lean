import QuorumGateway.Proofs.Gateway.Conditions
import QuorumGateway.Proofs.Gateway.History
import QuorumGateway.Proofs.Message.Layout
/-!
Which calls are admitted. What a call is checked against is said by the run before it and not by the state, except for
the rate limits, and each check is stated on its own, as if it were the only one (`Fails`).

- `Entitled`: a call that meets all conditions, and the sender it comes from.
- `FirstFailing`: the error of the first condition that a call does not meet, in the order of `Check.inOrder`.
- `admission_sound`: every open request and every message that was sent to the nodes is that of an entitled call, and a
  call that is not entitled is refused with the error of its first failing check.
-/

namespace QuorumGateway.Gateway

open Pending (Table Entry)

/-! ## The checks -/

/-- what a call is checked for -/
inductive Check where
  | opened
  | fields
  | donId
  | method
  | sender
  | listed
  | signed
  | granted
deriving DecidableEq, Repr

/-- the checks that spend nothing, in the order in which they are made -/
def Check.free : List Check := [.opened, .fields, .donId, .method, .sender, .listed, .signed]

/-- the checks in the order in which they are made -/
def Check.inOrder : List Check := Check.free ++ [.granted]

section Conditions

variable (S : Crypto.Scheme) (b : Built) (pre : List Op) (now : Nat) (m : Message)

/-- a check that a call fails after the operations `pre`, and its error -/
inductive Fails : Check → GatewayError → Prop where
  | opened (h : .beginClose ∈ pre) : Fails .opened closedError
  | fields {o : Message.Objection} (h : m.checkFields = .error o) : Fails .fields (.ofObjection o)
  | donId (hserves : b.setup.network.donId ≠ "") (h : m.body.donId ≠ b.setup.network.donId) :
    Fails .donId (.unsupportedDonId b.setup.network.donId m.body.donId)
  | method (hset : m.body.method ≠ "secrets_set") (hlist : m.body.method ≠ "secrets_list") :
    Fails .method (.unsupportedMethod m.body.method)
  | sender {fault : Address.Fault} (h : Address.parse m.body.sender = .error fault) :
    Fails .sender (.ofObjection (.badSender m.body.sender fault))
  | listed {a : Address} (hsender : Address.parse m.body.sender = .ok a)
    (hlisting : b.setup.settings.allowlist.isSome = true) (h : a ∉ (lastFetched pre).senders) :
    Fails .listed (.notAllowlisted a.text)
  | unsigned {a : Address} {o : Message.Objection} (hsender : Address.parse m.body.sender = .ok a)
    (h : m.recoverSigner S = .error o) : Fails .signed (.ofObjection o)
  | forged {a signer : Address} (hsender : Address.parse m.body.sender = .ok a)
    (hsigner : m.recoverSigner S = .ok signer) (h : signer ≠ a) :
    Fails .signed (.ofObjection (.foreignSigner signer a))
  | granted {a : Address} {l : RateLimit.Limiter} (hsender : Address.parse m.body.sender = .ok a)
    (hlimiter : (reached S b pre).limiter = some l) (h : (l.allow a.text now).1 = false) :
    Fails .granted (.rateLimited a.text)

/-- the error of the first check that a call fails -/
def FirstFailing (e : GatewayError) : Prop :=
  ∃ passed c rest, Check.inOrder = passed ++ c :: rest ∧ Fails S b pre now m c e ∧
    ∀ c' ∈ passed, ∀ e', ¬ Fails S b pre now m c' e'

/-- a call that meets all conditions but the last: the gateway is open, the fields of the message are in order, it is
for this network and asks for a method that is served, and its sender is an address on the list that has signed it -/
structure Cleared (a : Address) : Prop where
  opened : .beginClose ∉ pre
  id : 1 ≤ Text.byteLength m.body.messageId ∧ Text.byteLength m.body.messageId ≤ 128
  donIdWidth : Text.byteLength m.body.donId ≤ 64
  donId : b.setup.network.donId = "" ∨ m.body.donId = b.setup.network.donId
  method : m.body.method = "secrets_set" ∨ m.body.method = "secrets_list"
  sender : Address.parse m.body.sender = .ok a
  listed : b.setup.settings.allowlist.isSome = true → a ∈ (lastFetched pre).senders
  signed : m.recoverSigner S = .ok a

/-- a call that meets all conditions: the rate limits, if there are any, have given it a token of its sender -/
structure Entitled (call : Nat) (a : Address) : Prop extends Cleared S b pre m a where
  granted : b.setup.settings.rateLimiter.isSome = true → ∃ l, (reached S b pre).limiter = some l ∧
    (l.allow a.text now).1 = true ∧ (reached S b (pre ++ [.submit now call m])).limiter = some (l.allow a.text now).2

end Conditions

/-- a call that is refused: nothing is kept of it, its callback is dropped, and it returns the error -/
structure Refused (s s' : State) (call : Nat) (e : GatewayError) : Prop where
  table : s'.table = s.table
  calls : s'.calls = s.calls
  trace : s'.trace = s.trace ++ [.dropped call, .returned call (.error e)]

theorem refused_reject (s : State) (call : Nat) (method : String) (e : GatewayError) :
    Refused s (reject s call method e) call e := ⟨rfl, rfl, rfl⟩

/-! ## One call -/

/-- the objection of a check, made on its own -/
def objection (S : Crypto.Scheme) (g : Setup) (s : State) (now : Nat) (m : Message) : Check → Option GatewayError
  | .opened => if s.closing = true then some closedError else none
  | .fields =>
    match m.checkFields with
    | .ok () => none
    | .error o => some (.ofObjection o)
  | .donId =>
    if g.network.donId ≠ "" ∧ m.body.donId ≠ g.network.donId then
      some (.unsupportedDonId g.network.donId m.body.donId)
    else none
  | .method => if m.body.method ∈ methods then none else some (.unsupportedMethod m.body.method)
  | .sender =>
    match Address.parse m.body.sender with
    | .ok _ => none
    | .error fault => some (.ofObjection (.badSender m.body.sender fault))
  | .listed =>
    match Address.parse m.body.sender with
    | .ok a => if listed s a = true then none else some (.notAllowlisted a.text)
    | .error _ => none
  | .signed =>
    match Address.parse m.body.sender, m.recoverSigner S with
    | .ok a, .ok signer => if signer = a then none else some (.ofObjection (.foreignSigner signer a))
    | .ok _, .error o => some (.ofObjection o)
    | .error _, _ => none
  | .granted =>
    match Address.parse m.body.sender with
    | .ok a => if (charge s a now).1 = true then none else some (.rateLimited a.text)
    | .error _ => none

section Order

variable (S : Crypto.Scheme) (g : Setup) (s : State) (now : Nat) (m : Message)

/-- the first objection of the checks that spend nothing decides -/
theorem screen_eq :
    screen S g s m =
      match Check.free.findSome? (objection S g s now m) with
      | some e => .error e
      | none => refuse m.declaredSender := by
  unfold screen Message.checkSignature Message.declaredSender
  simp only [Check.free, List.findSome?_cons, List.findSome?_nil, objection]
  cases s.closing with
  | true => rfl
  | false =>
  cases m.checkFields with
  | error o => rfl
  | ok u =>
  by_cases hdon : g.network.donId ≠ "" ∧ m.body.donId ≠ g.network.donId
  · simp [hdon, refuse, ok_bind, throw_bind]
  by_cases hmethod : m.body.method ∈ methods
  case neg => simp [hdon, hmethod, refuse, ok_bind, throw_bind]
  cases Address.parse m.body.sender with
  | error fault => simp [hdon, hmethod, refuse, ok_bind, error_bind]
  | ok a =>
  cases hlisted : listed s a with
  | false => simp [hdon, hmethod, refuse, ok_bind, throw_bind, hlisted]
  | true =>
  cases m.recoverSigner S with
  | error o => simp [hdon, hmethod, refuse, ok_bind, error_bind, hlisted]
  | ok signer => by_cases hsigner : signer = a <;> simp [hdon, hmethod, refuse, ok_bind, hlisted, hsigner]

variable {S g s m}

theorem screen_eq_ok_iff {a : Address} :
    screen S g s m = .ok a ↔
      Address.parse m.body.sender = .ok a ∧ ∀ c ∈ Check.free, objection S g s now m c = none := by
  rw [screen_eq S g s now m, ← List.findSome?_eq_none_iff]
  cases Check.free.findSome? (objection S g s now m) with
  | some e => simp
  | none =>
    simp only [Message.declaredSender, and_true]
    cases Address.parse m.body.sender <;> simp [refuse]

/-- the error of a call that is refused by its checks is the first objection to it -/
theorem firstObjection_of_screen {e : GatewayError} (hscreen : screen S g s m = .error e) :
    Check.inOrder.findSome? (objection S g s now m) = some e := by
  rw [screen_eq S g s now m] at hscreen
  rw [Check.inOrder, List.findSome?_append]
  cases hfirst : Check.free.findSome? (objection S g s now m) with
  | some e' =>
    rw [hfirst] at hscreen
    rw [Option.some_or, Except.error.inj hscreen]
  | none =>
    -- with no objection the sender is an address
    have hsender := List.findSome?_eq_none_iff.1 hfirst .sender (by decide)
    rw [hfirst] at hscreen
    cases hparse : Address.parse m.body.sender <;>
      simp [objection, Message.declaredSender, refuse, hparse] at hsender hscreen

theorem firstObjection_of_charge {now : Nat} {a : Address} (hscreen : screen S g s m = .ok a)
    (hcharge : (charge s a now).1 = false) :
    Check.inOrder.findSome? (objection S g s now m) = some (.rateLimited a.text) := by
  obtain ⟨hparse, hfree⟩ := (screen_eq_ok_iff now).1 hscreen
  rw [Check.inOrder, List.findSome?_append, List.findSome?_eq_none_iff.2 hfree]
  simp [objection, hparse, hcharge]

end Order

/-! ## One call of a run -/

section Verdict

variable {S : Crypto.Scheme} {raw : Json} {network : Network} {hasSource : Bool} {b : Built}

/-- the allow-list of a gateway that has been built is the one that was fetched last, if it has one -/
theorem listed_reached (hbuild : build raw network hasSource = .ok b) (pre : List Op) (a : Address) :
    listed (reached S b pre) a = true ↔
      (b.setup.settings.allowlist.isSome = true → a ∈ (lastFetched pre).senders) := by
  rw [← (configured_of_build hbuild).1, listed, allowlist_reached]
  cases b.contract <;> simp [Allowlist.Snapshot.allows]

variable {pre : List Op} {now : Nat} {m : Message}

/-- a check objects to a call exactly if the call does not meet its condition -/
theorem objection_eq_some_iff (hbuild : build raw network hasSource = .ok b) {c : Check} {e : GatewayError} :
    objection S b.setup (reached S b pre) now m c = some e ↔ Fails S b pre now m c e := by
  have hlisted := listed_reached (S := S) hbuild pre
  have hgranted := fun a => charge_granted (reached S b pre) a now
  constructor
  · intro h
    unfold objection at h
    cases c with
    | opened =>
      obtain ⟨hclosed, ⟨⟩⟩ := Option.ite_none_right_eq_some.1 h
      exact .opened ((closing_reached S b pre).1 hclosed)
    | fields =>
      cases hfields : m.checkFields with
      | ok u => simp [hfields] at h
      | error o =>
        simp only [hfields, Option.some.injEq] at h
        exact h ▸ .fields hfields
    | donId =>
      obtain ⟨hdon, ⟨⟩⟩ := Option.ite_none_right_eq_some.1 h
      exact .donId hdon.1 hdon.2
    | method =>
      obtain ⟨hmethod, ⟨⟩⟩ := Option.ite_none_left_eq_some.1 h
      have hnone : m.body.method ≠ "secrets_set" ∧ m.body.method ≠ "secrets_list" := by simpa [methods] using hmethod
      exact .method hnone.1 hnone.2
    | sender =>
      cases hsender : Address.parse m.body.sender with
      | ok a => simp [hsender] at h
      | error fault =>
        simp only [hsender, Option.some.injEq] at h
        exact h ▸ .sender hsender
    | listed =>
      cases hsender : Address.parse m.body.sender with
      | error fault => simp [hsender] at h
      | ok a =>
        simp only [hsender] at h
        obtain ⟨hnot, ⟨⟩⟩ := Option.ite_none_left_eq_some.1 h
        rw [hlisted, Classical.not_imp] at hnot
        exact .listed hsender hnot.1 hnot.2
    | signed =>
      cases hsender : Address.parse m.body.sender with
      | error fault => simp [hsender] at h
      | ok a =>
        cases hsigner : m.recoverSigner S with
        | error o =>
          simp only [hsender, hsigner, Option.some.injEq] at h
          exact h ▸ .unsigned hsender hsigner
        | ok signer =>
          simp only [hsender, hsigner] at h
          obtain ⟨hforeign, ⟨⟩⟩ := Option.ite_none_left_eq_some.1 h
          exact .forged hsender hsigner hforeign
    | granted =>
      cases hsender : Address.parse m.body.sender with
      | error fault => simp [hsender] at h
      | ok a =>
        simp only [hsender] at h
        obtain ⟨hnot, ⟨⟩⟩ := Option.ite_none_left_eq_some.1 h
        simp only [hgranted, not_forall, Bool.not_eq_true] at hnot
        obtain ⟨l, hl, hrefused⟩ := hnot
        exact .granted hsender hl hrefused
  · intro h
    cases h <;> simp_all [objection, closing_reached, methods]

theorem firstFailing_of_objection (hbuild : build raw network hasSource = .ok b) {e : GatewayError}
    (h : Check.inOrder.findSome? (objection S b.setup (reached S b pre) now m) = some e) :
    FirstFailing S b pre now m e := by
  obtain ⟨passed, c, rest, hsplit, hfails, hpassed⟩ := List.findSome?_eq_some_iff.1 h
  refine ⟨passed, c, rest, hsplit, (objection_eq_some_iff hbuild).1 hfails, fun c' hc' e' hfails' => ?_⟩
  have hsome := (objection_eq_some_iff hbuild).2 hfails'
  rw [hpassed c' hc'] at hsome
  cases hsome

/-- a call that passes the checks before the rate limits fails none of them -/
theorem not_fails_of_screen (hbuild : build raw network hasSource = .ok b) {a : Address}
    (hscreen : screen S b.setup (reached S b pre) m = .ok a) {c : Check} (hc : c ∈ Check.free) (e : GatewayError) :
    ¬ Fails S b pre now m c e := by
  intro hfails
  have hsome := (objection_eq_some_iff hbuild).2 hfails
  rw [((screen_eq_ok_iff now).1 hscreen).2 c hc] at hsome
  cases hsome

theorem cleared_of_screen (hbuild : build raw network hasSource = .ok b) {a : Address}
    (hscreen : screen S b.setup (reached S b pre) m = .ok a) : Cleared S b pre m a := by
  have hpasses : ∀ c ∈ Check.free, ∀ e, ¬ Fails S b pre 0 m c e := fun c hc e => not_fails_of_screen hbuild hscreen hc e
  obtain ⟨hsender, -⟩ := (screen_eq_ok_iff 0).1 hscreen
  have hfields : m.checkFields = .ok () := by
    cases hfields : m.checkFields with
    | ok u => rfl
    | error o => exact absurd (.fields hfields) (hpasses .fields (by decide) _)
  obtain ⟨hid, -, hwidth, -⟩ := Message.checkFields_eq_ok_iff.1 hfields
  refine ⟨fun h => hpasses .opened (by decide) _ (.opened h), hid, hwidth, ?_, ?_, hsender, fun hlisting => ?_, ?_⟩
  · by_contra! hdon
    exact hpasses .donId (by decide) _ (.donId hdon.1 hdon.2)
  · by_contra! hmethod
    exact hpasses .method (by decide) _ (.method hmethod.1 hmethod.2)
  · by_contra hlisted
    exact hpasses .listed (by decide) _ (.listed hsender hlisting hlisted)
  · cases hsigner : m.recoverSigner S with
    | error o => exact absurd (.unsigned hsender hsigner) (hpasses .signed (by decide) _)
    | ok signer =>
      by_contra hforeign
      exact hpasses .signed (by decide) _ (.forged hsender hsigner fun heq => hforeign (congrArg _ heq))

theorem entitled_of_admitted (hbuild : build raw network hasSource = .ok b) {a : Address} (call : Nat)
    (hscreen : screen S b.setup (reached S b pre) m = .ok a) (hcharge : (charge (reached S b pre) a now).1 = true) :
    Entitled S b pre now m call a := by
  refine { cleared_of_screen hbuild hscreen with granted := fun hlimited => ?_ }
  rw [← (configured_of_build hbuild).2, ← isSome_limiter_reached S b pre] at hlimited
  obtain ⟨l, hl⟩ := Option.isSome_iff_exists.1 hlimited
  refine ⟨l, hl, (charge_granted _ _ _).1 hcharge l hl, ?_⟩
  rw [reached_snoc, step, limiter_submit S b.setup _ now call hscreen, hl]
  rfl

/-- **A call is entitled, or it is refused** with the error of its first failing check -/
theorem entitled_or_refused (hbuild : build raw network hasSource = .ok b) (pre : List Op) (now call : Nat)
    (m : Message) :
    (∃ a, Entitled S b pre now m call a) ∨
      ∃ e, FirstFailing S b pre now m e ∧
        Refused (reached S b pre) (reached S b (pre ++ [.submit now call m])) call e := by
  rw [reached_snoc, step]
  cases hscreen : screen S b.setup (reached S b pre) m with
  | error e =>
    refine .inr ⟨e, firstFailing_of_objection hbuild (firstObjection_of_screen now hscreen), ?_⟩
    rw [submit_of_screen_error S b.setup _ now call hscreen]
    exact refused_reject _ _ _ _
  | ok a =>
    cases hcharge : (charge (reached S b pre) a now).1 with
    | true => exact .inl ⟨a, entitled_of_admitted hbuild call hscreen hcharge⟩
    | false =>
      refine .inr ⟨_, firstFailing_of_objection hbuild (firstObjection_of_charge hscreen hcharge), ?_⟩
      simp only [submit, hscreen, hcharge, charge_state]
      exact ⟨rfl, rfl, rfl⟩

/-- a call of a sender that the last successful fetch has not brought is refused -/
theorem refused_of_not_listed (hbuild : build raw network hasSource = .ok b) {a : Address} (pre : List Op)
    (now call : Nat) (hlisting : b.setup.settings.allowlist.isSome = true)
    (hsender : Address.parse m.body.sender = .ok a) (hremoved : a ∉ (lastFetched pre).senders) :
    ∃ e, FirstFailing S b pre now m e ∧
      Refused (reached S b pre) (reached S b (pre ++ [.submit now call m])) call e := by
  refine (entitled_or_refused hbuild pre now call m).resolve_left ?_
  rintro ⟨a', h⟩
  rw [h.sender] at hsender
  exact hremoved (Except.ok.inj hsender ▸ h.listed hlisting)

end Verdict

/-! ## Runs -/

section Source

variable {S : Crypto.Scheme} {g : Setup} {s : State} {o : Op} {table : Table} {calls : List Call} {es : List Event}

/-- a call registers nothing, or it passes all checks -/
theorem Effect.of_submit {now call : Nat} {m : Message} (heff : Effect S g s (.submit now call m) table calls es) :
    table = s.table ∨ ∃ a, screen S g s m = .ok a ∧ (charge s a now).1 = true := by
  cases heff with
  | background ho => exact absurd ho Bool.false_ne_true
  | refused => exact .inl rfl
  | admitted now call m hscreen hcharge hregister => exact .inr ⟨_, hscreen, hcharge⟩

/-- the background work sends no messages -/
theorem trace_background (ho : o.isBackground = true) {call : Nat} {m : Message}
    (hev : .sent call m ∈ (step S g s o).trace) : .sent call m ∈ s.trace := by
  cases o with
  | refresh result => exact hev
  | start => simpa [step, start, State.emit] using hev
  | beginClose =>
    simp only [step, beginClose] at hev
    split at hev
    · simpa [State.emit] using hev
    · exact hev
  | _ => exact absurd ho Bool.false_ne_true

/-- an operation that sends a message is a call that passes all checks -/
theorem Effect.of_sent (heff : Effect S g s o table calls es) (ho : o.isBackground = false) {call : Nat} {m : Message}
    (hev : .sent call m ∈ es) :
    ∃ now a, o = .submit now call m ∧ screen S g s m = .ok a ∧ (charge s a now).1 = true := by
  cases heff with
  | background ho' => exact absurd (ho.symm.trans ho') Bool.false_ne_true
  | admitted now call' m' hscreen hcharge hregister =>
    obtain ⟨rfl, rfl⟩ := Event.sent.inj (List.mem_singleton.1 hev)
    exact ⟨now, _, rfl, hscreen, hcharge⟩
  | _ => simp at hev

end Source

variable {S : Crypto.Scheme} {raw : Json} {network : Network} {hasSource : Bool} {b : Built}

/-- every open request was registered by an entitled call -/
theorem entitled_of_mem_entries (hbuild : build raw network hasSource = .ok b) (ops : List Op) {e : Entry}
    (he : e ∈ (reached S b ops).table.entries) :
    ∃ pre now m mid a, ops = pre ++ .submit now e.callback m :: mid ∧ e.key = RequestKey.ofMessage m ∧
      Entitled S b pre now m e.callback a := by
  induction ops using List.reverseRecOn generalizing e with
  | nil => exact absurd he List.not_mem_nil
  | append_singleton ops o ih =>
    -- a request that was open before came from an earlier call
    have hearlier : ∀ e₀ ∈ (reached S b ops).table.entries, e.key = e₀.key → e.callback = e₀.callback →
        ∃ pre now m mid a, ops ++ [o] = pre ++ .submit now e.callback m :: mid ∧ e.key = RequestKey.ofMessage m ∧
          Entitled S b pre now m e.callback a := by
      intro e₀ he₀ hkey hcallback
      obtain ⟨pre, now, m, mid, a, rfl, hm, h⟩ := ih he₀
      rw [hkey, hcallback]
      exact ⟨pre, now, m, mid ++ [o], a, by simp, hm, h⟩
    obtain ⟨es, -, heff⟩ := step_effect S b.setup (reached S b ops) o
    rw [reached_snoc] at he
    rcases entry_of_effect (distinct_reached S b ops) heff he with ⟨now, m, rfl, hnew⟩ | ⟨e₀, he₀, hkept, -⟩
    · rcases heff.of_submit with hsame | ⟨a, hscreen, hcharge⟩
      · exact hearlier e (hsame ▸ he) rfl rfl
      · exact ⟨ops, now, m, [], a, rfl, by rw [hnew]; rfl, entitled_of_admitted hbuild _ hscreen hcharge⟩
    · exact hearlier e₀ he₀ (by rw [hkept, kept_key]) (by rw [hkept, kept_callback])

/-- every message that was sent to the nodes is that of an entitled call -/
theorem entitled_of_sent (hbuild : build raw network hasSource = .ok b) (ops : List Op) {call : Nat} {m : Message}
    (hev : .sent call m ∈ (reached S b ops).trace) :
    ∃ pre now mid a, ops = pre ++ .submit now call m :: mid ∧ Entitled S b pre now m call a := by
  induction ops using List.reverseRecOn with
  | nil => exact absurd hev List.not_mem_nil
  | append_singleton ops o ih =>
    have hearlier : .sent call m ∈ (reached S b ops).trace →
        ∃ pre now mid a, ops ++ [o] = pre ++ .submit now call m :: mid ∧ Entitled S b pre now m call a := by
      intro hev
      obtain ⟨pre, now, mid, a, rfl, h⟩ := ih hev
      exact ⟨pre, now, mid ++ [o], a, by simp, h⟩
    obtain ⟨es, htrace, heff⟩ := step_effect S b.setup (reached S b ops) o
    rw [reached_snoc] at hev
    cases ho : o.isBackground with
    | true => exact hearlier (trace_background ho hev)
    | false =>
      rw [htrace] at hev
      rcases List.mem_append.1 hev with hev | hev
      · exact hearlier hev
      · obtain ⟨now, a, rfl, hscreen, hcharge⟩ := heff.of_sent ho hev
        exact ⟨ops, now, [], a, rfl, entitled_of_admitted hbuild call hscreen hcharge⟩

/-- what admission guarantees of a run -/
structure Guarded (S : Crypto.Scheme) (b : Built) (ops : List Op) : Prop where
  /-- an open request is that of an entitled call -/
  registered : ∀ e ∈ (reached S b ops).table.entries, ∃ pre now m mid a,
    ops = pre ++ .submit now e.callback m :: mid ∧ e.key = RequestKey.ofMessage m ∧ Entitled S b pre now m e.callback a
  /-- so is a message that was sent to the nodes -/
  sent : ∀ call m, .sent call m ∈ (reached S b ops).trace → ∃ pre now mid a,
    ops = pre ++ .submit now call m :: mid ∧ Entitled S b pre now m call a
  /-- a call that is not entitled is refused with the error of its first failing check -/
  refused : ∀ pre now call m mid, ops = pre ++ .submit now call m :: mid → (∀ a, ¬ Entitled S b pre now m call a) →
    ∃ e, FirstFailing S b pre now m e ∧
      Refused (reached S b pre) (reached S b (pre ++ [.submit now call m])) call e
  /-- a sender that a fetch has taken off the list stays refused until a fetch brings it back -/
  removed : ∀ pre list mid now call m post a,
    ops = pre ++ .refresh (.ok list) :: (mid ++ .submit now call m :: post) →
    b.setup.settings.allowlist.isSome = true → Address.parse m.body.sender = .ok a → a ∉ list.senders →
    (∀ next, .refresh (.ok next) ∈ mid → a ∉ next.senders) →
    ∃ e, FirstFailing S b (pre ++ .refresh (.ok list) :: mid) now m e ∧
      Refused (reached S b (pre ++ .refresh (.ok list) :: mid))
        (reached S b (pre ++ .refresh (.ok list) :: mid ++ [.submit now call m])) call e

/-- **Only entitled calls are admitted.** In every run of a gateway that has been built, all that is registered and all
that is sent to the nodes comes from a call that met all conditions when it was made; every other call is refused, with
the error of the first condition that it did not meet. -/
theorem admission_sound (hbuild : build raw network hasSource = .ok b) (ops : List Op) : Guarded S b ops := by
  refine ⟨fun e he => entitled_of_mem_entries hbuild ops he, fun call m hev => entitled_of_sent hbuild ops hev,
    fun pre now call m mid _ hnot => ?_, fun pre list mid now call m post a _ hlisting hsender hremoved hlater => ?_⟩
  · exact (entitled_or_refused hbuild pre now call m).resolve_left fun ⟨a, h⟩ => hnot a h
  · refine refused_of_not_listed hbuild _ now call hlisting hsender ?_
    rcases lastFetched_eq pre list mid with heq | hmem
    · rwa [heq]
    · exact hlater _ hmem

/-! ## A guarded gateway -/

/-- settings that ask for an allow-list, and for rate limits by which each sender has one request a second -/
def guardedSettings : HandlerSettings :=
  ⟨some ⟨1, alice.text, 0, 60, 10⟩, some ⟨.ofNat 1, 2, .ofNat 1, 1⟩, 0, 0, 1000⟩

def loneNode : Network := ⟨"don", "functions", .null, [⟨"node", "0x01"⟩], 0⟩

/-- the gateway with those settings: with a source for its allow-list it can be built -/
def guarded : Built := (build guardedSettings.toJson loneNode true).toOption.get (by decide +kernel)

theorem build_guarded : build guardedSettings.toJson loneNode true = .ok guarded := by
  have hget : (build guardedSettings.toJson loneNode true).toOption = some guarded := (Option.some_get _).symm
  cases hbuild : build guardedSettings.toJson loneNode true with
  | error p => simp [hbuild, Except.toOption] at hget
  | ok b =>
    rw [hbuild] at hget
    exact congrArg _ (Option.some.inj hget)

/-- a sender calls before it is on the list, twice in one second when it is, after it has been taken off, and when the
gateway is closed -/
def guardedRun : List Op :=
  [.submit 0 0 (aliceRequest "don"), .refresh (.ok (.ofFetched [alice])), .submit 0 1 (aliceRequest "don"),
    .submit 1 2 (aliceRequest "don"), .refresh (.ok .empty), .submit 2 3 (aliceRequest "don"), .beginClose,
    .submit 3 4 (aliceRequest "don")]

/-- only the second call is admitted -/
theorem admission_sound_guarded :
    build guardedSettings.toJson loneNode true = .ok guarded ∧
      (reached aliceScheme guarded guardedRun).table.entries.map Entry.callback = [1] ∧
      (reached aliceScheme guarded guardedRun).trace.filterMap (fun
        | .returned call (.error e) => some (call, e.label)
        | _ => none) =
        [(0, "not_allowlisted"), (2, "rate_limited"), (3, "not_allowlisted"), (4, "lifecycle")] ∧
      Guarded aliceScheme guarded guardedRun := by
  obtain ⟨hopen, herrors⟩ :
      (reached aliceScheme guarded guardedRun).table.entries.map Entry.callback = [1] ∧
        (reached aliceScheme guarded guardedRun).trace.filterMap (fun
          | .returned call (.error e) => some (call, e.label)
          | _ => none) =
          [(0, "not_allowlisted"), (2, "rate_limited"), (3, "not_allowlisted"), (4, "lifecycle")] := by
    decide +kernel
  exact ⟨build_guarded, hopen, herrors, admission_sound build_guarded guardedRun⟩

end QuorumGateway.Gateway
