import QuorumGateway.Proofs.Config.Collecting
import QuorumGateway.Proofs.Config.Fields
import QuorumGateway.Proofs.Config.Network
/-!
The settings of the request handler, read from a document. The fields of the settings and of their two sections go by
two names each (`twoNames`), and no field is set through another (`holds`). So an object is read as certain settings
exactly when it gives no field under both names and each field yields what the settings hold for it
(`AllowlistSettings.read_eq_ok_iff`, `RateSettings.read_eq_ok_iff`, `HandlerSettings.read_eq_ok_iff`).
-/

namespace QuorumGateway

open Decode Decode.Record

section

variable {σ : Type} {r : Record σ}

/-- fields that are read on their own and all go by two names, no two of which are the same -/
theorem twoNames_of_nodup
    (hfields : ∀ f ∈ r.fields, f.Plain ∧ f.aliases = [Text.lower f.name])
    (hnames : (r.fields.flatMap fun f => [f.name, Text.lower f.name]).Nodup) : r.TwoNames := by
  obtain ⟨htwo, hapart⟩ := List.nodup_flatMap.1 hnames
  have hanswers : ∀ f ∈ r.fields, ∀ name, f.answersTo name = true ↔ name = f.name ∨ name = Text.lower f.name := by
    intro f hf name
    simp only [Decode.Field.answersTo, (hfields f hf).2, Bool.or_eq_true, beq_iff_eq, List.contains_eq_mem,
      List.mem_singleton, decide_eq_true_eq, eq_comm (a := f.name)]
  have hgoes : ∀ {name f}, r.owner name = some f → f.answersTo name = true := fun h => by
    simpa using List.find?_some h
  have howner : ∀ f ∈ r.fields, ∀ name, f.answersTo name = true → r.owner name = some f := by
    intro f hf name hname
    cases h : r.owner name with
    | none => exact absurd hname (List.find?_eq_none.1 h f hf)
    | some f' =>
      by_contra hne
      have hsymm : Std.Symm (Function.onFun List.Disjoint fun f : Decode.Field σ => [f.name, Text.lower f.name]) :=
        ⟨fun _ _ h => h.symm⟩
      have hdisjoint : List.Disjoint [f'.name, Text.lower f'.name] [f.name, Text.lower f.name] :=
        hapart.forall (mem_of_owner h) hf fun heq => hne (congrArg some heq)
      have hmem' : name ∈ [f'.name, Text.lower f'.name] := by
        simpa using (hanswers f' (mem_of_owner h) name).1 (hgoes h)
      have hmem : name ∈ [f.name, Text.lower f.name] := by
        simpa using (hanswers f hf name).1 hname
      exact hdisjoint hmem' hmem
  exact {
    plain := fun f hf => (hfields f hf).1
    nodup := List.pairwise_map.2 (hapart.imp fun hdisjoint heq => hdisjoint List.mem_cons_self (by simp [heq]))
    owner_eq := fun f hf =>
      ⟨howner f hf _ ((hanswers f hf _).2 (.inl rfl)), howner f hf _ ((hanswers f hf _).2 (.inr rfl))⟩
    eq_of_owner := fun name f h => (hanswers f (mem_of_owner h) name).1 (hgoes h)
    ne_lower := fun f hf => by simpa using htwo f hf }

theorem settingField_fields {α : Type} (name : String) (absence : Absence) (read : Reader α) (put : σ → α → σ) :
    (settingField name absence read put).Plain ∧
      (settingField name absence read put).aliases = [Text.lower (settingField name absence read put).name] :=
  ⟨⟨α, read, put, rfl⟩, rfl⟩

end

variable {members : List (String × Json)}

namespace AllowlistSettings

variable {a a' : AllowlistSettings}

theorem twoNames : record.TwoNames :=
  twoNames_of_nodup (by simp only [record, List.forall_mem_cons, settingField_fields]; simp) (by decide)

theorem holds :
    Holds record "chainID" u64 chainId ∧ Holds record "contractAddress" string contractAddress ∧
      Holds record "blockConfirmations" u64 blockConfirmations ∧
      Holds record "updateFrequencySec" u64 updateFrequencySec ∧
      Holds record "updateTimeoutSec" u64 updateTimeoutSec := by
  refine ⟨?_, ?_, ?_, ?_, ?_⟩ <;> constructor <;>
    simp [record, settingField, Decode.Field.of, map_eq_ok] <;> exact fun _ _ x _ h => ⟨x, h⟩

/-- what an object yields for the fields of the settings -/
def Given (members : List (String × Json)) (a : AllowlistSettings) : Prop :=
  Yields u64 .refused 0 (given "chainID" members) a.chainId ∧
    Yields string .refused "" (given "contractAddress" members) a.contractAddress ∧
    Yields u64 .accepted 0 (given "blockConfirmations" members) a.blockConfirmations ∧
    Yields u64 .refused 0 (given "updateFrequencySec" members) a.updateFrequencySec ∧
    Yields u64 .refused 0 (given "updateTimeoutSec" members) a.updateTimeoutSec

theorem Given.unique (h : Given members a) (h' : Given members a') : a = a' := by
  obtain ⟨h1, h2, h3, h4, h5⟩ := h
  obtain ⟨k1, k2, k3, k4, k5⟩ := h'
  cases a
  cases a'
  simp only [mk.injEq]
  exact ⟨h1.unique k1, h2.unique k2, h3.unique k3, h4.unique k4, h5.unique k5⟩

/-- **When an object is read as the settings of the allow-list** -/
theorem read_eq_ok_iff (hm : SortedMap.Ascending members) :
    ofJson record.read (.object members) = .ok a ↔
      (∀ f ∈ record.fields, ¬Doubled f.name members) ∧ Given members a := by
  obtain ⟨h1, h2, h3, h4, h5⟩ := holds
  have hfield : ∀ i (h : i < record.fields.length), record.fields[i] ∈ record.fields := fun i h => List.getElem_mem h
  refine twoNames.read_eq_ok_iff hm (fun s hs => ?_) (fun s hs f hf => ?_) fun s s' hs hs' => hs.unique hs'
  · exact ⟨Holds.yields h1 twoNames hm (hfield 0 (by decide)) hs, Holds.yields h2 twoNames hm (hfield 1 (by decide)) hs,
      Holds.yields h3 twoNames hm (hfield 2 (by decide)) hs, Holds.yields h4 twoNames hm (hfield 3 (by decide)) hs,
      Holds.yields h5 twoNames hm (hfield 4 (by decide)) hs⟩
  · obtain ⟨k1, k2, k3, k4, k5⟩ := hs
    have hcases := hf
    simp only [record, List.mem_cons, List.not_mem_nil, or_false] at hcases
    rcases hcases with rfl | rfl | rfl | rfl | rfl
    · exact Holds.readable h1 hf k1
    · exact Holds.readable h2 hf k2
    · exact Holds.readable h3 hf k3
    · exact Holds.readable h4 hf k4
    · exact Holds.readable h5 hf k5

end AllowlistSettings

namespace RateSettings

variable {r r' : RateSettings}

theorem twoNames : record.TwoNames :=
  twoNames_of_nodup (by simp only [record, List.forall_mem_cons, settingField_fields]; simp) (by decide)

theorem holds :
    Holds record "globalRPS" float globalRps ∧ Holds record "globalBurst" u32 globalBurst ∧
      Holds record "perUserRPS" float perUserRps ∧ Holds record "perUserBurst" u32 perUserBurst := by
  refine ⟨?_, ?_, ?_, ?_⟩ <;> constructor <;>
    simp [record, settingField, Decode.Field.of, map_eq_ok] <;> exact fun _ _ x _ h => ⟨x, h⟩

/-- what an object yields for the fields of the settings -/
def Given (members : List (String × Json)) (r : RateSettings) : Prop :=
  Yields float .refused (Decimal.Binary64.ofNat 0) (given "globalRPS" members) r.globalRps ∧
    Yields u32 .refused 0 (given "globalBurst" members) r.globalBurst ∧
    Yields float .refused (Decimal.Binary64.ofNat 0) (given "perUserRPS" members) r.perUserRps ∧
    Yields u32 .refused 0 (given "perUserBurst" members) r.perUserBurst

theorem Given.unique (h : Given members r) (h' : Given members r') : r = r' := by
  obtain ⟨h1, h2, h3, h4⟩ := h
  obtain ⟨k1, k2, k3, k4⟩ := h'
  cases r
  cases r'
  simp only [mk.injEq]
  exact ⟨h1.unique k1, h2.unique k2, h3.unique k3, h4.unique k4⟩

/-- **When an object is read as the settings of the rate limiter** -/
theorem read_eq_ok_iff (hm : SortedMap.Ascending members) :
    ofJson record.read (.object members) = .ok r ↔
      (∀ f ∈ record.fields, ¬Doubled f.name members) ∧ Given members r := by
  obtain ⟨h1, h2, h3, h4⟩ := holds
  have hfield : ∀ i (h : i < record.fields.length), record.fields[i] ∈ record.fields := fun i h => List.getElem_mem h
  refine twoNames.read_eq_ok_iff hm (fun s hs => ?_) (fun s hs f hf => ?_) fun s s' hs hs' => hs.unique hs'
  · exact ⟨Holds.yields h1 twoNames hm (hfield 0 (by decide)) hs, Holds.yields h2 twoNames hm (hfield 1 (by decide)) hs,
      Holds.yields h3 twoNames hm (hfield 2 (by decide)) hs, Holds.yields h4 twoNames hm (hfield 3 (by decide)) hs⟩
  · obtain ⟨k1, k2, k3, k4⟩ := hs
    have hcases := hf
    simp only [record, List.mem_cons, List.not_mem_nil, or_false] at hcases
    rcases hcases with rfl | rfl | rfl | rfl
    · exact Holds.readable h1 hf k1
    · exact Holds.readable h2 hf k2
    · exact Holds.readable h3 hf k3
    · exact Holds.readable h4 hf k4

end RateSettings

namespace HandlerSettings

variable {h h' : HandlerSettings}

theorem twoNames : record.TwoNames :=
  twoNames_of_nodup (by simp only [record, List.forall_mem_cons, settingField_fields]; simp) (by decide)

theorem holds :
    Holds record "allowlistConfig" (optional AllowlistSettings.record.read) allowlist ∧
      Holds record "rateLimiterConfig" (optional RateSettings.record.read) rateLimiter ∧
      Holds record "maxPendingRequestPerUser" size maxPendingPerUser ∧
      Holds record "maxPendingRequestsGlobal" size maxPendingGlobal ∧
      Holds record "requestTimeoutMillis" u64 requestTimeoutMillis := by
  refine ⟨?_, ?_, ?_, ?_, ?_⟩ <;> constructor <;>
    simp [record, settingField, Decode.Field.of, map_eq_ok] <;> exact fun _ _ x _ h => ⟨x, h⟩

/-- what an object yields for the fields of the settings -/
def Given (members : List (String × Json)) (h : HandlerSettings) : Prop :=
  Yields (optional AllowlistSettings.record.read) .accepted none (given "allowlistConfig" members) h.allowlist ∧
    Yields (optional RateSettings.record.read) .accepted none (given "rateLimiterConfig" members) h.rateLimiter ∧
    Yields size .accepted 0 (given "maxPendingRequestPerUser" members) h.maxPendingPerUser ∧
    Yields size .accepted 0 (given "maxPendingRequestsGlobal" members) h.maxPendingGlobal ∧
    Yields u64 .accepted standardTimeoutMillis (given "requestTimeoutMillis" members) h.requestTimeoutMillis

theorem Given.unique (hgiven : Given members h) (hgiven' : Given members h') : h = h' := by
  obtain ⟨h1, h2, h3, h4, h5⟩ := hgiven
  obtain ⟨k1, k2, k3, k4, k5⟩ := hgiven'
  cases h
  cases h'
  simp only [mk.injEq]
  exact ⟨h1.unique k1, h2.unique k2, h3.unique k3, h4.unique k4, h5.unique k5⟩

/-- **When an object is read as the settings of the handler** -/
theorem read_eq_ok_iff (hm : SortedMap.Ascending members) :
    ofJson record.read (.object members) = .ok h ↔
      (∀ f ∈ record.fields, ¬Doubled f.name members) ∧ Given members h := by
  obtain ⟨h1, h2, h3, h4, h5⟩ := holds
  have hfield : ∀ i (h : i < record.fields.length), record.fields[i] ∈ record.fields := fun i h => List.getElem_mem h
  refine twoNames.read_eq_ok_iff hm (fun s hs => ?_) (fun s hs f hf => ?_) fun s s' hs hs' => hs.unique hs'
  · exact ⟨Holds.yields h1 twoNames hm (hfield 0 (by decide)) hs, Holds.yields h2 twoNames hm (hfield 1 (by decide)) hs,
      Holds.yields h3 twoNames hm (hfield 2 (by decide)) hs, Holds.yields h4 twoNames hm (hfield 3 (by decide)) hs,
      Holds.yields h5 twoNames hm (hfield 4 (by decide)) hs⟩
  · obtain ⟨k1, k2, k3, k4, k5⟩ := hs
    have hcases := hf
    simp only [record, List.mem_cons, List.not_mem_nil, or_false] at hcases
    rcases hcases with rfl | rfl | rfl | rfl | rfl
    · exact Holds.readable h1 hf k1
    · exact Holds.readable h2 hf k2
    · exact Holds.readable h3 hf k3
    · exact Holds.readable h4 hf k4
    · exact Holds.readable h5 hf k5

theorem decode_object (members : List (String × Json)) :
    decode (.object members) = ofJson record.read (.object members) := rfl

end HandlerSettings

end QuorumGateway
