import QuorumGateway.Config.Settings
import QuorumGateway.Proofs.Outcome
import QuorumGateway.Proofs.SortedMap
/-!
A structure read from an object in memory, field by field. Each member of the object goes to the field that its name
belongs to; members with other names are passed over. Where every field goes by two names, reading succeeds exactly when
each field is given under one of them at most, no field is missing that may not be, and what is given can be read
(`TwoNames.read_ok_iff`). Then a field holds what is read from what was given for it, or what the structure started with
(`Holds.yields`).
-/

namespace QuorumGateway

namespace Draft

mutual

/-- in a document in memory nothing is at fault for one who passes over it -/
theorem pass_ofJson : ∀ v : Json, (ofJson v).pass = none
  | .null | .bool _ | .number _ | .string _ => rfl
  | .array items => passItems_ofItems items
  | .object members => passMembers_ofMembers members

theorem passItems_ofItems : ∀ items : List Json, passItems none (ofItems items) = none
  | [] => rfl
  | v :: rest => by simp only [ofItems, passItems, pass_ofJson v, passItems_ofItems rest]

theorem passMembers_ofMembers : ∀ members : List (String × Json), passMembers none (ofMembers members) = none
  | [] => rfl
  | (_, v) :: rest => by simp only [ofMembers, passMembers, pass_ofJson v, passMembers_ofMembers rest]

end

end Draft

namespace Decode

variable {σ α : Type}

/-- a document in memory read into a field of a structure -/
def Field.fill (f : Field σ) (v : Json) (s : σ) : Except DecodeError σ := f.read .memory (Draft.ofJson v) s

/-- what may be null is read as the rest is, where it is not null -/
theorem ofJson_optional_eq_map {read : Reader α} {v : Json} (hv : v.isNull = false) :
    ofJson (optional read) v = (ofJson read v).map some := by
  cases v with
  | null => cases hv
  | _ => rfl

theorem ofJson_optional {read : Reader α} {v : Json} {x : α} (hv : v.isNull = false) :
    ofJson (optional read) v = .ok (some x) ↔ ofJson read v = .ok x := by
  rw [ofJson_optional_eq_map hv, map_eq_ok]
  simp

/-- a field that is read without regard to the other fields -/
def Field.Plain (f : Field σ) : Prop :=
  ∃ (α : Type) (read : Reader α) (put : σ → α → σ), f.read = fun o d s => (read o d).map (put s)

theorem Field.Plain.fill {f : Field σ} (hf : f.Plain) {v : Json} {s s' : σ} (h : f.fill v s = .ok s') (t : σ) :
    ∃ t', f.fill v t = .ok t' := by
  obtain ⟨α, read, put, hread⟩ := hf
  rw [Field.fill, hread] at h
  obtain ⟨x, hx, -⟩ := map_eq_ok.1 h
  exact ⟨put t x, by rw [Field.fill, hread]; exact map_eq_ok.2 ⟨x, hx, rfl⟩⟩

namespace Record

variable {r : Record σ} {members : List (String × Json)} {seen seen' : List String} {s s' : σ} {f : Field σ}
  {name : String} {v : Json}

/-! ## Member by member -/

/-- the field that a name belongs to -/
def owner (r : Record σ) (name : String) : Option (Field σ) := r.fields.find? (·.answersTo name)

theorem mem_of_owner (h : r.owner name = some f) : f ∈ r.fields := List.mem_of_find?_eq_some h

/-- the members of an object in memory read into the structure -/
def fillAll (r : Record σ) (seen : List String) (s : σ) (members : List (String × Json)) :
    Except DecodeError (List String × σ) :=
  r.readMembers .memory seen s (Draft.ofMembers members)

theorem fillAll_unowned (h : r.owner name = none) :
    r.fillAll seen s ((name, v) :: members) = r.fillAll seen s members := by
  simp only [owner] at h
  simp only [fillAll, Draft.ofMembers, readMembers, h, skip, Draft.pass_ofJson, ok_bind]

theorem fillAll_seen (h : r.owner name = some f) (hseen : f.name ∈ seen) :
    r.fillAll seen s ((name, v) :: members) = .error (.duplicate f.name) := by
  simp only [owner] at h
  simp [fillAll, Draft.ofMembers, readMembers, h, hseen]

theorem fillAll_owned (h : r.owner name = some f) (hseen : f.name ∉ seen) :
    r.fillAll seen s ((name, v) :: members) = f.fill v s >>= fun s => r.fillAll (f.name :: seen) s members := by
  simp only [owner] at h
  simp [fillAll, Draft.ofMembers, readMembers, h, hseen, Field.fill]

/-- a member that is read goes to a field that had not been read, unless it is passed over -/
theorem fillAll_cons_eq_ok (h : r.fillAll seen s ((name, v) :: members) = .ok (seen', s')) :
    (r.owner name = none ∧ r.fillAll seen s members = .ok (seen', s')) ∨
      ∃ f t, r.owner name = some f ∧ f.name ∉ seen ∧ f.fill v s = .ok t ∧
        r.fillAll (f.name :: seen) t members = .ok (seen', s') := by
  cases howner : r.owner name with
  | none =>
    rw [fillAll_unowned howner] at h
    exact .inl ⟨rfl, h⟩
  | some f =>
    by_cases hseen : f.name ∈ seen
    · rw [fillAll_seen howner hseen] at h
      cases h
    · rw [fillAll_owned howner hseen] at h
      obtain ⟨t, ht, h⟩ := bind_eq_ok.1 h
      exact .inr ⟨f, t, rfl, hseen, ht, h⟩

/-- whether a member is read into the field with a name -/
def Gives (r : Record σ) (field : String) (e : String × Json) : Prop := ∃ f, r.owner e.1 = some f ∧ f.name = field

theorem mem_seen_iff (h : r.fillAll seen s members = .ok (seen', s')) (field : String) :
    field ∈ seen' ↔ field ∈ seen ∨ ∃ e ∈ members, r.Gives field e := by
  induction members generalizing seen s with
  | nil =>
    cases h
    simp
  | cons e members ih =>
    obtain ⟨name, v⟩ := e
    rcases fillAll_cons_eq_ok h with ⟨howner, h⟩ | ⟨f, t, howner, -, -, h⟩
    · simp [ih h, Gives, howner]
    · rw [ih h]
      simp only [List.mem_cons, Gives, exists_eq_or_imp, howner, Option.some.injEq, exists_eq_left']
      tauto

/-- a field that has been read is not given again -/
theorem not_gives_of_seen (h : r.fillAll seen s members = .ok (seen', s')) {field : String} (hseen : field ∈ seen) :
    ∀ e ∈ members, ¬r.Gives field e := by
  induction members generalizing seen s with
  | nil => simp
  | cons e members ih =>
    obtain ⟨name, v⟩ := e
    rcases fillAll_cons_eq_ok h with ⟨howner, h⟩ | ⟨f, t, howner, hfresh, -, h⟩
    · refine List.forall_mem_cons.2 ⟨?_, ih h hseen⟩
      rintro ⟨f, hf, -⟩
      rw [howner] at hf
      cases hf
    · refine List.forall_mem_cons.2 ⟨?_, ih h (List.mem_cons_of_mem _ hseen)⟩
      rintro ⟨f', hf', rfl⟩
      rw [howner] at hf'
      cases hf'
      exact hfresh hseen

/-- **When the members of an object are read**: each field is given once at most, and what is given can be read -/
theorem fillAll_ok_iff (hplain : ∀ f ∈ r.fields, f.Plain) :
    (∃ seen' s', r.fillAll seen s members = .ok (seen', s')) ↔
      (∀ e ∈ members, ∀ f, r.owner e.1 = some f → f.name ∉ seen ∧ ∃ t t', f.fill e.2 t = .ok t') ∧
        members.Pairwise fun e e' => ∀ field, r.Gives field e → ¬r.Gives field e' := by
  induction members generalizing seen s with
  | nil => exact ⟨fun _ => ⟨nofun, .nil⟩, fun _ => ⟨seen, s, rfl⟩⟩
  | cons e members ih =>
    obtain ⟨name, v⟩ := e
    rw [List.forall_mem_cons, List.pairwise_cons]
    constructor
    · rintro ⟨seen', s', h⟩
      rcases fillAll_cons_eq_ok h with ⟨howner, h⟩ | ⟨f, t, howner, hfresh, hfill, h⟩
      · obtain ⟨hall, honce⟩ := ih.1 ⟨seen', s', h⟩
        refine ⟨⟨fun f hf => ?_, hall⟩, fun e _ field => ?_, honce⟩
        · rw [howner] at hf
          cases hf
        · rintro ⟨f, hf, -⟩
          rw [howner] at hf
          cases hf
      · obtain ⟨hall, honce⟩ := ih.1 ⟨seen', s', h⟩
        refine ⟨⟨fun f' hf' => ?_, fun e he f' hf' => ?_⟩, fun e he field => ?_, honce⟩
        · obtain rfl : f = f' := Option.some.inj (howner.symm.trans hf')
          exact ⟨hfresh, s, t, hfill⟩
        · exact ⟨fun hmem => (hall e he f' hf').1 (List.mem_cons_of_mem _ hmem), (hall e he f' hf').2⟩
        · rintro ⟨f', hf', rfl⟩
          obtain rfl : f = f' := Option.some.inj (howner.symm.trans hf')
          exact not_gives_of_seen h List.mem_cons_self e he
    · rintro ⟨⟨hhead, hall⟩, hother, honce⟩
      cases howner : r.owner name with
      | none =>
        rw [fillAll_unowned howner]
        exact ih.2 ⟨hall, honce⟩
      | some f =>
        obtain ⟨hfresh, t, t', hfill⟩ := hhead f howner
        obtain ⟨u, hu⟩ := (hplain f (mem_of_owner howner)).fill hfill s
        rw [fillAll_owned howner hfresh, hu, ok_bind]
        refine ih.2 ⟨fun e he f' hf' => ⟨?_, (hall e he f' hf').2⟩, honce⟩
        rw [List.mem_cons, not_or]
        refine ⟨fun heq => ?_, (hall e he f' hf').1⟩
        exact hother e he f.name ⟨f, howner, rfl⟩ ⟨f', hf', heq⟩

/-- a part of the structure that one field alone sets, to what is read for it -/
structure Holds (r : Record σ) (field : String) (read : Reader α) (part : σ → α) : Prop where
  own : ∀ f ∈ r.fields, f.name = field → ∀ o d s s', f.read o d s = .ok s' → read o d = .ok (part s')
  others : ∀ f ∈ r.fields, f.name ≠ field → ∀ o d s s', f.read o d s = .ok s' → part s' = part s
  accepts : ∀ f ∈ r.fields, f.name = field → ∀ o d x s, read o d = .ok x → ∃ s', f.read o d s = .ok s'

variable {field : String} {read : Reader α} {part : σ → α}

theorem Holds.of_not_gives (hpart : Holds r field read part) (h : r.fillAll seen s members = .ok (seen', s'))
    (hnone : ∀ e ∈ members, ¬r.Gives field e) : part s' = part s := by
  induction members generalizing seen s with
  | nil =>
    cases h
    rfl
  | cons e members ih =>
    obtain ⟨name, v⟩ := e
    obtain ⟨hhead, hnone⟩ := List.forall_mem_cons.1 hnone
    rcases fillAll_cons_eq_ok h with ⟨-, h⟩ | ⟨f, t, howner, -, hfill, h⟩
    · exact ih h hnone
    · have hne : f.name ≠ field := fun heq => hhead ⟨f, howner, heq⟩
      rw [ih h hnone]
      exact hpart.others f (mem_of_owner howner) hne _ _ _ _ hfill

theorem Holds.of_gives (hpart : Holds r field read part) (h : r.fillAll seen s members = .ok (seen', s'))
    {e : String × Json} (he : e ∈ members) (hgives : r.Gives field e) : ofJson read e.2 = .ok (part s') := by
  induction members generalizing seen s with
  | nil => cases he
  | cons first members ih =>
    obtain ⟨name, v⟩ := first
    rcases fillAll_cons_eq_ok h with ⟨howner, h⟩ | ⟨f, t, howner, -, hfill, h⟩
    · rcases List.mem_cons.1 he with rfl | he
      · obtain ⟨f, hf, -⟩ := hgives
        rw [howner] at hf
        cases hf
      · exact ih h he
    · rcases List.mem_cons.1 he with rfl | he
      · obtain ⟨f', hf', rfl⟩ := hgives
        obtain rfl : f = f' := Option.some.inj (howner.symm.trans hf')
        -- the field has been read now, so no later member changes its part
        rw [hpart.of_not_gives h (not_gives_of_seen h List.mem_cons_self)]
        exact hpart.own f (mem_of_owner howner) rfl _ _ _ _ hfill
      · exact ih h he

/-! ## Fields with two names -/

/-- every field goes by its name and by that name in small letters, which are two -/
structure TwoNames (r : Record σ) : Prop where
  plain : ∀ f ∈ r.fields, f.Plain
  nodup : (r.fields.map Field.name).Nodup
  owner_eq : ∀ f ∈ r.fields, r.owner f.name = some f ∧ r.owner (Text.lower f.name) = some f
  eq_of_owner : ∀ name f, r.owner name = some f → name = f.name ∨ name = Text.lower f.name
  ne_lower : ∀ f ∈ r.fields, f.name ≠ Text.lower f.name

/-- what an object gives for a field under either name -/
def given (name : String) (members : List (String × Json)) : Option Json :=
  (SortedMap.get? name members).or (SortedMap.get? (Text.lower name) members)

/-- whether an object gives a field under both names -/
def Doubled (name : String) (members : List (String × Json)) : Prop :=
  SortedMap.get? name members ≠ none ∧ SortedMap.get? (Text.lower name) members ≠ none

namespace TwoNames

theorem gives_iff (hr : r.TwoNames) (hf : f ∈ r.fields) (e : String × Json) :
    r.Gives f.name e ↔ e.1 = f.name ∨ e.1 = Text.lower f.name := by
  constructor
  · rintro ⟨f', howner, hname⟩
    exact hname ▸ hr.eq_of_owner e.1 f' howner
  · rintro (heq | heq)
    · exact ⟨f, heq ▸ (hr.owner_eq f hf).1, rfl⟩
    · exact ⟨f, heq ▸ (hr.owner_eq f hf).2, rfl⟩

theorem exists_gives_iff (hr : r.TwoNames) (hm : SortedMap.Ascending members) (hf : f ∈ r.fields) :
    (∃ e ∈ members, r.Gives f.name e) ↔ given f.name members ≠ none := by
  have hlook : ∀ k, SortedMap.get? k members ≠ none ↔ ∃ e ∈ members, e.1 = k := by
    intro k
    rw [← Option.isSome_iff_ne_none, Option.isSome_iff_exists]
    constructor
    · rintro ⟨v, hv⟩
      exact ⟨(k, v), SortedMap.mem_of_get? hv, rfl⟩
    · rintro ⟨⟨k, v⟩, he, rfl⟩
      exact ⟨v, (SortedMap.get?_eq_some_iff hm).2 he⟩
  simp only [hr.gives_iff hf, and_or_left, exists_or, ← hlook, given]
  cases SortedMap.get? f.name members <;> simp

theorem given_of_mem (hr : r.TwoNames) (hm : SortedMap.Ascending members) (hf : f ∈ r.fields)
    (honce : ¬Doubled f.name members) {e : String × Json} (he : e ∈ members) (hgives : r.Gives f.name e) :
    given f.name members = some e.2 := by
  have hlook : SortedMap.get? e.1 members = some e.2 := (SortedMap.get?_eq_some_iff hm).2 he
  rw [Doubled] at honce
  rcases (hr.gives_iff hf e).1 hgives with heq | heq <;> rw [heq] at hlook <;> simp_all [given]

theorem exists_mem_of_given (hr : r.TwoNames) (hf : f ∈ r.fields) (h : given f.name members = some v) :
    ∃ e ∈ members, r.Gives f.name e ∧ e.2 = v := by
  rcases Option.or_eq_some_iff.1 h with h | ⟨-, h⟩
  · exact ⟨_, SortedMap.mem_of_get? h, (hr.gives_iff hf _).2 (.inl rfl), rfl⟩
  · exact ⟨_, SortedMap.mem_of_get? h, (hr.gives_iff hf _).2 (.inr rfl), rfl⟩

/-- members that give one field under one name each are the same -/
theorem pairwise_iff (hr : r.TwoNames) (hm : SortedMap.Ascending members) :
    (members.Pairwise fun e e' => ∀ field, r.Gives field e → ¬r.Gives field e') ↔
      ∀ f ∈ r.fields, ¬Doubled f.name members := by
  constructor
  · rintro hpairs f hf ⟨hname, hlower⟩
    obtain ⟨v, hv⟩ := Option.ne_none_iff_exists'.1 hname
    obtain ⟨w, hw⟩ := Option.ne_none_iff_exists'.1 hlower
    have hne : (f.name, v) ≠ (Text.lower f.name, w) := fun h => hr.ne_lower f hf (Prod.mk.inj h).1
    have hsymm : Std.Symm fun e e' => ∀ field, r.Gives field e → ¬r.Gives field e' :=
      ⟨fun _ _ h field h' h'' => h field h'' h'⟩
    exact hpairs.forall (SortedMap.mem_of_get? hv) (SortedMap.mem_of_get? hw) hne f.name
      ((hr.gives_iff hf _).2 (.inl rfl)) ((hr.gives_iff hf _).2 (.inr rfl))
  · intro honce
    refine List.Pairwise.imp_of_mem ?_ (List.pairwise_map.1 hm.nodup_keys)
    rintro e e' he he' hne field ⟨f, howner, rfl⟩ hgives'
    have hf := mem_of_owner howner
    have h := hr.given_of_mem hm hf (honce f hf) he ⟨f, howner, rfl⟩
    have hlook : SortedMap.get? e.1 members = some e.2 := (SortedMap.get?_eq_some_iff hm).2 he
    have hlook' : SortedMap.get? e'.1 members = some e'.2 := (SortedMap.get?_eq_some_iff hm).2 he'
    apply honce f hf
    rcases (hr.gives_iff hf e).1 ⟨f, howner, rfl⟩ with heq | heq <;>
      rcases (hr.gives_iff hf e').1 hgives' with heq' | heq'
    · exact absurd (heq.trans heq'.symm) hne
    · rw [heq] at hlook; rw [heq'] at hlook'; simp [Doubled, hlook, hlook']
    · rw [heq] at hlook; rw [heq'] at hlook'; simp [Doubled, hlook, hlook']
    · exact absurd (heq.trans heq'.symm) hne

theorem ofJson_read_eq_ok :
    ofJson r.read (.object members) = .ok s ↔
      ∃ seen, r.fillAll [] r.blank members = .ok (seen, s) ∧ r.lacking? seen = none := by
  simp only [ofJson, Record.read, Draft.ofJson, Origin.enter, ok_bind, close]
  constructor
  · intro h
    obtain ⟨⟨seen, t⟩, hfill, h⟩ := bind_eq_ok.1 h
    dsimp only at h
    cases hlacking : r.lacking? seen with
    | none => rw [hlacking] at h; cases h; exact ⟨seen, hfill, hlacking⟩
    | some f => rw [hlacking] at h; cases h
  · rintro ⟨seen, hfill, hlacking⟩
    rw [fillAll] at hfill
    rw [hfill, ok_bind]
    simp only [hlacking]
    rfl

/-- **When a structure is read from an object**: no field is given under both names, none is missing that may not be,
and what is given can be read -/
theorem read_ok_iff (hr : r.TwoNames) (hm : SortedMap.Ascending members) :
    (∃ s, ofJson r.read (.object members) = .ok s) ↔ ∀ f ∈ r.fields,
      ¬Doubled f.name members ∧ (f.absence = .refused → given f.name members ≠ none) ∧
        ∀ v, given f.name members = some v → ∃ t t', f.fill v t = .ok t' := by
  have hlack : ∀ {seen s}, r.fillAll [] r.blank members = .ok (seen, s) →
      (r.lacking? seen = none ↔ ∀ f ∈ r.fields, f.absence = .refused → given f.name members ≠ none) := by
    intro seen s hfill
    simp only [lacking?, List.find?_eq_none]
    refine forall₂_congr fun f hf => ?_
    have hseen : f.name ∈ seen ↔ given f.name members ≠ none := by
      rw [mem_seen_iff hfill, ← hr.exists_gives_iff hm hf]
      simp
    simp [← hseen]
  constructor
  · rintro ⟨s, h⟩ f hf
    obtain ⟨seen, hfill, hlacking⟩ := ofJson_read_eq_ok.1 h
    obtain ⟨hall, hpairs⟩ := (fillAll_ok_iff hr.plain).1 ⟨seen, s, hfill⟩
    refine ⟨(hr.pairwise_iff hm).1 hpairs f hf, (hlack hfill).1 hlacking f hf, fun v hv => ?_⟩
    obtain ⟨e, he, ⟨f', howner, hname⟩, rfl⟩ := hr.exists_mem_of_given hf hv
    obtain rfl : f' = f := List.inj_on_of_nodup_map hr.nodup (mem_of_owner howner) hf hname
    exact (hall e he f' howner).2
  · intro h
    have hpairs := (hr.pairwise_iff hm).2 fun f hf => (h f hf).1
    obtain ⟨seen, s, hfill⟩ : ∃ seen s, r.fillAll [] r.blank members = .ok (seen, s) := by
      refine (fillAll_ok_iff hr.plain).2 ⟨fun e he f howner => ⟨List.not_mem_nil, ?_⟩, hpairs⟩
      obtain ⟨hdoubled, -, hreadable⟩ := h f (mem_of_owner howner)
      exact hreadable e.2 (hr.given_of_mem hm (mem_of_owner howner) hdoubled he ⟨f, howner, rfl⟩)
    exact ⟨s, ofJson_read_eq_ok.2 ⟨seen, hfill, (hlack hfill).2 fun f hf => (h f hf).2.1⟩⟩

end TwoNames

/-- a value that a field comes to hold: what is given is read as it, or it is the standard of a field that may be left
out -/
def Yields (read : Reader α) (absence : Absence) (standard : α) : Option Json → α → Prop
  | some v, x => ofJson read v = .ok x
  | none, x => absence ≠ .refused ∧ x = standard

theorem Yields.unique {absence : Absence} {standard x y : α} {found : Option Json}
    (hx : Yields read absence standard found x) (hy : Yields read absence standard found y) : x = y := by
  cases found with
  | none => exact hx.2.trans hy.2.symm
  | some v => exact Except.ok.inj (Eq.trans (Eq.symm hx) hy)

namespace Holds

/-- **What a field of a structure holds that was read from an object** -/
theorem yields (hpart : Holds r f.name read part) (hr : r.TwoNames) (hm : SortedMap.Ascending members)
    (hf : f ∈ r.fields) (h : ofJson r.read (.object members) = .ok s) :
    Yields read f.absence (part r.blank) (given f.name members) (part s) := by
  obtain ⟨seen, hfill, -⟩ := TwoNames.ofJson_read_eq_ok.1 h
  cases hgiven : given f.name members with
  | some v =>
    obtain ⟨e, he, hgives, rfl⟩ := hr.exists_mem_of_given hf hgiven
    exact hpart.of_gives hfill he hgives
  | none =>
    refine ⟨fun hrefused => ((hr.read_ok_iff hm).1 ⟨s, h⟩ f hf).2.1 hrefused hgiven, ?_⟩
    exact hpart.of_not_gives hfill fun e he hgives => (hr.exists_gives_iff hm hf).1 ⟨e, he, hgives⟩ hgiven

/-- a field that yields a value is no reason for the structure not to be read -/
theorem readable (hpart : Holds r f.name read part) (hf : f ∈ r.fields) {x : α}
    (h : Yields read f.absence (part r.blank) (given f.name members) x) :
    (f.absence = .refused → given f.name members ≠ none) ∧
      ∀ v, given f.name members = some v → ∃ t t', f.fill v t = .ok t' := by
  cases hgiven : given f.name members with
  | some v =>
    rw [hgiven] at h
    refine ⟨fun _ => nofun, ?_⟩
    rintro _ ⟨⟩
    exact ⟨r.blank, hpart.accepts f hf rfl _ _ x _ h⟩
  | none =>
    rw [hgiven] at h
    exact ⟨fun hrefused => absurd hrefused h.1, nofun⟩

end Holds

/-- **When an object is read as a certain value**: no field is given under both names, and the value has what the fields
yield, which leaves no choice and is enough for reading them -/
theorem TwoNames.read_eq_ok_iff (hr : r.TwoNames) (hm : SortedMap.Ascending members) {Has : σ → Prop}
    (hread : ∀ s, ofJson r.read (.object members) = .ok s → Has s)
    (hreadable : ∀ s, Has s → ∀ f ∈ r.fields, (f.absence = .refused → given f.name members ≠ none) ∧
      ∀ v, given f.name members = some v → ∃ t t', f.fill v t = .ok t')
    (hunique : ∀ s s', Has s → Has s' → s = s') :
    ofJson r.read (.object members) = .ok s ↔ (∀ f ∈ r.fields, ¬Doubled f.name members) ∧ Has s := by
  constructor
  · intro h
    exact ⟨fun f hf => ((hr.read_ok_iff hm).1 ⟨s, h⟩ f hf).1, hread s h⟩
  · rintro ⟨honce, hhas⟩
    obtain ⟨t, ht⟩ := (hr.read_ok_iff hm).2 fun f hf => ⟨honce f hf, hreadable s hhas f hf⟩
    rwa [hunique s t hhas (hread t ht)]

end Record

end Decode

end QuorumGateway
