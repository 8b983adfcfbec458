import QuorumGateway.Config.Layers
import QuorumGateway.Proofs.SortedMap
/-!
What a document holds after others have been laid over it, looked up along paths of names (`at?`). Two paths are apart
when neither leads to the other. A value put at a path is found there (`at?_plant_self`), and what stands at paths apart
from it stays (`at?_plant_apart`). A document laid over another shows wherever it holds a value
(`at?_overlayMembers_leaf`), and where it leaves a path open the one below shows through (`at?_overlayMembers_open`).
-/

namespace QuorumGateway.Layers

open SortedMap

variable {d base v w : Json} {p q : List String} {name : String} {members : List (String × Json)}
  {entries : List (List String × Json)}

/-! ## Looking up -/

/-- what stands at the end of a path of names; only objects have members -/
def at? : List String → Json → Option Json
  | [], v => some v
  | name :: rest, v => (get? name (membersOf v)).bind (at? rest)

/-- whether a value has no members -/
def isLeaf : Json → Bool
  | .object _ => false
  | _ => true

/-- whether neither of two paths leads to the other -/
def apart : List String → List String → Bool
  | a :: p, b :: q => a != b || apart p q
  | _, _ => false

theorem membersOf_object (members : List (String × Json)) : membersOf (.object members) = members := rfl

theorem at?_cons (name : String) (p : List String) (d : Json) :
    at? (name :: p) d = (get? name (membersOf d)).bind (at? p) := rfl

theorem apart_append (p q : List String) : apart p (p ++ q) = false := by
  induction p with
  | nil => rfl
  | cons a p ih => simp [apart, ih]

theorem apart_self (p : List String) : apart p p = false := by simpa using apart_append p []

theorem membersOf_of_isLeaf (hv : isLeaf v = true) : membersOf v = [] := by
  cases v <;> first | rfl | cases hv

theorem at?_of_isLeaf (hv : isLeaf v = true) : at? (name :: p) v = none := by
  simp [at?, membersOf_of_isLeaf hv, get?]

theorem at?_append (p q : List String) (d : Json) : at? (p ++ q) d = (at? p d).bind (at? q) := by
  induction p generalizing d with
  | nil => rfl
  | cons name p ih =>
    simp only [List.cons_append, at?, Option.bind_assoc]
    exact congrArg _ (funext ih)

/-- where something stands further in, there is an object -/
theorem exists_object_of_at? (h : at? (p ++ name :: q) d = some v) : ∃ members, at? p d = some (.object members) := by
  rw [at?_append] at h
  obtain ⟨w, hw, h⟩ := Option.bind_eq_some_iff.1 h
  by_cases hleaf : isLeaf w = true
  · rw [at?_of_isLeaf hleaf] at h
    cases h
  · cases w <;> first | exact ⟨_, hw⟩ | exact absurd rfl hleaf

/-! ## Order -/

/-- in every object of the document the names ascend -/
def Ordered (d : Json) : Prop := ∀ p members, at? p d = some (.object members) → Ascending members

theorem Ordered.names (h : Ordered (.object members)) : Ascending members := h [] members rfl

theorem Ordered.ascending (h : Ordered d) : Ascending (membersOf d) := by
  cases d with
  | object members => exact h.names
  | _ => exact List.Pairwise.nil

theorem Ordered.of_get? (h : Ordered d) (hv : get? name (membersOf d) = some v) : Ordered v := by
  intro p members hp
  exact h (name :: p) members (by simpa [at?, hv] using hp)

theorem ordered_of_isLeaf (hv : isLeaf v = true) : Ordered v := by
  intro p members hp
  cases p with
  | nil => cases hp; cases hv
  | cons name p => rw [at?_of_isLeaf hv] at hp; cases hp

theorem ordered_object (hm : Ascending members) (h : ∀ name v, get? name members = some v → Ordered v) :
    Ordered (.object members) := by
  intro p members' hp
  cases p with
  | nil => cases hp; exact hm
  | cons name p =>
    obtain ⟨v, hv, hp⟩ := Option.bind_eq_some_iff.1 hp
    exact h name v hv p members' hp

theorem ordered_empty : Ordered (.object []) := ordered_object List.Pairwise.nil fun _ _ h => nomatch h

/-! ## A value at a path -/

/-- a value put at the end of a path of names -/
def plant (p : List String) (v d : Json) : Json := assign d v (p.map .name)

/-- the member that a value is put into -/
def child (name : String) (d : Json) : Json := (get? name (membersOf d)).getD .null

theorem at?_child (hp : p ≠ []) : at? p (child name d) = at? (name :: p) d := by
  cases p with
  | nil => exact absurd rfl hp
  | cons first rest =>
    rw [at?_cons name, child]
    cases get? name (membersOf d) <;> rfl

theorem ordered_child (hd : Ordered d) : Ordered (child name d) := by
  cases h : get? name (membersOf d) with
  | none => simpa [child, h] using ordered_of_isLeaf (v := .null) rfl
  | some v => simpa [child, h] using hd.of_get? h

theorem plant_cons (hv : isLeaf v = true) :
    plant (name :: p) v d = .object (put name (plant p v (child name d)) (membersOf d)) := by
  cases p with
  | nil => cases v <;> first | rfl | cases hv
  | cons first rest => rfl

theorem at?_plant_self (hv : isLeaf v = true) : at? p (plant p v d) = some v := by
  induction p generalizing d with
  | nil => rfl
  | cons name p ih => simp [plant_cons hv, at?_cons, membersOf_object, get?_put_self, ih]

theorem at?_plant_apart (hv : isLeaf v = true) (h : apart p q = true) : at? q (plant p v d) = at? q d := by
  induction p generalizing q d with
  | nil => cases h
  | cons a p ih =>
    cases q with
    | nil => cases h
    | cons b q =>
      rw [plant_cons hv]
      by_cases hab : a = b
      · subst hab
        have hq : apart p q = true := by simpa [apart] using h
        have hne : q ≠ [] := by rintro rfl; cases p <;> cases hq
        rw [at?_cons, membersOf_object, get?_put_self, Option.bind_some, ih hq, at?_child hne]
      · simp [at?_cons, membersOf_object, get?_put_of_ne _ _ hab]

/-- a value that is found was put there or had been there before -/
theorem at?_plant_cases (hv : isLeaf v = true) (hw : isLeaf w = true) (h : at? q (plant p v d) = some w) :
    q = p ∨ at? q d = some w := by
  induction p generalizing q d with
  | nil =>
    cases q with
    | nil => exact .inl rfl
    | cons b q => rw [plant, List.map_nil, assign, at?_of_isLeaf hv] at h; cases h
  | cons a p ih =>
    cases q with
    | nil =>
      rw [plant_cons hv] at h
      cases h
      cases hw
    | cons b q =>
      rw [plant_cons hv] at h
      by_cases hab : a = b
      · subst hab
        rw [at?_cons, membersOf_object, get?_put_self, Option.bind_some] at h
        by_cases hq : q = []
        · subst hq
          cases p with
          | nil => exact .inl rfl
          | cons c p => rw [plant_cons hv] at h; cases h; cases hw
        · rcases ih h with rfl | h
          · exact .inl rfl
          · exact .inr (at?_child hq ▸ h)
      · rw [at?_cons, membersOf_object, get?_put_of_ne _ _ hab] at h
        exact .inr h

theorem ordered_plant (hv : isLeaf v = true) (hd : Ordered d) : Ordered (plant p v d) := by
  induction p generalizing d with
  | nil => exact ordered_of_isLeaf hv
  | cons name p ih =>
    rw [plant_cons hv]
    refine ordered_object (ascending_put _ _ hd.ascending) fun other w hw => ?_
    by_cases hne : name = other
    · subst hne
      rw [get?_put_self] at hw
      cases hw
      exact ih (ordered_child hd)
    · rw [get?_put_of_ne _ _ hne] at hw
      exact hd.of_get? hw

/-! ## Several values -/

def plants (entries : List (List String × Json)) (d : Json) : Json := entries.foldl (fun d e => plant e.1 e.2 d) d

theorem plants_cons (e : List String × Json) : plants (e :: entries) d = plants entries (plant e.1 e.2 d) := rfl

theorem at?_plants_apart (hleaf : ∀ e ∈ entries, isLeaf e.2 = true) (h : ∀ e ∈ entries, apart e.1 p = true) :
    at? p (plants entries d) = at? p d := by
  induction entries generalizing d with
  | nil => rfl
  | cons e entries ih =>
    obtain ⟨he, hleaf⟩ := List.forall_mem_cons.1 hleaf
    obtain ⟨hapart, h⟩ := List.forall_mem_cons.1 h
    rw [plants_cons, ih hleaf h, at?_plant_apart he hapart]

/-- a path that only one of the values goes to, and all others stay apart from -/
theorem at?_plants_of_mem (hleaf : ∀ e ∈ entries, isLeaf e.2 = true)
    (h : ∀ e ∈ entries, e = (p, v) ∨ apart e.1 p = true) (hmem : (p, v) ∈ entries) :
    at? p (plants entries d) = some v := by
  induction entries generalizing d with
  | nil => cases hmem
  | cons e entries ih =>
    obtain ⟨he, hrest⟩ := List.forall_mem_cons.1 hleaf
    obtain ⟨-, hothers⟩ := List.forall_mem_cons.1 h
    rw [plants_cons]
    by_cases hlater : (p, v) ∈ entries
    · exact ih hrest hothers hlater
    · obtain rfl : e = (p, v) := ((List.mem_cons.1 hmem).resolve_right hlater).symm
      have hapart : ∀ e ∈ entries, apart e.1 p = true := by
        intro e he
        refine (hothers e he).resolve_left ?_
        rintro rfl
        exact hlater he
      rw [at?_plants_apart hrest hapart, at?_plant_self he]

theorem at?_plants_cases (hleaf : ∀ e ∈ entries, isLeaf e.2 = true) (hw : isLeaf w = true)
    (h : at? q (plants entries d) = some w) : (∃ e ∈ entries, e.1 = q) ∨ at? q d = some w := by
  induction entries generalizing d with
  | nil => exact .inr h
  | cons e entries ih =>
    obtain ⟨he, hleaf⟩ := List.forall_mem_cons.1 hleaf
    rcases ih hleaf h with ⟨e', he', hq⟩ | h
    · exact .inl ⟨e', List.mem_cons_of_mem _ he', hq⟩
    · exact (at?_plant_cases he hw h).imp_left fun hq => ⟨e, List.mem_cons_self, hq.symm⟩

theorem ordered_plants (hleaf : ∀ e ∈ entries, isLeaf e.2 = true) (hd : Ordered d) : Ordered (plants entries d) := by
  induction entries generalizing d with
  | nil => exact hd
  | cons e entries ih =>
    obtain ⟨he, hleaf⟩ := List.forall_mem_cons.1 hleaf
    exact ih hleaf (ordered_plant he hd)

theorem exists_plants (hleaf : ∀ e ∈ entries, isLeaf e.2 = true) (hnames : ∀ e ∈ entries, e.1 ≠ []) :
    ∃ members', plants entries (.object members) = .object members' := by
  induction entries generalizing members with
  | nil => exact ⟨members, rfl⟩
  | cons e entries ih =>
    obtain ⟨he, hrest⟩ := List.forall_mem_cons.1 hleaf
    obtain ⟨hname, hothers⟩ := List.forall_mem_cons.1 hnames
    obtain ⟨_ | ⟨name, p⟩, v⟩ := e
    · exact absurd rfl hname
    · rw [plants_cons, plant_cons he]
      exact ih hrest hothers

/-! ## A document over another -/

/-- what stands for a member that is laid over one below it -/
def laid (below : Json) : Json → Json
  | .object members => overlayMembers below members
  | v => v

theorem overlay_eq (base : Json) (name : String) (v : Json) :
    overlay base name v =
      .object (put name (laid ((get? name (membersOf base)).getD (.object [])) v) (membersOf base)) := by
  cases v <;> simp only [overlay, laid]

theorem get?_overlayMembers (hm : Ascending members) :
    get? name (membersOf (overlayMembers base members)) =
      match get? name members with
      | none => get? name (membersOf base)
      | some v => some (laid ((get? name (membersOf base)).getD (.object [])) v) := by
  induction members generalizing base with
  | nil => rfl
  | cons e members ih =>
    obtain ⟨first, v⟩ := e
    obtain ⟨hfirst, hm⟩ := List.pairwise_cons.1 hm
    rw [overlayMembers, ih hm, overlay_eq]
    by_cases hne : first = name
    · subst hne
      have hlast : get? first members = none := by
        cases h : get? first members with
        | none => rfl
        | some w => exact absurd (hfirst first (List.mem_map_of_mem (mem_of_get? h))) (lt_irrefl _)
      simp [get?, hlast, membersOf, get?_put_self]
    · simp only [get?, if_neg hne, membersOf, get?_put_of_ne _ _ hne]

theorem ascending_overlayMembers (hb : Ascending (membersOf base)) :
    Ascending (membersOf (overlayMembers base members)) := by
  induction members generalizing base with
  | nil => exact hb
  | cons e members ih =>
    rw [overlayMembers, overlay_eq]
    exact ih (ascending_put _ _ hb)

theorem ordered_overlayMembers (hb : Ordered base) (hm : Ordered (.object members)) :
    Ordered (overlayMembers base members) := by
  intro p
  induction p generalizing base members with
  | nil =>
    intro found h
    have hnames : Ascending (membersOf (overlayMembers base members)) := ascending_overlayMembers hb.ascending
    rw [Option.some.inj h] at hnames
    exact hnames
  | cons name p ih =>
    intro found h
    rw [at?_cons, get?_overlayMembers hm.names] at h
    cases hv : get? name members with
    | none =>
      rw [hv] at h
      exact hb (name :: p) found h
    | some v =>
      simp only [hv, Option.bind_some] at h
      have hinner : Ordered v := hm.of_get? hv
      cases v with
      | object inner =>
        refine ih ?_ hinner found h
        cases hbelow : get? name (membersOf base) with
        | none => exact ordered_empty
        | some below => exact hb.of_get? hbelow
      | _ => exact hinner p found h

/-- a value that the upper document holds shows -/
theorem at?_overlayMembers_leaf (hm : Ordered (.object members)) (hv : isLeaf v = true)
    (h : at? p (.object members) = some v) : at? p (overlayMembers base members) = some v := by
  induction p generalizing base members with
  | nil =>
    cases h
    cases hv
  | cons name p ih =>
    obtain ⟨w, hw, h⟩ := Option.bind_eq_some_iff.1 h
    rw [membersOf] at hw
    simp only [at?_cons, get?_overlayMembers hm.names, hw, Option.bind_some]
    have hinner : Ordered w := hm.of_get? hw
    cases w with
    | object inner => exact ih hinner h
    | _ => exact h

/-- a path that the upper document leaves open: it holds nothing there, and no value on the way -/
def Open (p : List String) (d : Json) : Prop :=
  at? p d = none ∧ ∀ q, q <+: p → ∀ w, at? q d = some w → isLeaf w = false

/-- what is below a path that the upper document leaves open shows through -/
theorem at?_overlayMembers_open (hm : Ordered (.object members)) (h : Open p (.object members)) :
    at? p (overlayMembers base members) = at? p base := by
  induction p generalizing base members with
  | nil => cases h.1
  | cons name p ih =>
    simp only [at?_cons, get?_overlayMembers hm.names]
    cases hw : get? name members with
    | none => rfl
    | some w =>
      have hinner : Ordered w := hm.of_get? hw
      have hopen : Open p w := by
        refine ⟨by simpa [at?_cons, membersOf_object, hw] using h.1, fun q hq x hx => ?_⟩
        exact h.2 (name :: q) (List.cons_prefix_cons.2 ⟨rfl, hq⟩) x (by simpa [at?_cons, membersOf_object, hw] using hx)
      cases w with
      | object inner =>
        simp only [Option.bind_some, laid]
        rw [ih hinner hopen]
        cases hbelow : get? name (membersOf base) with
        | some below => rfl
        | none =>
          cases p with
          | nil => cases hopen.1
          | cons first rest => rfl
      | _ => cases hopen.2 [] (List.nil_prefix) _ rfl

theorem open_plants (hleaf : ∀ e ∈ entries, isLeaf e.2 = true) (hp : p ≠ [])
    (h : ∀ e ∈ entries, apart e.1 p = true) : Open p (plants entries (.object [])) := by
  refine ⟨?_, fun q hq w hw => ?_⟩
  · rw [at?_plants_apart hleaf h]
    cases p with
    | nil => exact absurd rfl hp
    | cons name p => rfl
  · by_contra hwleaf
    rcases at?_plants_cases hleaf (eq_true_of_ne_false hwleaf) hw with ⟨e, he, rfl⟩ | hw
    · obtain ⟨rest, rfl⟩ := hq
      exact absurd (h e he) (by simp [apart_append])
    · cases q with
      | nil => cases hw; exact hwleaf rfl
      | cons name q => cases hw

/-! ## Changing every value -/

/-- a change of documents that goes into objects member by member -/
structure Memberwise (f : Json → Json) : Prop where
  object : ∀ members, f (.object members) = .object (members.map fun e => (e.1, f e.2))
  leaf : ∀ v, isLeaf v = true → isLeaf (f v) = true

namespace Memberwise

variable {f : Json → Json}

theorem get?_map (members : List (String × Json)) (name : String) :
    get? name (members.map fun e => (e.1, f e.2)) = (get? name members).map f := by
  induction members with
  | nil => rfl
  | cons e members ih =>
    simp only [List.map_cons, get?]
    split_ifs
    · rfl
    · exact ih

theorem get?_membersOf (hf : Memberwise f) (d : Json) (name : String) :
    get? name (membersOf (f d)) = (get? name (membersOf d)).map f := by
  by_cases hd : isLeaf d = true
  · rw [membersOf_of_isLeaf hd, membersOf_of_isLeaf (hf.leaf d hd)]
    rfl
  · cases d with
    | object members =>
      rw [hf.object]
      exact get?_map members name
    | _ => exact absurd rfl hd

theorem at? (hf : Memberwise f) (p : List String) (d : Json) : at? p (f d) = (at? p d).map f := by
  induction p generalizing d with
  | nil => rfl
  | cons name p ih =>
    simp only [Layers.at?, hf.get?_membersOf]
    cases get? name (membersOf d) with
    | none => rfl
    | some v => exact ih v

theorem ordered (hf : Memberwise f) (hd : Ordered d) : Ordered (f d) := by
  intro p members h
  rw [hf.at?] at h
  obtain ⟨w, hw, h⟩ := Option.map_eq_some_iff.1 h
  by_cases hleaf : isLeaf w = true
  · have hfw := hf.leaf w hleaf
    rw [h] at hfw
    cases hfw
  · cases w with
    | object inner =>
      rw [hf.object] at h
      cases h
      simpa [Ascending, keys, Function.comp_def] using hd p inner hw
    | _ => exact absurd rfl hleaf

theorem opened (hf : Memberwise f) (h : Open p d) : Open p (f d) := by
  refine ⟨by rw [hf.at?, h.1]; rfl, fun q hq w hw => ?_⟩
  rw [hf.at?] at hw
  obtain ⟨x, hx, rfl⟩ := Option.map_eq_some_iff.1 hw
  have hxleaf := h.2 q hq x hx
  cases x with
  | object inner => rw [hf.object]; rfl
  | _ => cases hxleaf

end Memberwise

theorem fileMembers_eq (members : List (String × Json)) :
    fileMembers members = members.map fun e => (e.1, fileValue e.2) := by
  induction members with
  | nil => rfl
  | cons e members ih =>
    obtain ⟨name, v⟩ := e
    rw [fileMembers, ih, List.map_cons]

theorem memberwise_fileValue : Memberwise fileValue where
  object members := by rw [fileValue, fileMembers_eq]
  leaf v hv := by cases v <;> first | rfl | cases hv

theorem documentMembers_eq (members : List (String × Json)) :
    documentMembers members = members.map fun e => (e.1, document e.2) := by
  induction members with
  | nil => rfl
  | cons e members ih =>
    obtain ⟨name, v⟩ := e
    rw [documentMembers, ih, List.map_cons]

theorem memberwise_document : Memberwise document where
  object members := by rw [document, documentMembers_eq]
  leaf v hv := by
    cases v with
    | number n =>
      cases n with
      | int n => rfl
      | float x => rw [document]; split <;> rfl
    | object members => cases hv
    | _ => rfl

/-! ## Keys -/

/-- characters that may be a name on a path -/
def IsName (cs : List Char) : Prop := cs ≠ [] ∧ ∀ c ∈ cs, isNameChar c = true

instance (cs : List Char) : Decidable (IsName cs) :=
  decidable_of_iff (cs.isEmpty = false ∧ cs.all isNameChar = true) (by simp [IsName])

/-- names after one another, with a point before each -/
def pointed (names : List String) : List Char := names.flatMap fun n => '.' :: n.toList

theorem length_le_pointed (names : List String) : names.length ≤ (pointed names).length := by
  induction names with
  | nil => exact Nat.le_refl 0
  | cons n names ih =>
    simp only [pointed, List.flatMap_cons, List.length_append, List.length_cons] at ih ⊢
    omega

theorem takeName_append {cs : List Char} (hcs : IsName cs) (names : List String) :
    takeName (cs ++ pointed names) = some (String.ofList cs, pointed names) := by
  have htake : (cs ++ pointed names).takeWhile isNameChar = cs := by
    rw [List.takeWhile_append_of_pos hcs.2]
    cases names with
    | nil => simp [pointed]
    | cons n names =>
      have hpoint : isNameChar '.' = false := by decide
      simp [pointed, hpoint]
  simp [takeName, htake, hcs.1]

theorem steps?_pointed {names : List String} (hnames : ∀ n ∈ names, IsName n.toList) {fuel : Nat}
    (hfuel : names.length < fuel) : steps? fuel (pointed names) = some (names.map .name) := by
  induction names generalizing fuel with
  | nil =>
    obtain ⟨fuel, rfl⟩ := Nat.exists_eq_succ_of_ne_zero (Nat.ne_of_gt hfuel)
    rfl
  | cons n names ih =>
    obtain ⟨fuel, rfl⟩ := Nat.exists_eq_succ_of_ne_zero (Nat.ne_of_gt (Nat.zero_lt_of_lt hfuel))
    obtain ⟨hn, hnames⟩ := List.forall_mem_cons.1 hnames
    have hrest : pointed (n :: names) = '.' :: (n.toList ++ pointed names) := rfl
    rw [hrest, steps?, takeName_append hn, Option.bind_eq_bind, Option.bind_some]
    dsimp only
    rw [ih hnames (Nat.lt_of_succ_lt_succ hfuel), String.ofList_toList]
    rfl

/-- **A key of names with points between them is the path of these names** -/
theorem path_pointed {first : String} {names : List String} (hfirst : IsName first.toList)
    (hnames : ∀ n ∈ names, IsName n.toList) :
    path (String.ofList (first.toList ++ pointed names)) = (first :: names).map .name := by
  simp only [path, String.toList_ofList, takeName_append hfirst, Option.bind_eq_bind, Option.bind_some,
    steps?_pointed hnames (Nat.lt_succ_of_le (length_le_pointed names)), String.ofList_toList]
  rfl

/-! ## Sources -/

/-- a source whose keys are names is laid over as a document -/
theorem lay_names {source : List (String × Json)} (h : ∀ e ∈ source, path e.1 = [.name e.1]) :
    lay base source = overlayMembers base source := by
  unfold lay
  induction source generalizing base with
  | nil => rfl
  | cons e source ih =>
    obtain ⟨key, v⟩ := e
    obtain ⟨hkey, h⟩ := List.forall_mem_cons.1 h
    rw [List.foldl_cons, ih h]
    simp only [hkey]
    rfl

/-- a source whose keys are paths of names puts its values there -/
theorem lay_paths {source : List (String × Json)} (names : String → List String)
    (h : ∀ e ∈ source, path e.1 = (names e.1).map .name) :
    lay base source = plants (source.map fun e => (names e.1, e.2)) base := by
  unfold lay
  induction source generalizing base with
  | nil => rfl
  | cons e source ih =>
    obtain ⟨key, v⟩ := e
    obtain ⟨hkey, h⟩ := List.forall_mem_cons.1 h
    rw [List.foldl_cons, ih h]
    simp only [hkey]
    rfl

end QuorumGateway.Layers
