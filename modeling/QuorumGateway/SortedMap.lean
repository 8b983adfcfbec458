/-!
Finite maps from texts, kept as lists of pairs in ascending order of their keys. Texts are ordered by code points,
which is also the order of their bytes. Putting a key that is present replaces its value.
-/

namespace QuorumGateway

/-- a map from texts as its pairs in ascending order of keys -/
abbrev SortedMap (α : Type) := List (String × α)

namespace SortedMap

variable {α : Type}

/-- the map with `key` standing for `value` -/
def put (key : String) (value : α) : SortedMap α → SortedMap α
  | [] => [(key, value)]
  | (k, v) :: rest =>
    if key < k then (key, value) :: (k, v) :: rest
    else if key = k then (key, value) :: rest
    else (k, v) :: put key value rest

def get? (key : String) : SortedMap α → Option α
  | [] => none
  | (k, v) :: rest => if k = key then some v else get? key rest

/-- the map of a list of pairs; of two pairs with one key the later counts -/
def ofPairs (pairs : List (String × α)) : SortedMap α := pairs.foldl (fun m p => put p.1 p.2 m) []

def keys (m : SortedMap α) : List String := m.map Prod.fst

/-- every key is smaller than the ones after it -/
def Ascending (m : SortedMap α) : Prop := m.keys.Pairwise (· < ·)

theorem get?_put_self (key : String) (value : α) (m : SortedMap α) : (put key value m).get? key = some value := by
  induction m with
  | nil => simp [put, get?]
  | cons p rest ih =>
    obtain ⟨k, v⟩ := p
    simp only [put]
    split
    · simp [get?]
    · split
      · simp [get?]
      · rename_i hne
        simp [get?, Ne.symm hne, ih]

theorem get?_put_of_ne {key other : String} (value : α) (m : SortedMap α) (h : key ≠ other) :
    (put key value m).get? other = m.get? other := by
  induction m with
  | nil => simp [put, get?, h]
  | cons p rest ih =>
    obtain ⟨k, v⟩ := p
    simp only [put]
    split
    · simp [get?, h]
    · split
      · rename_i heq
        subst heq
        simp [get?, h]
      · simp [get?, ih]

end SortedMap

end QuorumGateway
