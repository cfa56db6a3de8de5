/-
# Maps that remember the order of their keys

A map is the list of its entries. A key is put where it already stands, keeping the key and
its place, or else at the end, so the order of the keys is the order of their first
arrival. Two keys are one when `==` says so.

* `get?_put_self`, `get?_put_of_ne`: reading after a put;
* `keys_put`: a put leaves the keys alone or adds one at the end.
-/

namespace TableKeys

/-- A map as the list of its entries, in the order in which the keys arrived. -/
abbrev Entries (κ α : Type) := List (κ × α)

namespace Entries

variable {κ α β : Type} [BEq κ]

/-- The value under a key. -/
def get? (m : Entries κ α) (k : κ) : Option α :=
  match m with
  | [] => none
  | (k', v) :: rest => if k' == k then some v else get? rest k

/-- The map holds the key. -/
def has (m : Entries κ α) (k : κ) : Bool :=
  (m.get? k).isSome

/-- Puts a value under a key. -/
def put (m : Entries κ α) (k : κ) (v : α) : Entries κ α :=
  match m with
  | [] => [(k, v)]
  | (k', v') :: rest => if k' == k then (k', v) :: rest else (k', v') :: put rest k v

/-- Puts every entry of a list, from left to right. -/
def putAll (m : Entries κ α) (entries : List (κ × α)) : Entries κ α :=
  entries.foldl (fun m entry => m.put entry.1 entry.2) m

/-- The map of a list of entries, later ones overwriting earlier ones. -/
def ofList (entries : List (κ × α)) : Entries κ α :=
  putAll [] entries

/-- Removes a key. -/
def erase (m : Entries κ α) (k : κ) : Entries κ α :=
  m.filter fun entry => !(entry.1 == k)

/-- The keys in the order of the map. -/
def keys (m : Entries κ α) : List κ :=
  m.map (·.1)

/-- The values in the order of the map. -/
def values (m : Entries κ α) : List α :=
  m.map (·.2)

/-- The map with every value changed by a function. -/
def mapValues (f : α → β) (m : Entries κ α) : Entries κ β :=
  m.map fun entry => (entry.1, f entry.2)

@[simp] theorem get?_nil (k : κ) : get? ([] : Entries κ α) k = none := rfl

theorem get?_cons (k' : κ) (v : α) (rest : Entries κ α) (k : κ) :
    get? ((k', v) :: rest) k = if k' == k then some v else get? rest k := rfl

theorem put_cons (k' : κ) (v' : α) (rest : Entries κ α) (k : κ) (v : α) :
    put ((k', v') :: rest) k v =
      if k' == k then (k', v) :: rest else (k', v') :: put rest k v := rfl

theorem get?_put_self [ReflBEq κ] (m : Entries κ α) (k : κ) (v : α) :
    (m.put k v).get? k = some v := by
  induction m with
  | nil => simp [put, get?]
  | cons entry rest ih =>
    obtain ⟨k', v'⟩ := entry
    by_cases h : (k' == k) = true
    · simp [put_cons, h, get?_cons]
    · simp [put_cons, h, get?_cons, ih]

theorem get?_put_of_ne [PartialEquivBEq κ] (m : Entries κ α) {k j : κ} (v : α)
    (h : (k == j) = false) : (m.put k v).get? j = m.get? j := by
  induction m with
  | nil => simp [put, get?, h]
  | cons entry rest ih =>
    obtain ⟨k', v'⟩ := entry
    by_cases hk : (k' == k) = true
    · have hj : (k' == j) = false := by
        cases hkj : (k' == j) with
        | false => rfl
        | true => rw [PartialEquivBEq.trans (PartialEquivBEq.symm hk) hkj] at h; cases h
      simp [put_cons, hk, get?_cons, hj]
    · simp only [put_cons, hk, Bool.false_eq_true, if_false, get?_cons, ih]

/-- A put leaves the keys alone or adds one at the end. -/
theorem keys_put (m : Entries κ α) (k : κ) (v : α) :
    (m.put k v).keys = if m.has k then m.keys else m.keys ++ [k] := by
  induction m with
  | nil => simp [put, keys, has]
  | cons entry rest ih =>
    obtain ⟨k', v'⟩ := entry
    by_cases h : (k' == k) = true
    · simp [put_cons, h, keys, has, get?_cons]
    · simp only [keys, has] at ih
      simp only [put_cons, h, Bool.false_eq_true, if_false, keys, has, get?_cons, List.map_cons, ih]
      split <;> simp [*]

end Entries

end TableKeys
