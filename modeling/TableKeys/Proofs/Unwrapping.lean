/-
# Stored values lose nothing

A stored value stands under a tag that says what it is, and a number is stored by its decimal
text. Reading the tag and what stands under it gives back the value (`Data.unwrapped_stored`),
each number as the decimal number that it counts as (`Data.counted`): lists in order, maps entry
by entry, truth values and numbers apart. So two values with one stored form are the same.
-/
import TableKeys.Proofs.NumberText
import TableKeys.Proofs.WithDecimals

namespace TableKeys

open Number

/-! ## Values as they count -/

/-- A number as the decimal number that it counts as: a binary number counts as what its text
denotes. -/
def Scalar.counted : Scalar → Scalar
  | .int n => .decimal (.ofInt n)
  | .float x => ((Decimal.ofText? x.text).map Scalar.decimal).getD (.float x)
  | a => a

/-- The scalar is a finite number or no number. -/
def Scalar.isFinite : Scalar → Bool
  | .float (.finite ..) | .decimal (.finite ..) => true
  | .float _ | .decimal _ => false
  | _ => true

namespace Data

mutual

/-- The value with every number as the decimal number that it counts as. -/
def counted : Data → Data
  | scalar a => scalar a.counted
  | list items => list (countedItems items)
  | map entries => map (countedEntries entries)
  | d => d

/-- The items of a list as they count. -/
def countedItems : List Data → List Data
  | [] => []
  | d :: ds => counted d :: countedItems ds

/-- The entries of a map as they count. -/
def countedEntries : List (MapKey × Data) → List (MapKey × Data)
  | [] => []
  | (k, d) :: es => (k, counted d) :: countedEntries es

end

/-- Data of scalars, lists and maps without infinities and not-a-numbers. -/
inductive Finite : Data → Prop
  | scalar {a : Scalar} (h : a.isFinite = true) : Finite (.scalar a)
  | list {ds : List Data} (h : ∀ d ∈ ds, Finite d) : Finite (.list ds)
  | map {es : Entries MapKey Data} (h : ∀ e ∈ es, Finite e.2) : Finite (.map es)

/-! ## Reading tags -/

/-- The scalar that stands under a tag; numbers are read as decimal ones. -/
def scalarUnder (tag : String) (a : Scalar) : Option Scalar :=
  match tag, a with
  | "NULL", .bool true => some .null
  | "BOOL", .bool b => some (.bool b)
  | "N", .text digits => (Decimal.ofText? digits).map Scalar.decimal
  | "S", .text s => some (.text s)
  | "B", .bytes b => some (.bytes b)
  | _, _ => none

mutual

/-- The value that a map of one tag stands for. -/
def unwrapped : Data → Option Data
  | map entries => unwrappedTag entries
  | _ => none

/-- The value under the only tag. -/
def unwrappedTag : List (MapKey × Data) → Option Data
  | [(.text tag, payload)] => unwrappedUnder tag payload
  | _ => none

/-- The value that stands under a tag. -/
def unwrappedUnder (tag : String) : Data → Option Data
  | scalar a => (scalarUnder tag a).map scalar
  | list items => if tag = "L" then (unwrappedItems items).map list else none
  | map entries => if tag = "M" then (unwrappedEntries entries).map map else none
  | _ => none

/-- The values of the tagged items of a list. -/
def unwrappedItems : List Data → Option (List Data)
  | [] => some []
  | d :: ds => do
    let d ← unwrapped d
    let ds ← unwrappedItems ds
    return d :: ds

/-- The entries of a map with tagged values. -/
def unwrappedEntries : List (MapKey × Data) → Option (List (MapKey × Data))
  | [] => some []
  | (k, d) :: es => do
    let d ← unwrapped d
    let es ← unwrappedEntries es
    return (k, d) :: es

end

/-! ## Stored and read back -/

/-- A finite number is stored by its text. -/
lemma ofDecimal_finite {negative : Bool} {c : Nat} {e : Int} {a : AttributeValue}
    (h : AttributeValue.ofDecimal (.finite negative c e) = .ok a) :
    a = .number (Decimal.finite negative c e).text := by
  rw [AttributeValue.ofDecimal] at h
  cases hfit : attributeLimits.fit (.finite negative c e) with
  | error signal =>
    rw [hfit] at h
    cases h
  | ok d =>
    obtain rfl := Limits.fit_finite_eq_ok hfit
    rw [hfit] at h
    exact (Except.ok.inj h).symm

lemma unwrapped_digits (digits : String) : (AttributeValue.number digits).data.unwrapped =
    ((Decimal.ofText? digits).map Scalar.decimal).map Data.scalar := rfl

lemma unwrapped_number {negative : Bool} {c : Nat} {e : Int} {a : AttributeValue}
    (h : AttributeValue.ofDecimal (.finite negative c e) = .ok a) :
    a.data.unwrapped = some (.scalar (.decimal (.finite negative c e))) := by
  rw [ofDecimal_finite h]
  rw [unwrapped_digits, Decimal.ofText?_text]
  rfl

lemma written_finite (negative : Bool) (mantissa : Nat) (exponent : Int) :
    ∃ c e, (Binary64.finite negative mantissa exponent).written = .finite negative c e := by
  rw [Binary64.written]
  generalize (if mantissa = 0 then ((0, 0) : Nat × Int) else Binary64.shortest mantissa exponent) =
    number
  dsimp only
  split <;> exact ⟨_, _, rfl⟩

/-- A binary number counts as the decimal number that it is stored as. -/
lemma counted_float (negative : Bool) (mantissa : Nat) (exponent : Int) :
    (Scalar.float (.finite negative mantissa exponent)).counted =
      .decimal (Binary64.finite negative mantissa exponent).written := by
  rw [Scalar.counted, Binary64.ofText?_text]
  rfl

lemma unwrapped_scalar {a : Scalar} (ha : a.isFinite = true) {v : AttributeValue}
    (h : (Data.scalar a).stored = .ok v) : v.data.unwrapped = some (.scalar a.counted) := by
  cases a with
  | null | bool | text | bytes =>
    cases h
    rfl
  | int n => exact unwrapped_number h
  | decimal d =>
    cases d with
    | finite negative c e => exact unwrapped_number h
    | _ => cases ha
  | float x =>
    cases x with
    | finite negative mantissa exponent =>
      have hstored : AttributeValue.ofDecimal (Binary64.finite negative mantissa exponent).written =
        .ok v := h
      obtain ⟨c, e, hwritten⟩ := written_finite negative mantissa exponent
      rw [hwritten] at hstored
      rw [counted_float, hwritten]
      exact unwrapped_number hstored
    | _ => cases ha

lemma stored_list {ds : List Data} {v : AttributeValue} (h : (Data.list ds).stored = .ok v) :
    ∃ as, v = .list as ∧ List.Forall₂ (fun d a => d.stored = .ok a) ds as := by
  rw [stored, withDecimals, withDecimalsItems_eq, wrapped] at h
  obtain ⟨as, has, hv⟩ := exists_of_bind_eq_ok h
  refine ⟨as, (Except.ok.inj hv).symm, ?_⟩
  clear h hv
  induction ds generalizing as with
  | nil =>
    cases has
    exact .nil
  | cons d ds ih =>
    rw [List.map_cons, wrappedItems] at has
    obtain ⟨a, ha, hrest⟩ := exists_of_bind_eq_ok has
    obtain ⟨as', has', hcons⟩ := exists_of_bind_eq_ok hrest
    obtain rfl := Except.ok.inj hcons
    exact .cons ha (ih as' has')

lemma stored_map {es : Entries MapKey Data} {v : AttributeValue}
    (h : (Data.map es).stored = .ok v) :
    ∃ as, v = .map as ∧ RowOf (fun d a => d.stored = .ok a) es as := by
  rw [stored, withDecimals, withDecimalsEntries_eq, wrapped] at h
  obtain ⟨as, has, hv⟩ := exists_of_bind_eq_ok h
  refine ⟨as, (Except.ok.inj hv).symm, ?_⟩
  clear h hv
  induction es generalizing as with
  | nil =>
    cases has
    exact .nil
  | cons e es ih =>
    obtain ⟨k, d⟩ := e
    rw [Entries.mapValues, List.map_cons, wrappedEntries] at has
    obtain ⟨a, ha, hrest⟩ := exists_of_bind_eq_ok has
    obtain ⟨as', has', hcons⟩ := exists_of_bind_eq_ok hrest
    obtain rfl := Except.ok.inj hcons
    exact .cons ⟨rfl, ha⟩ (ih as' has')

lemma unwrappedItems_data {ds : List Data} {as : List AttributeValue}
    (h : List.Forall₂
      (fun (d : Data) (a : AttributeValue) => a.data.unwrapped = some d.counted) ds as) :
    unwrappedItems (AttributeValue.dataItems as) = some (countedItems ds) := by
  induction h with
  | nil => rfl
  | cons head _ ih =>
    rw [AttributeValue.dataItems, unwrappedItems, countedItems, head, ih]
    rfl

lemma unwrappedEntries_data {es : List (MapKey × Data)} {as : List (MapKey × AttributeValue)}
    (h : RowOf (fun (d : Data) (a : AttributeValue) => a.data.unwrapped = some d.counted) es as) :
    unwrappedEntries (AttributeValue.dataEntries as) = some (countedEntries es) := by
  induction h with
  | nil => rfl
  | @cons e a _ _ head _ ih =>
    obtain ⟨k, d⟩ := e
    obtain ⟨k', v⟩ := a
    obtain ⟨rfl, hv⟩ : k = k' ∧ v.data.unwrapped = some d.counted := head
    rw [AttributeValue.dataEntries, unwrappedEntries, countedEntries, hv, ih]
    rfl

/-- A stored value is read back as it counts. -/
lemma Finite.unwrapped_data {d : Data} (hd : d.Finite) :
    ∀ {a : AttributeValue}, d.stored = .ok a → a.data.unwrapped = some d.counted := by
  induction hd with
  | scalar ha =>
    intro v h
    rw [counted]
    exact unwrapped_scalar ha h
  | @list ds _ ih =>
    intro v h
    obtain ⟨as, rfl, items⟩ := stored_list h
    have hitems := unwrappedItems_data (forall₂_imp_of_mem items fun d hd a ha => ih d hd ha)
    show (unwrappedItems (AttributeValue.dataItems as)).map Data.list = _
    rw [hitems, counted]
    rfl
  | @map es _ ih =>
    intro v h
    obtain ⟨as, rfl, row⟩ := stored_map h
    have hrow := unwrappedEntries_data (rowOf_imp_of_mem row fun e he a ha => ih e he ha)
    show (unwrappedEntries (AttributeValue.dataEntries as)).map Data.map = _
    rw [hrow, counted]
    rfl

/-- **Storing loses nothing.** A finite value that can be stored is read back from its stored form,
with the decimal number that it counts as in the place of each number; and values with one stored
form count as the same value. -/
theorem unwrapped_stored {d : Data} (hd : d.Finite) {a : AttributeValue} (h : d.stored = .ok a) :
    a.data.unwrapped = some d.counted ∧
      ∀ (e : Data) (b : AttributeValue), e.Finite → e.stored = .ok b → b.data = a.data →
        e.counted = d.counted := by
  have hread := hd.unwrapped_data h
  refine ⟨hread, fun e b he hstored hsame => ?_⟩
  have hread' := he.unwrapped_data hstored
  rw [hsame, hread] at hread'
  exact (Option.some.inj hread').symm

/-- A map with a truth value, a count, a binary and a decimal number at different depths. -/
def mixed : Data :=
  .map [(.text "draft", .scalar (.bool true)), (.text "year", .scalar (.int 2024)),
    (.text "marks", .list [.scalar (.float (.finite false 1 (-1))),
      .scalar (.decimal (.finite true 150 (-2))), .scalar .null])]

lemma mixed_finite : mixed.Finite := by
  refine .map fun e he => ?_
  simp only [List.mem_cons, List.not_mem_nil, or_false] at he
  obtain rfl | rfl | rfl := he
  · exact .scalar rfl
  · exact .scalar rfl
  · refine .list fun d hd => ?_
    simp only [List.mem_cons, List.not_mem_nil, or_false] at hd
    obtain rfl | rfl | rfl := hd <;> exact .scalar rfl

theorem unwrapped_stored_mixed :
    mixed.Finite ∧ ∃ a, mixed.stored = .ok a ∧ a.data.unwrapped = some mixed.counted := by
  have hok : mixed.stored.isOk = true := by decide +kernel
  cases h : mixed.stored with
  | error failure =>
    rw [h] at hok
    cases hok
  | ok a => exact ⟨mixed_finite, a, rfl, (unwrapped_stored mixed_finite h).1⟩

end Data

end TableKeys
