/-
# Values that show data

Data in cells is found by following references. `Shows s free d v` says that the value `v`
shows the data `d` in the store `s`, and that only cells of the region `free` are followed on
the way. What happens to other cells does not matter to it (`Shows.mono`), which is how one
change of a store is told apart from all that stays the same.

* `Shows.read_eq`: a value that shows data is read back as that data;
* `Store.load_shows`: data that is put into cells is shown there, in new cells.
-/
import TableKeys.Proofs.Lookup
import TableKeys.Template.Store
import Mathlib.Data.Finset.Card
import Mathlib.Order.Interval.Finset.Nat

namespace TableKeys

/-- Induction over a tree of data, with the members of lists, maps and records at once. -/
@[elab_as_elim]
theorem Data.induction {motive : Data → Prop} (scalar : ∀ a, motive (.scalar a))
    (list : ∀ ds, (∀ d ∈ ds, motive d) → motive (.list ds))
    (map : ∀ es, (∀ e ∈ es, motive e.2) → motive (.map es))
    (record : ∀ kind fs, (∀ f ∈ fs, motive f.2) → motive (.record kind fs))
    (pair : ∀ name d, motive d → motive (.pair name d)) (d : Data) : motive d :=
  match d with
  | .scalar a => scalar a
  | .list ds => list ds fun d _ => Data.induction scalar list map record pair d
  | .map es => map es fun e _ => Data.induction scalar list map record pair e.2
  | .record kind fs => record kind fs fun f _ => Data.induction scalar list map record pair f.2
  | .pair name d => pair name d (Data.induction scalar list map record pair d)
termination_by sizeOf d
decreasing_by
  · rename_i hd
    have hmem := List.sizeOf_lt_of_mem hd
    simp
    omega
  · rename_i he
    have hmem := List.sizeOf_lt_of_mem he
    have hpair : sizeOf e = 1 + sizeOf e.1 + sizeOf e.2 := by cases e; rfl
    simp
    omega
  · rename_i hf
    have hmem := List.sizeOf_lt_of_mem hf
    have hpair : sizeOf f = 1 + sizeOf f.1 + sizeOf f.2 := by cases f; rfl
    simp
    omega
  · simp only [Data.pair.sizeOf_spec]
    omega

namespace Template

/-! ## Data and the values that show it -/

mutual

/-- The value shows the data in cells of a region. -/
def Shows (s : Store) (free : Address → Prop) : Data → Value → Prop
  | .scalar a, v => v = .scalar a
  | .list ds, v => ∃ vs, v = .list vs ∧ ShowsItems s free ds vs
  | .map es, v => ∃ a vs, v = .ref a ∧ free a ∧ s.get? a = some (.map vs) ∧
    ShowsEntries s free es vs
  | .record kind fs, v => ∃ a vs, v = .ref a ∧ free a ∧ s.get? a = some (.record kind vs) ∧
    ShowsFields s free fs vs
  | .pair name d, v => ∃ w, v = .pair name w ∧ Shows s free d w

/-- The values show the items of a list. -/
def ShowsItems (s : Store) (free : Address → Prop) : List Data → List Value → Prop
  | [], vs => vs = []
  | d :: ds, vs => ∃ w ws, vs = w :: ws ∧ Shows s free d w ∧ ShowsItems s free ds ws

/-- The entries show the entries of a map. -/
def ShowsEntries (s : Store) (free : Address → Prop) :
    List (MapKey × Data) → Entries MapKey Value → Prop
  | [], vs => vs = []
  | (k, d) :: es, vs => ∃ w ws, vs = (k, w) :: ws ∧ Shows s free d w ∧ ShowsEntries s free es ws

/-- The fields show the fields of a record. -/
def ShowsFields (s : Store) (free : Address → Prop) :
    List (Field × Data) → Entries Field Value → Prop
  | [], vs => vs = []
  | (f, d) :: fs, vs => ∃ w ws, vs = (f, w) :: ws ∧ Shows s free d w ∧ ShowsFields s free fs ws

end

attribute [local simp] Value.fill Store.load Shows ShowsItems ShowsEntries ShowsFields

variable {s s' : Store} {free free' : Address → Prop}

lemma showsItems_iff {ds : List Data} {vs : List Value} :
    ShowsItems s free ds vs ↔ List.Forall₂ (Shows s free) ds vs := by
  induction ds generalizing vs with
  | nil => simp [ShowsItems]
  | cons d ds ih => simp only [ShowsItems, ih, List.forall₂_cons_left_iff]; grind

lemma showsEntries_iff {es : List (MapKey × Data)} {vs : Entries MapKey Value} :
    ShowsEntries s free es vs ↔ RowOf (Shows s free) es vs := by
  induction es generalizing vs with
  | nil => simp [ShowsEntries]
  | cons e es ih => simp only [ShowsEntries, ih, List.forall₂_cons_left_iff]; grind

lemma showsFields_iff {fs : List (Field × Data)} {vs : Entries Field Value} :
    ShowsFields s free fs vs ↔ RowOf (Shows s free) fs vs := by
  induction fs generalizing vs with
  | nil => simp [ShowsFields]
  | cons f fs ih => simp only [ShowsFields, ih, List.forall₂_cons_left_iff]; grind

@[simp] lemma shows_scalar {a : Scalar} {v : Value} :
    Shows s free (.scalar a) v ↔ v = .scalar a := by
  rw [Shows]

lemma shows_map {es : List (MapKey × Data)} {v : Value} :
    Shows s free (.map es) v ↔ ∃ a vs, v = .ref a ∧ free a ∧ s.get? a = some (.map vs) ∧
      RowOf (Shows s free) es vs := by
  simp only [Shows, showsEntries_iff]

lemma shows_record {kind : RecordKind} {fs : List (Field × Data)} {v : Value} :
    Shows s free (.record kind fs) v ↔ ∃ a vs, v = .ref a ∧ free a ∧
      s.get? a = some (.record kind vs) ∧ RowOf (Shows s free) fs vs := by
  simp only [Shows, showsFields_iff]

/-- Induction over the data that a value shows. -/
theorem Shows.induction {motive : Data → Value → Prop}
    (scalar : ∀ a, motive (.scalar a) (.scalar a))
    (list : ∀ ds vs, List.Forall₂ (fun d v => Shows s free d v ∧ motive d v) ds vs →
      motive (.list ds) (.list vs))
    (map : ∀ es vs a, free a → s.get? a = some (.map vs) →
      RowOf (fun d v => Shows s free d v ∧ motive d v) es vs → motive (.map es) (.ref a))
    (record : ∀ kind fs vs a, free a → s.get? a = some (.record kind vs) →
      RowOf (fun d v => Shows s free d v ∧ motive d v) fs vs → motive (.record kind fs) (.ref a))
    (pair : ∀ name d v, motive d v → motive (.pair name d) (.pair name v))
    {d : Data} {v : Value} (h : Shows s free d v) : motive d v := by
  induction d using Data.induction generalizing v with
  | scalar a =>
    rw [shows_scalar] at h
    subst h
    exact scalar a
  | list ds ih =>
    rw [Shows] at h
    obtain ⟨vs, rfl, items⟩ := h
    exact list ds vs (forall₂_imp_of_mem (showsItems_iff.mp items) fun d hd _ h => ⟨h, ih d hd h⟩)
  | map es ih =>
    obtain ⟨a, vs, rfl, here, cell, row⟩ := shows_map.mp h
    exact map es vs a here cell (rowOf_imp_of_mem row fun e he _ h => ⟨h, ih e he h⟩)
  | record kind fs ih =>
    obtain ⟨a, vs, rfl, here, cell, row⟩ := shows_record.mp h
    exact record kind fs vs a here cell (rowOf_imp_of_mem row fun f hf _ h => ⟨h, ih f hf h⟩)
  | pair name d ih =>
    rw [Shows] at h
    obtain ⟨w, rfl, hw⟩ := h
    exact pair name d w (ih hw)

lemma Store.lt_of_get? {a : Address} {c : Cell} (h : s.get? a = some c) : a < s.cells.size :=
  (Array.getElem?_eq_some_iff.mp h).1

lemma Store.get?_set_self {a : Address} {c c' : Cell} (h : s.get? a = some c) :
    (s.set a c').get? a = some c' := by
  rw [get?_set, if_pos rfl, if_pos (lt_of_get? h)]

lemma Store.get?_set_of_ne {a b : Address} (h : a ≠ b) (c : Cell) :
    (s.set a c).get? b = s.get? b := by
  rw [get?_set, if_neg h]

/-- **Frame rule.** Cells outside the region may change, and the region may grow. -/
theorem Shows.mono {d : Data} {v : Value} (h : Shows s free d v)
    (hfree : ∀ a, free a → a < s.cells.size → free' a)
    (hcells : ∀ a, free a → a < s.cells.size → s'.get? a = s.get? a) : Shows s' free' d v := by
  refine Shows.induction (motive := Shows s' free') ?scalar ?list ?map ?record ?pair h
  case scalar => exact fun a => shows_scalar.mpr rfl
  case list =>
    intro ds vs items
    rw [Shows]
    exact ⟨vs, rfl, showsItems_iff.mpr (items.imp fun _ _ h => h.2)⟩
  case map =>
    intro es vs a here cell row
    have hlt := Store.lt_of_get? cell
    exact shows_map.mpr ⟨a, vs, rfl, hfree a here hlt, (hcells a here hlt).trans cell,
      row.imp fun _ _ h => ⟨h.1, h.2.2⟩⟩
  case record =>
    intro kind fs vs a here cell row
    have hlt := Store.lt_of_get? cell
    exact shows_record.mpr ⟨a, vs, rfl, hfree a here hlt, (hcells a here hlt).trans cell,
      row.imp fun _ _ h => ⟨h.1, h.2.2⟩⟩
  case pair =>
    intro name d v ih
    rw [Shows]
    exact ⟨v, rfl, ih⟩

lemma Shows.anywhere {d : Data} {v : Value} (h : Shows s free d v) :
    Shows s (fun _ => True) d v :=
  h.mono (fun _ _ _ => trivial) fun _ _ _ => rfl

/-! ## Reading data back -/

lemma fillAll_eq {cell : Address → Data} {ds : List Data} {vs : List Value}
    (h : List.Forall₂ (fun d v => v.fill cell = d) ds vs) : Value.fillAll cell vs = ds := by
  induction h with
  | nil => rfl
  | cons head _ ih => rw [Value.fillAll, head, ih]

lemma mapValues_fill_eq {κ : Type} {cell : Address → Data} {es : List (κ × Data)}
    {vs : Entries κ Value} (h : RowOf (fun d v => v.fill cell = d) es vs) :
    vs.mapValues (·.fill cell) = es := by
  induction h with
  | nil => rfl
  | cons head _ ih =>
    rw [Entries.mapValues, List.map_cons, head.2, ← head.1]
    exact congrArg _ ih

lemma sizeOf_lt_of_mem_entries {κ : Type} [SizeOf κ] {es : List (κ × Data)} {e : κ × Data}
    (h : e ∈ es) : sizeOf e.2 < sizeOf es := by
  have hmem := List.sizeOf_lt_of_mem h
  have hpair : sizeOf e = 1 + sizeOf e.1 + sizeOf e.2 := by cases e; rfl
  omega

lemma Store.readCell_map {a : Address} {vs : Entries MapKey Value}
    (h : s.get? a = some (.map vs)) (n : Nat) :
    s.readCell (n + 1) a = .map (vs.mapValues (·.fill (s.readCell n))) := by
  rw [readCell, h]

lemma Store.readCell_record {a : Address} {kind : RecordKind} {vs : Entries Field Value}
    (h : s.get? a = some (.record kind vs)) (n : Nat) :
    s.readCell (n + 1) a = .record kind (vs.mapValues (·.fill (s.readCell n))) := by
  rw [readCell, h]

/-- Reading as deep as the data is large gives the data. -/
lemma Shows.fill_of_sizeOf_le {d : Data} {v : Value} (h : Shows s free d v) :
    ∀ n, sizeOf d ≤ n → v.fill (s.readCell n) = d := by
  refine Shows.induction (motive := fun d v => ∀ n, sizeOf d ≤ n → v.fill (s.readCell n) = d)
    ?scalar ?list ?map ?record ?pair h
  case scalar => exact fun a n _ => rfl
  case list =>
    intro ds vs items n hn
    rw [Value.fill]
    refine congrArg Data.list (fillAll_eq (forall₂_imp_of_mem items ?_))
    intro d hd v hv
    have hlt := List.sizeOf_lt_of_mem hd
    simp only [Data.list.sizeOf_spec] at hn
    exact hv.2 n (by omega)
  case map =>
    intro es vs a here cell row n hn
    simp only [Data.map.sizeOf_spec] at hn
    obtain ⟨n, rfl⟩ : ∃ m, n = m + 1 := ⟨n - 1, by omega⟩
    rw [Value.fill, Store.readCell_map cell]
    refine congrArg Data.map (mapValues_fill_eq (rowOf_imp_of_mem row ?_))
    intro e he v hv
    have hlt := sizeOf_lt_of_mem_entries he
    exact hv.2 n (by omega)
  case record =>
    intro kind fs vs a here cell row n hn
    simp only [Data.record.sizeOf_spec] at hn
    obtain ⟨n, rfl⟩ : ∃ m, n = m + 1 := ⟨n - 1, by omega⟩
    rw [Value.fill, Store.readCell_record cell]
    refine congrArg (Data.record kind) (mapValues_fill_eq (rowOf_imp_of_mem row ?_))
    intro e he v hv
    have hlt := sizeOf_lt_of_mem_entries he
    exact hv.2 n (by omega)
  case pair =>
    intro name d v ih n hn
    simp only [Data.pair.sizeOf_spec] at hn
    rw [Value.fill, ih n (by omega)]

/-- A value shows one tree of data only. -/
lemma Shows.unique {d d' : Data} {v : Value} (h : Shows s free d v) (h' : Shows s free' d' v) :
    d = d' := by
  have hd := h.fill_of_sizeOf_le (sizeOf d + sizeOf d') (by omega)
  have hd' := h'.fill_of_sizeOf_le (sizeOf d + sizeOf d') (by omega)
  exact hd.symm.trans hd'

/-- What is smaller than the data in a cell is shown without that cell. -/
lemma Shows.avoid {d₀ d : Data} {a : Address} {v : Value} (h₀ : Shows s free d₀ (.ref a))
    (h : Shows s free d v) (hlt : sizeOf d < sizeOf d₀) :
    Shows s (fun b => free b ∧ b ≠ a) d v := by
  induction d using Data.induction generalizing v with
  | scalar b => rwa [shows_scalar] at h ⊢
  | list ds ih =>
    rw [Shows] at h ⊢
    obtain ⟨vs, rfl, items⟩ := h
    refine ⟨vs, rfl, showsItems_iff.mpr ?_⟩
    refine forall₂_imp_of_mem (showsItems_iff.mp items) fun d hd w hw => ih d hd hw ?_
    have hmem := List.sizeOf_lt_of_mem hd
    simp only [Data.list.sizeOf_spec] at hlt
    omega
  | map es ih =>
    obtain ⟨b, vs, rfl, here, cell, row⟩ := shows_map.mp h
    -- the cell shows one tree of data only, and that is larger
    have hne : b ≠ a := by
      rintro rfl
      rw [h.unique h₀] at hlt
      exact Nat.lt_irrefl _ hlt
    refine shows_map.mpr ⟨b, vs, rfl, ⟨here, hne⟩, cell, ?_⟩
    refine rowOf_imp_of_mem row fun e he w hw => ih e he hw ?_
    have hmem := sizeOf_lt_of_mem_entries he
    simp only [Data.map.sizeOf_spec] at hlt
    omega
  | record kind fs ih =>
    obtain ⟨b, vs, rfl, here, cell, row⟩ := shows_record.mp h
    have hne : b ≠ a := by
      rintro rfl
      rw [h.unique h₀] at hlt
      exact Nat.lt_irrefl _ hlt
    refine shows_record.mpr ⟨b, vs, rfl, ⟨here, hne⟩, cell, ?_⟩
    refine rowOf_imp_of_mem row fun f hf w hw => ih f hf hw ?_
    have hmem := sizeOf_lt_of_mem_entries hf
    simp only [Data.record.sizeOf_spec] at hlt
    omega
  | pair name d ih =>
    rw [Shows] at h ⊢
    obtain ⟨w, rfl, hw⟩ := h
    simp only [Data.pair.sizeOf_spec] at hlt
    exact ⟨w, rfl, ih hw (by omega)⟩

/-- Reading as deep as there are cells in the region gives the data: below a cell, that cell is
not met again. -/
lemma Shows.fill_of_card_le {d : Data} {v : Value} (h : Shows s free d v)
    (region : Finset Address) (hregion : ∀ a, free a → a < s.cells.size → a ∈ region) {n : Nat}
    (hn : region.card ≤ n) : v.fill (s.readCell n) = d := by
  induction d using Data.induction generalizing v free region n with
  | scalar a =>
    rw [shows_scalar] at h
    subst h
    rfl
  | list ds ih =>
    rw [Shows] at h
    obtain ⟨vs, rfl, items⟩ := h
    rw [Value.fill]
    exact congrArg Data.list (fillAll_eq (forall₂_imp_of_mem (showsItems_iff.mp items)
      fun d hd w hw => ih d hd hw region hregion hn))
  | map es ih =>
    obtain ⟨a, vs, rfl, here, cell, row⟩ := shows_map.mp h
    have ha : a ∈ region := hregion a here (Store.lt_of_get? cell)
    have hcard : (region.erase a).card + 1 = region.card := Finset.card_erase_add_one ha
    obtain ⟨n, rfl⟩ : ∃ m, n = m + 1 := ⟨n - 1, by omega⟩
    rw [Value.fill, Store.readCell_map cell]
    refine congrArg Data.map (mapValues_fill_eq (rowOf_imp_of_mem row ?_))
    intro e he w hw
    have hlt := sizeOf_lt_of_mem_entries he
    -- below the cell it is not met again, so one cell of the region is used up
    have havoid := Shows.avoid h hw (by simp only [Data.map.sizeOf_spec]; omega)
    refine ih e he havoid _ (fun b hb hsize => ?_) (show (region.erase a).card ≤ n by omega)
    exact Finset.mem_erase.mpr ⟨hb.2, hregion b hb.1 hsize⟩
  | record kind fs ih =>
    obtain ⟨a, vs, rfl, here, cell, row⟩ := shows_record.mp h
    have ha : a ∈ region := hregion a here (Store.lt_of_get? cell)
    have hcard : (region.erase a).card + 1 = region.card := Finset.card_erase_add_one ha
    obtain ⟨n, rfl⟩ : ∃ m, n = m + 1 := ⟨n - 1, by omega⟩
    rw [Value.fill, Store.readCell_record cell]
    refine congrArg (Data.record kind) (mapValues_fill_eq (rowOf_imp_of_mem row ?_))
    intro e he w hw
    have hlt := sizeOf_lt_of_mem_entries he
    have havoid := Shows.avoid h hw (by simp only [Data.record.sizeOf_spec]; omega)
    refine ih e he havoid _ (fun b hb hsize => ?_) (show (region.erase a).card ≤ n by omega)
    exact Finset.mem_erase.mpr ⟨hb.2, hregion b hb.1 hsize⟩
  | pair name d ih =>
    rw [Shows] at h
    obtain ⟨w, rfl, hw⟩ := h
    rw [Value.fill, ih hw region hregion hn]

/-- **A value that shows data is read as that data.** -/
theorem Shows.read_eq {d : Data} {v : Value} (h : Shows s free d v) : s.read v = d :=
  h.fill_of_card_le (Finset.range s.cells.size) (fun _ _ hsize => Finset.mem_range.mpr hsize)
    (by simp)

/-! ## Putting data into cells -/

/-- There are more cells, and the old ones are as they were. -/
structure Store.Extends (s s' : Store) : Prop where
  size_le : s.cells.size ≤ s'.cells.size
  get?_eq : ∀ a, a < s.cells.size → s'.get? a = s.get? a

lemma Store.get?_alloc_new (s : Store) (c : Cell) : (s.alloc c).2.get? s.cells.size = some c := by
  rw [get?_alloc, if_pos rfl]

namespace Store.Extends

lemma refl (s : Store) : s.Extends s :=
  ⟨Nat.le_refl _, fun _ _ => rfl⟩

lemma trans {s₁ s₂ s₃ : Store} (h : s₁.Extends s₂) (h' : s₂.Extends s₃) : s₁.Extends s₃ :=
  ⟨h.size_le.trans h'.size_le, fun a ha =>
    (h'.get?_eq a (ha.trans_le h.size_le)).trans (h.get?_eq a ha)⟩

lemma alloc (s : Store) (c : Cell) : s.Extends (s.alloc c).2 := by
  refine ⟨by simp [Store.alloc], fun a ha => ?_⟩
  rw [get?_alloc, if_neg (Nat.ne_of_lt ha)]

end Store.Extends

/-- What a region shows stays when cells are added. -/
lemma Shows.extend {d : Data} {v : Value} (h : Shows s free d v) (hs : s.Extends s')
    (hfree : ∀ a, free a → a < s.cells.size → free' a) : Shows s' free' d v :=
  h.mono hfree fun a _ ha => hs.get?_eq a ha

/-- The cells that were added last. -/
def Store.New (s : Store) (a : Address) : Prop :=
  s.cells.size ≤ a

/-- What is shown in new cells is shown in cells that are new to an earlier store too. -/
lemma Shows.earlier {d : Data} {v : Value} {s₀ : Store} (h : Shows s s'.New d v)
    (hs : s₀.Extends s') : Shows s s₀.New d v :=
  h.mono (fun _ ha _ => hs.size_le.trans ha) fun _ _ _ => rfl

lemma Store.load_map (s : Store) (es : List (MapKey × Data)) :
    s.load (.map es) = (s.loadEntries es).2.alloc (.map (s.loadEntries es).1) := by
  rw [load]

lemma Store.load_record (s : Store) (kind : RecordKind) (fs : List (Field × Data)) :
    s.load (.record kind fs) =
      (s.loadFields fs).2.alloc (.record kind (s.loadFields fs).1) := by
  rw [load]

mutual

/-- **Data that is put into cells is shown there**, in new cells; the old ones stay. -/
theorem Store.load_shows (s : Store) :
    ∀ d, s.Extends (s.load d).2 ∧ Shows (s.load d).2 s.New d (s.load d).1
  | .scalar a => by
    rw [load]
    exact ⟨.refl s, shows_scalar.mpr rfl⟩
  | .list ds => by
    obtain ⟨hs, items⟩ := loadItems_shows s ds
    rw [load]
    refine ⟨hs, ?_⟩
    rw [Shows]
    exact ⟨_, rfl, showsItems_iff.mpr items⟩
  | .map es => by
    obtain ⟨hs, row⟩ := loadEntries_shows s es
    rw [load_map]
    refine ⟨hs.trans (.alloc _ _), shows_map.mpr
      ⟨_, (s.loadEntries es).1, rfl, hs.size_le, get?_alloc_new _ _, ?_⟩⟩
    exact row.imp fun _ _ h => ⟨h.1, h.2.extend (.alloc _ _) fun _ ha _ => ha⟩
  | .record kind fs => by
    obtain ⟨hs, row⟩ := loadFields_shows s fs
    rw [load_record]
    refine ⟨hs.trans (.alloc _ _), shows_record.mpr
      ⟨_, (s.loadFields fs).1, rfl, hs.size_le, get?_alloc_new _ _, ?_⟩⟩
    exact row.imp fun _ _ h => ⟨h.1, h.2.extend (.alloc _ _) fun _ ha _ => ha⟩
  | .pair name d => by
    obtain ⟨hs, hd⟩ := load_shows s d
    rw [load]
    refine ⟨hs, ?_⟩
    rw [Shows]
    exact ⟨_, rfl, hd⟩

theorem Store.loadItems_shows (s : Store) :
    ∀ ds, s.Extends (s.loadItems ds).2 ∧
      List.Forall₂ (Shows (s.loadItems ds).2 s.New) ds (s.loadItems ds).1
  | [] => ⟨.refl s, .nil⟩
  | d :: ds => by
    obtain ⟨hs, hd⟩ := load_shows s d
    obtain ⟨hs', items⟩ := loadItems_shows (s.load d).2 ds
    rw [loadItems]
    refine ⟨hs.trans hs', .cons (hd.extend hs' fun _ ha _ => ha) ?_⟩
    exact items.imp fun _ _ h => h.earlier hs

theorem Store.loadEntries_shows (s : Store) :
    ∀ es, s.Extends (s.loadEntries es).2 ∧
      RowOf (Shows (s.loadEntries es).2 s.New) es (s.loadEntries es).1
  | [] => ⟨.refl s, .nil⟩
  | (k, d) :: es => by
    obtain ⟨hs, hd⟩ := load_shows s d
    obtain ⟨hs', row⟩ := loadEntries_shows (s.load d).2 es
    rw [loadEntries]
    refine ⟨hs.trans hs', .cons ⟨rfl, hd.extend hs' fun _ ha _ => ha⟩ ?_⟩
    exact row.imp fun _ _ h => ⟨h.1, h.2.earlier hs⟩

theorem Store.loadFields_shows (s : Store) :
    ∀ fs, s.Extends (s.loadFields fs).2 ∧
      RowOf (Shows (s.loadFields fs).2 s.New) fs (s.loadFields fs).1
  | [] => ⟨.refl s, .nil⟩
  | (f, d) :: fs => by
    obtain ⟨hs, hd⟩ := load_shows s d
    obtain ⟨hs', row⟩ := loadFields_shows (s.load d).2 fs
    rw [loadFields]
    refine ⟨hs.trans hs', .cons ⟨rfl, hd.extend hs' fun _ ha _ => ha⟩ ?_⟩
    exact row.imp fun _ _ h => ⟨h.1, h.2.earlier hs⟩

end

end Template

end TableKeys
