/-
# Sealed regions of cells

A value refers to cells, and these hold values again. A region of cells is sealed if all that its
cells hold refers to cells of the region (`Store.Sealed`), so there is no way out of it. An
expression whose paths lead into a sealed region has its value there: evaluating it adds cells to
the region and changes none (`keeps_eval`), whatever else the store holds.

* `Store.sealed_of_shows`: the cells in which values show data are sealed;
* `follow_inside`: steps of a path stay inside.
-/
import TableKeys.Proofs.Results
import TableKeys.Proofs.Steps

namespace TableKeys.Template

/-! ## Values inside a region -/

/-- The value refers to cells of a region only, and these are there. -/
inductive Value.Inside (free : Address → Prop) (s : Store) : Value → Prop
  | scalar (a : Scalar) : Inside free s (.scalar a)
  | list {items : List Value} (h : ∀ v ∈ items, Inside free s v) : Inside free s (.list items)
  | ref {a : Address} (h : free a) (hlt : a < s.cells.size) : Inside free s (.ref a)
  | pair {v : Value} (name : String) (h : Inside free s v) : Inside free s (.pair name v)

/-- What the cell holds refers to cells of the region. -/
def Cell.Inside (free : Address → Prop) (s : Store) : Cell → Prop
  | .map entries => ∀ e ∈ entries, e.2.Inside free s
  | .record _ fields => ∀ f ∈ fields, f.2.Inside free s

/-- New cells come into the region, and its cells hold values inside it. -/
structure Store.Sealed (free : Address → Prop) (s : Store) : Prop where
  new : ∀ a, s.cells.size ≤ a → free a
  cell : ∀ a c, free a → s.get? a = some c → c.Inside free s

section Regions

variable {free free' : Address → Prop} {s s' : Store} {v w : Value}

lemma Value.Inside.mono (h : v.Inside free s)
    (hfree : ∀ a, free a → a < s.cells.size → free' a ∧ a < s'.cells.size) :
    v.Inside free' s' := by
  induction h with
  | scalar a => exact .scalar a
  | list _ ih => exact .list ih
  | ref ha hlt => exact .ref (hfree _ ha hlt).1 (hfree _ ha hlt).2
  | pair name _ ih => exact .pair name ih

lemma Cell.Inside.mono {c : Cell} (h : c.Inside free s)
    (hfree : ∀ a, free a → a < s.cells.size → free' a ∧ a < s'.cells.size) :
    c.Inside free' s' := by
  cases c with
  | map entries => exact fun e he => (h e he).mono hfree
  | record kind fields => exact fun f hf => (h f hf).mono hfree

/-- What is inside stays inside while the store grows. -/
lemma Value.Inside.extend (h : v.Inside free s) (hs : s.Extends s') : v.Inside free s' :=
  h.mono fun _ ha hlt => ⟨ha, hlt.trans_le hs.size_le⟩

lemma Cell.Inside.extend {c : Cell} (h : c.Inside free s) (hs : s.Extends s') :
    c.Inside free s' :=
  h.mono fun _ ha hlt => ⟨ha, hlt.trans_le hs.size_le⟩

lemma Value.inside_ofKey (k : MapKey) : (Value.ofKey k).Inside free s := by
  induction k with
  | scalar a => exact .scalar a
  | pair name k ih => exact .pair name ih

/-- What is found in entries inside a region is inside. -/
lemma Value.inside_get? {κ : Type} [BEq κ] {es : Entries κ Value} (h : ∀ e ∈ es, e.2.Inside free s)
    (k : κ) : ((es.get? k).getD .null).Inside free s := by
  induction es with
  | nil => exact .scalar _
  | cons e es ih =>
    obtain ⟨he, hes⟩ := List.forall_mem_cons.mp h
    obtain ⟨j, w⟩ := e
    rw [Entries.get?_cons]
    split
    · exact he
    · exact ih hes

/-! ## Stores -/

lemma Store.entries?_eq_some {es : Entries MapKey Value} :
    s.entries? v = some es ↔ ∃ a, v = .ref a ∧ s.get? a = some (.map es) := by
  cases v with
  | ref a =>
    rw [Store.entries?]
    rcases hc : s.get? a with _ | ⟨_ | _⟩ <;> simp [hc]
  | _ => simp [Store.entries?]

lemma Store.record?_eq_some {kind : RecordKind} {fs : Entries Field Value} :
    s.record? v = some (kind, fs) ↔ ∃ a, v = .ref a ∧ s.get? a = some (.record kind fs) := by
  cases v with
  | ref a =>
    rw [Store.record?]
    rcases hc : s.get? a with _ | ⟨_ | _⟩ <;> simp [hc]
  | _ => simp [Store.record?]

namespace Store.Sealed

/-- A new cell with values of the region is a cell of the region. -/
lemma alloc (hs : s.Sealed free) {c : Cell} (hc : c.Inside free s) :
    (s.alloc c).2.Sealed free ∧ (s.alloc c).1.Inside free (s.alloc c).2 := by
  have hext := Store.Extends.alloc s c
  refine ⟨⟨fun a ha => hs.new a (hext.size_le.trans ha), fun a d ha hd => ?_⟩,
    .ref (hs.new _ le_rfl) (by simp [Store.alloc])⟩
  rw [get?_alloc] at hd
  split at hd
  · obtain rfl := Option.some.inj hd
    exact hc.extend hext
  · exact (hs.cell a d ha hd).extend hext

/-- A cell may get other values of the region; outside the region anything may change. -/
lemma set (hs : s.Sealed free) {a : Address} {c : Cell} (hc : free a → c.Inside free s) :
    (s.set a c).Sealed free := by
  have hsize : (s.set a c).cells.size = s.cells.size := by simp [Store.set]
  have hmono : ∀ {d : Cell}, d.Inside free s → d.Inside free (s.set a c) :=
    fun hd => hd.mono fun b hb hlt => ⟨hb, hlt.trans_eq hsize.symm⟩
  refine ⟨fun b hb => hs.new b (hsize ▸ hb), fun b d hb hd => hmono ?_⟩
  rw [get?_set] at hd
  split at hd
  · rename_i hab
    subst hab
    split at hd
    · obtain rfl := Option.some.inj hd
      exact hc hb
    · cases hd
  · exact hs.cell b d hb hd

lemma entries (hs : s.Sealed free) (hv : v.Inside free s) {es : Entries MapKey Value}
    (h : s.entries? v = some es) : ∀ e ∈ es, e.2.Inside free s := by
  obtain ⟨a, rfl, hcell⟩ := Store.entries?_eq_some.mp h
  cases hv with
  | ref ha _ => exact hs.cell _ _ ha hcell

lemma fields (hs : s.Sealed free) (hv : v.Inside free s) {kind : RecordKind}
    {fs : Entries Field Value} (h : s.record? v = some (kind, fs)) :
    ∀ f ∈ fs, f.2.Inside free s := by
  obtain ⟨a, rfl, hcell⟩ := Store.record?_eq_some.mp h
  cases hv with
  | ref ha _ => exact hs.cell _ _ ha hcell

lemma member (hs : s.Sealed free) (hv : v.Inside free s) (name : String) :
    (s.member v name).Inside free s := by
  unfold Store.member
  cases hentries : s.entries? v with
  | some es => exact Value.inside_get? (hs.entries hv hentries) _
  | none =>
    cases hrecord : s.record? v with
    | none => exact .scalar _
    | some kindFields =>
      obtain ⟨kind, fs⟩ := kindFields
      dsimp only
      cases kind.field? name with
      | none => exact .scalar _
      | some field => exact Value.inside_get? (hs.fields hv hrecord) field

end Store.Sealed

lemma Value.Inside.item (hv : v.Inside free s) (i : Nat) : (v.item i).Inside free s := by
  cases hv with
  | @list items h =>
    rw [Value.item, List.getD_eq_getElem?_getD]
    cases hi : items[i]? with
    | none => exact .scalar _
    | some w => exact h w (List.mem_of_getElem? hi)
  | _ => exact .scalar _

lemma Value.Inside.pick (hv : v.Inside free s) (segment : Segment) :
    (segment.pick v).Inside free s := by
  unfold Segment.pick
  split
  · exact hv.item _
  · exact hv

/-- **There is no way out**: steps of a path lead from inside to inside. -/
theorem follow_inside (hs : s.Sealed free) (hv : v.Inside free s) {steps : List (List Char)}
    (h : follow s v steps = .ok w) : w.Inside free s := by
  induction steps generalizing v with
  | nil =>
    obtain rfl := Except.ok.inj h
    exact hv
  | cons step steps ih =>
    rw [follow] at h
    split at h
    · obtain rfl := Except.ok.inj h
      exact hv
    · obtain ⟨segment, -, hrest⟩ := exists_of_bind_eq_ok h
      exact ih ((hs.member hv _).pick _) hrest

/-- Where every variable has a value inside, every path leads inside. -/
lemma resolve_inside (hs : s.Sealed free) {bindings : Entries String Value}
    (hbindings : ∀ name v, bindings.get? name = some v → v.Inside free s) {path : String}
    (h : resolve s bindings path = .ok w) : w.Inside free s := by
  unfold resolve at h
  split at h
  · obtain rfl := Except.ok.inj h
    exact .scalar _
  · obtain ⟨segment, -, hrest⟩ := exists_of_bind_eq_ok h
    have hvariable : ((bindings.get? segment.name).getD .null).Inside free s := by
      cases hv : bindings.get? segment.name with
      | none => exact .scalar _
      | some v => exact hbindings _ v hv
    exact follow_inside hs (hvariable.pick segment) hrest

/-! ## Data in cells -/

/-- A value that shows data refers to cells that show data. -/
lemma Shows.inside {region : Address → Prop} {d : Data} (h : Shows s region d v) :
    v.Inside (fun a => (∃ d, Shows s region d (.ref a)) ∨ s.cells.size ≤ a) s := by
  have hhere : ∀ {d : Data} {a : Address} {c : Cell}, Shows s region d (.ref a) →
      s.get? a = some c →
        (Value.ref a).Inside (fun a => (∃ d, Shows s region d (.ref a)) ∨ s.cells.size ≤ a) s :=
    fun h hc => .ref (.inl ⟨_, h⟩) (Store.lt_of_get? hc)
  refine Shows.induction (motive := fun _ v => v.Inside _ s) ?scalar ?list ?map ?record ?pair h
  case scalar => exact fun a => .scalar a
  case list =>
    intro ds vs items
    refine .list fun v hv => ?_
    obtain ⟨d, -, -, hinside⟩ := exists_of_mem_right items hv
    exact hinside
  case map =>
    intro es vs a here cell row
    exact hhere (shows_map.mpr ⟨a, vs, rfl, here, cell, row.imp fun _ _ h => ⟨h.1, h.2.1⟩⟩) cell
  case record =>
    intro kind fs vs a here cell row
    exact hhere (shows_record.mpr ⟨a, vs, rfl, here, cell, row.imp fun _ _ h => ⟨h.1, h.2.1⟩⟩) cell
  case pair => exact fun name d v ih => .pair name ih

/-- **The cells in which values show data are a sealed region**, together with all new ones. -/
theorem Store.sealed_of_shows (s : Store) (region : Address → Prop) :
    s.Sealed fun a => (∃ d, Shows s region d (.ref a)) ∨ s.cells.size ≤ a := by
  refine ⟨fun a ha => .inr ha, fun a c ha hc => ?_⟩
  have hlt := Store.lt_of_get? hc
  obtain ⟨d, hd⟩ := ha.resolve_right (Nat.not_le_of_lt hlt)
  cases d with
  | map es =>
    obtain ⟨_, vs, ⟨⟩, -, hcell, row⟩ := shows_map.mp hd
    obtain rfl := Option.some.inj (hc.symm.trans hcell)
    intro e he
    obtain ⟨_, -, -, hshows⟩ := exists_of_mem_right row he
    exact hshows.inside
  | record kind fs =>
    obtain ⟨_, vs, ⟨⟩, -, hcell, row⟩ := shows_record.mp hd
    obtain rfl := Option.some.inj (hc.symm.trans hcell)
    intro e he
    obtain ⟨_, -, -, hshows⟩ := exists_of_mem_right row he
    exact hshows.inside
  | scalar a =>
    rw [shows_scalar] at hd
    cases hd
  | list ds =>
    rw [Shows] at hd
    obtain ⟨_, hd, -⟩ := hd
    cases hd
  | pair name d =>
    rw [Shows] at hd
    obtain ⟨_, hd, -⟩ := hd
    cases hd

/-! ## New cells -/

mutual

/-- Data that is put into cells is put into the region. -/
theorem Store.load_inside (s : Store) (hs : s.Sealed free) :
    ∀ d, (s.load d).2.Sealed free ∧ (s.load d).1.Inside free (s.load d).2
  | .scalar a => by
    rw [load]
    exact ⟨hs, .scalar a⟩
  | .list ds => by
    obtain ⟨hs', items⟩ := loadItems_inside s hs ds
    rw [load]
    exact ⟨hs', .list items⟩
  | .map es => by
    obtain ⟨hs', row⟩ := loadEntries_inside s hs es
    rw [load_map]
    exact hs'.alloc row
  | .record kind fs => by
    obtain ⟨hs', row⟩ := loadFields_inside s hs fs
    rw [load_record]
    exact hs'.alloc row
  | .pair name d => by
    obtain ⟨hs', hd⟩ := load_inside s hs d
    rw [load]
    exact ⟨hs', .pair name hd⟩

theorem Store.loadItems_inside (s : Store) (hs : s.Sealed free) :
    ∀ ds, (s.loadItems ds).2.Sealed free ∧
      ∀ v ∈ (s.loadItems ds).1, v.Inside free (s.loadItems ds).2
  | [] => ⟨hs, by simp [loadItems]⟩
  | d :: ds => by
    obtain ⟨hs', hd⟩ := load_inside s hs d
    obtain ⟨hs'', items⟩ := loadItems_inside (s.load d).2 hs' ds
    rw [loadItems]
    exact ⟨hs'', List.forall_mem_cons.mpr ⟨hd.extend (loadItems_shows _ ds).1, items⟩⟩

theorem Store.loadEntries_inside (s : Store) (hs : s.Sealed free) :
    ∀ es, (s.loadEntries es).2.Sealed free ∧
      ∀ e ∈ (s.loadEntries es).1, e.2.Inside free (s.loadEntries es).2
  | [] => ⟨hs, by simp [loadEntries]⟩
  | (k, d) :: es => by
    obtain ⟨hs', hd⟩ := load_inside s hs d
    obtain ⟨hs'', row⟩ := loadEntries_inside (s.load d).2 hs' es
    rw [loadEntries]
    exact ⟨hs'', List.forall_mem_cons.mpr ⟨hd.extend (loadEntries_shows _ es).1, row⟩⟩

theorem Store.loadFields_inside (s : Store) (hs : s.Sealed free) :
    ∀ fs, (s.loadFields fs).2.Sealed free ∧
      ∀ f ∈ (s.loadFields fs).1, f.2.Inside free (s.loadFields fs).2
  | [] => ⟨hs, by simp [loadFields]⟩
  | (f, d) :: fs => by
    obtain ⟨hs', hd⟩ := load_inside s hs d
    obtain ⟨hs'', row⟩ := loadFields_inside (s.load d).2 hs' fs
    rw [loadFields]
    exact ⟨hs'', List.forall_mem_cons.mpr ⟨hd.extend (loadFields_shows _ fs).1, row⟩⟩

end

end Regions

/-! ## Runs that only add to a region -/

/-- From a machine that went on from here, the run only adds cells to the sealed region, and
something holds of its result. -/
def Run.Keeps {α : Type} (free : Address → Prop) (W : Store → α → Prop) (m₀ : Machine)
    (x : Run α) : Prop :=
  ∀ m a m', m₀.Extends m → m.store.Sealed free → x m = .ok a m' →
    m.Extends m' ∧ m'.store.Sealed free ∧ W m'.store a

section Runs

variable {α β : Type} {free : Address → Prop} {W : Store → α → Prop} {W' : Store → β → Prop}
  {m₀ m : Machine} {separator : String}

/-- Nothing is said of the result. -/
abbrev Anything (_ : Store) (_ : α) : Prop := True

/-- The values are inside the region. -/
def AllInside (free : Address → Prop) (s : Store) (vs : List Value) : Prop :=
  ∀ v ∈ vs, v.Inside free s

/-- The values of the entries are inside the region. -/
def EntriesInside {κ : Type} (free : Address → Prop) (s : Store) (es : List (κ × Value)) : Prop :=
  ∀ e ∈ es, e.2.Inside free s

lemma EntriesInside.putAll {κ : Type} [BEq κ] {s : Store} {es fs : Entries κ Value}
    (hes : EntriesInside free s es) (hfs : EntriesInside free s fs) :
    EntriesInside free s (es.putAll fs) :=
  Entries.forall_mem_putAll (P := Value.Inside free s) hes hfs

namespace Run.Keeps

lemma later {x : Run α} (h : Keeps free W m₀ x) (hm : m₀.Extends m) : Keeps free W m x :=
  fun m₁ a m' hm₁ => h m₁ a m' (hm.trans hm₁)

lemma bind {x : Run α} {f : α → Run β} (hx : Keeps free W m₀ x)
    (hf : ∀ a m, m₀.Extends m → W m.store a → Keeps free W' m (f a)) :
    Keeps free W' m₀ (x >>= f) := by
  intro m b m' hm hs h
  obtain ⟨a, m₁, hx', hf'⟩ := of_bind_ok h
  obtain ⟨hm₁, hs₁, ha⟩ := hx m a m₁ hm hs hx'
  obtain ⟨hm', hs', hb⟩ := hf a m₁ (hm.trans hm₁) ha m₁ b m' (.refl _) hs₁ hf'
  exact ⟨hm₁.trans hm', hs', hb⟩

lemma pure {a : α} (h : ∀ s, m₀.store.Extends s → W s a) :
    Keeps free W m₀ (Pure.pure a : Run α) := by
  intro m b m' hm hs hx
  cases hx
  exact ⟨.refl _, hs, h _ hm.store⟩

lemma get_bind {f : Machine → Run β} (hf : ∀ m, m₀.Extends m → Keeps free W' m (f m)) :
    Keeps free W' m₀ (MonadState.get >>= f) :=
  fun m b m' hm hs h => hf m hm m b m' (.refl _) hs h

lemma throw (e : Failure) : Keeps free W m₀ (MonadExcept.throw e : Run α) := by
  intro m a m' _ _ hx
  cases hx

lemma ofExcept {x : Except Fault α} (h : ∀ a, x = .ok a → ∀ s, m₀.store.Extends s → W s a) :
    Keeps free W m₀ (Run.ofExcept x) := by
  cases x with
  | ok a => exact pure (h a rfl)
  | error f => exact throw _

lemma read (v : Value) : Keeps free Anything m₀ (Run.read v) :=
  get_bind fun _ _ => pure fun _ _ => trivial

lemma load (d : Data) : Keeps free (fun s v => v.Inside free s) m₀ (Run.load d) := by
  intro m v m' _ hs hx
  cases hx
  exact ⟨.of_store (m.store.load_shows d).1, m.store.load_inside hs d⟩

lemma newMap {entries : Entries MapKey Value} (h : EntriesInside free m₀.store entries) :
    Keeps free (fun s v => v.Inside free s) m₀ (Run.newMap entries) := by
  intro m v m' hm hs hx
  cases hx
  exact ⟨.of_store (.alloc _ _), hs.alloc fun e he => (h e he).extend hm.store⟩

lemma record (e : Event) : Keeps free Anything m₀ (Run.record e) := by
  intro m u m' _ hs hx
  cases hx
  exact ⟨.of_log _, hs, trivial⟩

lemma asKey (v : Value) : Keeps free Anything m₀ (Run.asKey v) :=
  bind (read v) fun _ _ _ _ => ofExcept fun _ _ _ _ => trivial

lemma ite {c : Bool} {x y : Run α} (hx : Keeps free W m₀ x) (hy : Keeps free W m₀ y) :
    Keeps free W m₀ (if c = true then x else y) := by
  cases c
  · exact hy
  · exact hx

end Run.Keeps

/-! ## Expressions -/

mutual

/-- The paths of the references in an expression. -/
def Expr.paths : Expr → List String
  | .ref path => [path]
  | .object entries => entryPaths entries
  | .keyed entries => keyedPaths entries
  | .list items => allPaths items
  | .and es => allPaths es
  | .isNull e | .not e | .toAttribute e | .toFilter e => e.paths
  | .equals a b | .containsKey a b | .defaultIfNull a b => a.paths ++ b.paths
  | _ => []

/-- The paths of the references in several expressions. -/
def allPaths : List Expr → List String
  | [] => []
  | e :: es => e.paths ++ allPaths es

/-- The paths of the references in the entries of a map. -/
def entryPaths : List (String × Expr) → List String
  | [] => []
  | (_, e) :: es => e.paths ++ entryPaths es

/-- The paths of the references in the entries of a map with any keys. -/
def keyedPaths : List (Scalar × Expr) → List String
  | [] => []
  | (_, e) :: es => e.paths ++ keyedPaths es

end

/-- The path leads into the region from here on. -/
abbrev LeadsInside (free : Address → Prop) (m₀ : Machine) (path : String) : Prop :=
  Run.Keeps free (fun s v => v.Inside free s) m₀ (Run.resolve path)

lemma leadsInside_of_bindings
    (h : ∀ name v, m₀.bindings.get? name = some v → v.Inside free m₀.store) (path : String) :
    LeadsInside free m₀ path := by
  intro m v m' hm hs hrun
  obtain ⟨hresolve, rfl⟩ := of_resolve_ok hrun
  refine ⟨.refl _, hs, resolve_inside hs (fun name v hv => ?_) hresolve⟩
  rw [hm.bindings] at hv
  exact (h name v hv).extend hm.store

lemma forall_mem_leadsInside {ps : List String} (h : ∀ p ∈ ps, LeadsInside free m₀ p)
    (hm : m₀.Extends m) : ∀ p ∈ ps, LeadsInside free m p :=
  fun p hp => (h p hp).later hm

lemma keeps_interpolate (s : String) : Run.Keeps free Anything m₀ (interpolate separator s) := by
  refine .get_bind fun m _ => .bind (W := Anything) (.ofExcept fun _ _ _ _ => trivial)
    fun done _ _ _ => ?_
  dsimp only
  split
  · exact .bind (.record _) fun _ _ _ _ => .pure fun _ _ => trivial
  · exact .pure fun _ _ => trivial

lemma keeps_misfitValue (leaf : Leaf) (content : Scalar) :
    Run.Keeps free (fun s v => v.Inside free s) m₀ (misfitValue leaf content) := by
  unfold misfitValue
  split
  · exact .throw _
  · exact .throw _
  · exact .pure fun _ _ => .scalar _

lemma keeps_hasKey (target key : Value) : Run.Keeps free Anything m₀ (hasKey target key) :=
  .get_bind fun _ _ => .bind (.asKey key) fun _ _ _ _ => .pure fun _ _ => trivial

lemma keeps_equalValues (a b : Value) : Run.Keeps free Anything m₀ (equalValues a b) :=
  .bind (.read a) fun _ _ _ _ => .bind (.read b) fun _ _ _ _ => .ofExcept fun _ _ _ _ => trivial

lemma keeps_toAttributeValue (v : Value) :
    Run.Keeps free (fun s v => v.Inside free s) m₀ (toAttributeValue v) :=
  .bind (.read v) fun _ _ _ _ => .bind (W := Anything) (.ofExcept fun _ _ _ _ => trivial)
    fun _ _ _ _ => .load _

lemma keeps_toFilterExpression (v : Value) :
    Run.Keeps free (fun s v => v.Inside free s) m₀ (toFilterExpression v) := by
  refine .bind (.read v) fun d _ _ _ => ?_
  split
  · exact .throw _
  · exact .pure fun _ _ => .scalar _
  · exact .load _

lemma entriesInside_map {κ : Type} {s : Store} {entries : List (κ × Value)}
    (h : EntriesInside free s entries) (key : κ → MapKey) :
    EntriesInside free s (Entries.ofList (entries.map fun (k, v) => (key k, v))) := by
  refine EntriesInside.putAll (fun e he => absurd he (List.not_mem_nil)) fun e he => ?_
  obtain ⟨entry, hentry, rfl⟩ := List.mem_map.mp he
  exact h entry hentry

mutual

/-- **An expression whose paths lead into a sealed region only adds cells to it**, and has its
value there. -/
theorem keeps_eval {m₀ : Machine} : ∀ e : Expr, (∀ p ∈ e.paths, LeadsInside free m₀ p) →
    Run.Keeps free (fun s v => v.Inside free s) m₀ (e.eval separator)
  | .ref path, h => by
    rw [Expr.eval]
    exact h path (by simp [Expr.paths])
  | .text s, _ => by
    rw [Expr.eval]
    exact .bind (keeps_interpolate s) fun _ _ _ _ => .pure fun _ _ => .scalar _
  | .bool _, _ | .int _, _ => by
    rw [Expr.eval]
    exact .pure fun _ _ => .scalar _
  | .misfit leaf content, _ => by
    rw [Expr.eval]
    exact keeps_misfitValue leaf content
  | .object entries, h => by
    rw [Expr.eval]
    exact .bind (keeps_evalEntries entries h) fun _ _ _ hvs => .newMap (entriesInside_map hvs .text)
  | .keyed entries, h => by
    rw [Expr.eval]
    exact .bind (keeps_evalKeyed entries h) fun _ _ _ hvs => .newMap (entriesInside_map hvs .scalar)
  | .list items, h => by
    rw [Expr.eval]
    exact .bind (keeps_evalAll items h) fun _ _ _ hvs =>
      .pure fun _ hs => .list fun v hv => (hvs v hv).extend hs
  | .isNull e, h | .not e, h => by
    rw [Expr.eval]
    exact .bind (keeps_eval e h) fun _ _ _ _ => .pure fun _ _ => .scalar _
  | .and es, h => by
    rw [Expr.eval]
    exact .bind (keeps_evalAnd es h) fun _ _ _ _ => .pure fun _ _ => .scalar _
  | .equals a b, h => by
    obtain ⟨ha, hb⟩ := List.forall_mem_append.mp h
    rw [Expr.eval]
    exact .bind (keeps_eval a ha) fun _ _ hm _ =>
      .bind (keeps_eval b (forall_mem_leadsInside hb hm)) fun _ _ _ _ =>
        .bind (keeps_equalValues _ _) fun _ _ _ _ => .pure fun _ _ => .scalar _
  | .containsKey target key, h => by
    obtain ⟨htarget, hkey⟩ := List.forall_mem_append.mp h
    rw [Expr.eval]
    refine .bind (keeps_eval target htarget) fun _ _ hm _ => .get_bind fun _ hm' =>
      .ite ?_ (.pure fun _ _ => .scalar _)
    exact .bind (keeps_eval key (forall_mem_leadsInside hkey (hm.trans hm'))) fun _ _ _ _ =>
      .bind (keeps_hasKey _ _) fun _ _ _ _ => .pure fun _ _ => .scalar _
  | .defaultIfNull e default, h => by
    obtain ⟨he, hdefault⟩ := List.forall_mem_append.mp h
    rw [Expr.eval]
    exact .bind (keeps_eval e he) fun _ _ hm hv =>
      .ite (keeps_eval default (forall_mem_leadsInside hdefault hm))
        (.pure fun _ hs => hv.extend hs)
  | .toAttribute e, h => by
    rw [Expr.eval]
    exact .bind (keeps_eval e h) fun _ _ _ _ => keeps_toAttributeValue _
  | .toFilter e, h => by
    rw [Expr.eval]
    exact .bind (keeps_eval e h) fun _ _ _ _ => keeps_toFilterExpression _
  | .stray _, _ | .unlisted _, _ => by
    rw [Expr.eval]
    exact .throw _

theorem keeps_evalAll {m₀ : Machine} : ∀ es : List Expr,
    (∀ p ∈ allPaths es, LeadsInside free m₀ p) →
      Run.Keeps free (AllInside free) m₀ (evalAll separator es)
  | [], _ => by
    rw [evalAll]
    exact .pure fun _ _ => by simp [AllInside]
  | e :: es, h => by
    obtain ⟨he, hes⟩ := List.forall_mem_append.mp h
    rw [evalAll]
    exact .bind (keeps_eval e he) fun _ _ hm hv =>
      .bind ((keeps_evalAll es (forall_mem_leadsInside hes hm))) fun _ _ hm' hvs =>
        .pure fun _ hs => List.forall_mem_cons.mpr
          ⟨hv.extend (hm'.store.trans hs), fun v hv => (hvs v hv).extend hs⟩

theorem keeps_evalEntries {m₀ : Machine} : ∀ es : List (String × Expr),
    (∀ p ∈ entryPaths es, LeadsInside free m₀ p) →
      Run.Keeps free (EntriesInside free) m₀ (evalEntries separator es)
  | [], _ => by
    rw [evalEntries]
    exact .pure fun _ _ => by simp [EntriesInside]
  | (name, e) :: es, h => by
    obtain ⟨he, hes⟩ := List.forall_mem_append.mp h
    rw [evalEntries]
    exact .bind (keeps_eval e he) fun _ _ hm hv =>
      .bind (keeps_evalEntries es (forall_mem_leadsInside hes hm)) fun _ _ hm' hvs =>
        .pure fun _ hs => List.forall_mem_cons.mpr
          ⟨hv.extend (hm'.store.trans hs), fun v hv => (hvs v hv).extend hs⟩

theorem keeps_evalKeyed {m₀ : Machine} : ∀ es : List (Scalar × Expr),
    (∀ p ∈ keyedPaths es, LeadsInside free m₀ p) →
      Run.Keeps free (EntriesInside free) m₀ (evalKeyed separator es)
  | [], _ => by
    rw [evalKeyed]
    exact .pure fun _ _ => by simp [EntriesInside]
  | (k, e) :: es, h => by
    obtain ⟨he, hes⟩ := List.forall_mem_append.mp h
    rw [evalKeyed]
    exact .bind (keeps_eval e he) fun _ _ hm hv =>
      .bind (keeps_evalKeyed es (forall_mem_leadsInside hes hm)) fun _ _ hm' hvs =>
        .pure fun _ hs => List.forall_mem_cons.mpr
          ⟨hv.extend (hm'.store.trans hs), fun v hv => (hvs v hv).extend hs⟩

theorem keeps_evalAnd {m₀ : Machine} : ∀ es : List Expr,
    (∀ p ∈ allPaths es, LeadsInside free m₀ p) →
      Run.Keeps free Anything m₀ (evalAnd separator es)
  | [], _ => by
    rw [evalAnd]
    exact .pure fun _ _ => trivial
  | e :: es, h => by
    obtain ⟨he, hes⟩ := List.forall_mem_append.mp h
    rw [evalAnd]
    exact .bind (keeps_eval e he) fun _ _ hm _ =>
      .ite (keeps_evalAnd es (forall_mem_leadsInside hes hm)) (.pure fun _ _ => trivial)

end

end Runs

end TableKeys.Template
