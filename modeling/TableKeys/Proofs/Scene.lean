/-
# Requests taken apart

While templates run, the maps of a request that they change are the input, the default values
and the name overrides, and next to the request the merged values. A `Scene` is a request
taken apart at these places, and a `Layout` says in which cells they stand. In a store that
holds a scene (`Layout.Holds`) these cells differ from each other and everything else is shown
outside of them, so a change of one cell is a change of one part of the scene.

* `Layout.Holds.read_eq`: the context is read as the request that the scene makes up;
* `Layout.Holds.set`: changing one cell;
* `Layout.Holds.adopt`: a new cell becomes a part of the scene.
-/
import TableKeys.Proofs.SchemaName
import TableKeys.Proofs.Shows

namespace TableKeys.Template

/-- The maps that templates change. -/
inductive Part where
  | input
  | defaults
  | overrides
  | merged
deriving DecidableEq

/-- A request taken apart. -/
structure Scene where
  /-- The arguments before the input. -/
  before : Entries MapKey Data
  /-- The arguments after the input. -/
  after : Entries MapKey Data
  maps : Part → Option (Entries MapKey Data)
  key : Data
  query : Data
  result : Data
  error : Data

namespace Scene

/-- A part as data; null if it is not there. -/
def part (sc : Scene) (p : Part) : Data :=
  ((sc.maps p).map Data.map).getD .null

/-- The argument for the input, if it is there. -/
def inputEntry (sc : Scene) : Entries MapKey Data :=
  (sc.maps .input).toList.map fun es => (.text "input", .map es)

/-- The arguments. -/
def arguments (sc : Scene) : Entries MapKey Data :=
  sc.before ++ (sc.inputEntry ++ sc.after)

/-- The metadata. -/
def metadata (sc : Scene) : Data :=
  .record .metadata [(.modelObjectKey, sc.key), (.nameOverrides, sc.part .overrides),
    (.queryExpression, sc.query)]

/-- The stash. -/
def stash (sc : Scene) : Data :=
  .record .stash [(.metadata, sc.metadata), (.defaultValues, sc.part .defaults)]

/-- The request context. -/
def data (sc : Scene) : Data :=
  .record .request [(.arguments, .map sc.arguments), (.stash, sc.stash), (.result, sc.result),
    (.error, sc.error)]

/-- The scene with another map as a part. -/
def setMap (sc : Scene) (p : Part) (es : Entries MapKey Data) : Scene :=
  { sc with maps := fun q => if q = p then some es else sc.maps q }

/-- The scene with another key. -/
def keyed (sc : Scene) (key : Data) : Scene :=
  { sc with key := key }

/-- The scene with another key condition. -/
def asked (sc : Scene) (query : Data) : Scene :=
  { sc with query := query }

@[simp] lemma keyed_maps (sc : Scene) (key : Data) : (sc.keyed key).maps = sc.maps := rfl

@[simp] lemma setMap_self (sc : Scene) (p : Part) (es : Entries MapKey Data) :
    (sc.setMap p es).maps p = some es := by
  simp [setMap]

lemma setMap_of_ne (sc : Scene) {p q : Part} (es : Entries MapKey Data) (h : q ≠ p) :
    (sc.setMap p es).maps q = sc.maps q := by
  simp [setMap, h]

end Scene

/-- The places that have a cell of their own. -/
inductive Spot where
  | context
  | arguments
  | stash
  | metadata
  | map (p : Part)
deriving DecidableEq

/-- The cells in which a scene stands. -/
structure Layout where
  cell : Spot → Address

namespace Layout

/-- A place that the scene has. -/
def Present (sc : Scene) : Spot → Prop
  | .map p => (sc.maps p).isSome
  | _ => True

/-- The cell stands for a place of the scene. -/
def Named (l : Layout) (sc : Scene) (a : Address) : Prop :=
  ∃ x, Present sc x ∧ l.cell x = a

/-- The value of a part. -/
def value (l : Layout) (sc : Scene) (p : Part) : Value :=
  if (sc.maps p).isSome then .ref (l.cell (.map p)) else .null

lemma value_of_some {l : Layout} {sc : Scene} {p : Part} {es : Entries MapKey Data}
    (h : sc.maps p = some es) : l.value sc p = .ref (l.cell (.map p)) := by
  simp [value, h]

lemma value_of_none {l : Layout} {sc : Scene} {p : Part} (h : sc.maps p = none) :
    l.value sc p = .null := by
  simp [value, h]

/-- The argument for the input as a value. -/
def inputEntry (l : Layout) (sc : Scene) : Entries MapKey Value :=
  if (sc.maps .input).isSome then [(.text "input", .ref (l.cell (.map .input)))] else []

/-- The layout with another cell for a part. -/
def move (l : Layout) (p : Part) (a : Address) : Layout :=
  ⟨fun x => if x = .map p then a else l.cell x⟩

@[simp] lemma move_self (l : Layout) (p : Part) (a : Address) :
    (l.move p a).cell (.map p) = a := by
  simp [move]

lemma move_of_ne (l : Layout) {p : Part} {x : Spot} (a : Address) (h : x ≠ .map p) :
    (l.move p a).cell x = l.cell x := by
  simp [move, h]

/-- What the cell at a place holds; `R` says how data is shown in other cells. -/
def Content (l : Layout) (sc : Scene) (R : Data → Value → Prop) (c : Cell) : Spot → Prop
  | .context => ∃ r e, c = .record .request [(.arguments, .ref (l.cell .arguments)),
      (.stash, .ref (l.cell .stash)), (.result, r), (.error, e)] ∧ R sc.result r ∧ R sc.error e
  | .arguments => ∃ us ws, c = .map (us ++ (l.inputEntry sc ++ ws)) ∧ RowOf R sc.before us ∧
      RowOf R sc.after ws
  | .stash => c = .record .stash [(.metadata, .ref (l.cell .metadata)),
      (.defaultValues, l.value sc .defaults)]
  | .metadata => ∃ k q, c = .record .metadata [(.modelObjectKey, k),
      (.nameOverrides, l.value sc .overrides), (.queryExpression, q)] ∧ R sc.key k ∧ R sc.query q
  | .map p => ∃ es ws, sc.maps p = some es ∧ c = .map ws ∧ RowOf R es ws

/-- The store holds the scene in these cells. -/
structure Holds (l : Layout) (s : Store) (sc : Scene) : Prop where
  apart : ∀ x y, Present sc x → Present sc y → l.cell x = l.cell y → x = y
  content : ∀ x, Present sc x →
    ∃ c, s.get? (l.cell x) = some c ∧ l.Content sc (Shows s fun a => ¬ l.Named sc a) c x
  before : (sc.maps .input).isSome → sc.before.has (.text "input") = false

lemma Content.mono {l : Layout} {sc : Scene} {R R' : Data → Value → Prop} {c : Cell} {x : Spot}
    (h : l.Content sc R c x) (himp : ∀ d v, R d v → R' d v) : l.Content sc R' c x := by
  cases x with
  | context =>
    obtain ⟨r, e, hc, hr, he⟩ := h
    exact ⟨r, e, hc, himp _ _ hr, himp _ _ he⟩
  | arguments =>
    obtain ⟨us, ws, hc, hus, hws⟩ := h
    exact ⟨us, ws, hc, hus.imp fun _ _ h => ⟨h.1, himp _ _ h.2⟩,
      hws.imp fun _ _ h => ⟨h.1, himp _ _ h.2⟩⟩
  | stash => exact h
  | metadata =>
    obtain ⟨k, q, hc, hk, hq⟩ := h
    exact ⟨k, q, hc, himp _ _ hk, himp _ _ hq⟩
  | map p =>
    obtain ⟨es, ws, hes, hc, row⟩ := h
    exact ⟨es, ws, hes, hc, row.imp fun _ _ h => ⟨h.1, himp _ _ h.2⟩⟩

namespace Holds

variable {l : Layout} {s s' : Store} {sc : Scene}

/-- More cells change nothing. -/
lemma extend (h : l.Holds s sc) (hs : s.Extends s') : l.Holds s' sc where
  apart := h.apart
  content x hx := by
    obtain ⟨c, hc, hcontent⟩ := h.content x hx
    refine ⟨c, (hs.get?_eq _ (Store.lt_of_get? hc)).trans hc, hcontent.mono ?_⟩
    exact fun d v hv => hv.extend hs fun _ ha _ => ha
  before := h.before

/-- No place of the scene is in a new cell. -/
lemma not_named (h : l.Holds s sc) {a : Address} (ha : s.New a) : ¬ l.Named sc a := by
  rintro ⟨x, hx, rfl⟩
  obtain ⟨c, hc, -⟩ := h.content x hx
  exact absurd (Store.lt_of_get? hc) (Nat.not_lt.mpr ha)

/-! ### Changing a cell -/

/-- A place may get other contents if they fit a scene with the same places. -/
theorem set (h : l.Holds s sc) {sc' : Scene} {x : Spot} {c : Cell}
    (hpresent : ∀ y, Present sc' y ↔ Present sc y) (hbefore : sc'.before = sc.before)
    (hx : Present sc x) (hc : l.Content sc' (Shows s fun a => ¬ l.Named sc a) c x)
    (hother : ∀ R c y, y ≠ x → l.Content sc R c y → l.Content sc' R c y) :
    l.Holds (s.set (l.cell x) c) sc' := by
  obtain ⟨cx, hcx, -⟩ := h.content x hx
  have hnamed : ∀ a, l.Named sc' a ↔ l.Named sc a := fun a =>
    exists_congr fun y => and_congr_left fun _ => hpresent y
  have hcarry : ∀ d v, Shows s (fun a => ¬ l.Named sc a) d v →
      Shows (s.set (l.cell x) c) (fun a => ¬ l.Named sc' a) d v := by
    intro d v hv
    refine hv.mono (fun a ha _ => mt (hnamed a).mp ha) fun a ha _ => ?_
    refine Store.get?_set_of_ne ?_ c
    rintro rfl
    exact ha ⟨x, hx, rfl⟩
  refine ⟨fun y z hy hz => h.apart y z ((hpresent y).mp hy) ((hpresent z).mp hz), ?_, ?_⟩
  · intro y hy
    have hy' := (hpresent y).mp hy
    by_cases hyx : y = x
    · subst hyx
      exact ⟨c, Store.get?_set_self hcx, hc.mono hcarry⟩
    · obtain ⟨cy, hcy, hcontent⟩ := h.content y hy'
      have hne : l.cell x ≠ l.cell y := fun heq => hyx (h.apart y x hy' hx heq.symm)
      exact ⟨cy, (Store.get?_set_of_ne hne c).trans hcy, (hother _ _ y hyx hcontent).mono hcarry⟩
  · intro hin
    rw [hbefore]
    exact h.before ((hpresent (.map .input)).mp hin)

lemma content_map (h : l.Holds s sc) {p : Part} {es : Entries MapKey Data}
    (hp : sc.maps p = some es) : ∃ ws, s.get? (l.cell (.map p)) = some (.map ws) ∧
      RowOf (Shows s fun a => ¬ l.Named sc a) es ws := by
  obtain ⟨c, hc, es', ws, hes, rfl, row⟩ := h.content (.map p) (by simp [Present, hp])
  obtain rfl : es' = es := Option.some.inj (hes.symm.trans hp)
  exact ⟨ws, hc, row⟩

/-- Another map as a part. -/
lemma setMap (h : l.Holds s sc) {p : Part} {es es' : Entries MapKey Data}
    {ws : Entries MapKey Value} (hp : sc.maps p = some es)
    (row : RowOf (Shows s fun a => ¬ l.Named sc a) es' ws) :
    l.Holds (s.set (l.cell (.map p)) (.map ws)) (sc.setMap p es') := by
  have hsome : ∀ q, ((sc.setMap p es').maps q).isSome = (sc.maps q).isSome := by
    intro q
    by_cases hq : q = p
    · subst hq
      simp [hp]
    · rw [Scene.setMap_of_ne sc es' hq]
  have hvalue : ∀ q, l.value (sc.setMap p es') q = l.value sc q := fun q => by
    rw [value, value, hsome]
  refine h.set (fun y => ?_) rfl (by simp [Present, hp]) ⟨es', ws, by simp, rfl, row⟩ ?_
  · cases y <;> simp [Present, hsome]
  · intro R c y hy hc
    cases y with
    | context => exact hc
    | arguments =>
      obtain ⟨us, vs, rfl, hus, hvs⟩ := hc
      exact ⟨us, vs, by rw [inputEntry, inputEntry, hsome], hus, hvs⟩
    | stash =>
      rw [Content] at hc ⊢
      rw [hc, hvalue]
    | metadata =>
      obtain ⟨k, q, rfl, hk, hq⟩ := hc
      exact ⟨k, q, by rw [hvalue], hk, hq⟩
    | map q =>
      have hq : q ≠ p := fun heq => hy (by rw [heq])
      simpa only [Content, Scene.setMap_of_ne sc es' hq] using hc

/-- Another key and another key condition. -/
lemma setMetadata (h : l.Holds s sc) (key query : Data) {c : Cell}
    (hc : l.Content ((sc.keyed key).asked query) (Shows s fun a => ¬ l.Named sc a) c .metadata) :
    l.Holds (s.set (l.cell .metadata) c) ((sc.keyed key).asked query) := by
  refine h.set (fun y => ?_) rfl trivial hc fun R c y hy hother => ?_
  · cases y <;> exact Iff.rfl
  · cases y with
    | metadata => exact absurd rfl hy
    | _ => exact hother

/-- Another key. -/
lemma setKey (h : l.Holds s sc) {d : Data} {v : Value}
    (hv : Shows s (fun a => ¬ l.Named sc a) d v) :
    ∃ fields, s.get? (l.cell .metadata) = some (.record .metadata fields) ∧
      l.Holds (s.set (l.cell .metadata) (.record .metadata (fields.put .modelObjectKey v)))
        (sc.keyed d) := by
  obtain ⟨_, hc, k, q, rfl, -, hq⟩ := h.content .metadata trivial
  exact ⟨_, hc, h.setMetadata d sc.query ⟨v, q, rfl, hv, hq⟩⟩

/-- Another key condition. -/
lemma setQuery (h : l.Holds s sc) {d : Data} {v : Value}
    (hv : Shows s (fun a => ¬ l.Named sc a) d v) :
    ∃ fields, s.get? (l.cell .metadata) = some (.record .metadata fields) ∧
      l.Holds (s.set (l.cell .metadata) (.record .metadata (fields.put .queryExpression v)))
        (sc.asked d) := by
  obtain ⟨_, hc, k, q, rfl, hk, -⟩ := h.content .metadata trivial
  exact ⟨_, hc, h.setMetadata sc.key d ⟨k, v, rfl, hk, hv⟩⟩

/-! ### New cells -/

lemma present_setMap {p : Part} {es : Entries MapKey Data} {x : Spot} (h : x ≠ .map p) :
    Present (sc.setMap p es) x ↔ Present sc x := by
  cases x with
  | map q =>
    have hq : q ≠ p := fun heq => h (by rw [heq])
    rw [Present, Present, Scene.setMap_of_ne sc es hq]
  | _ => exact Iff.rfl

lemma value_move {p q : Part} (h : q ≠ p) (es : Entries MapKey Data) (a : Address) :
    (l.move p a).value (sc.setMap p es) q = l.value sc q := by
  rw [value, value, Scene.setMap_of_ne sc es h, move_of_ne l a (by simpa using h)]

lemma content_move {R : Data → Value → Prop} {c : Cell} {p : Part} {x : Spot}
    (hc : l.Content sc R c x) (hx : x ≠ .map p) (hinput : p ≠ .input) (hdefaults : p ≠ .defaults)
    (hmeta : x = .metadata → p ≠ .overrides) (es : Entries MapKey Data) (a : Address) :
    (l.move p a).Content (sc.setMap p es) R c x := by
  cases x with
  | context => exact hc
  | arguments =>
    obtain ⟨us, ws, rfl, hus, hws⟩ := hc
    refine ⟨us, ws, ?_, hus, hws⟩
    rw [inputEntry, inputEntry, Scene.setMap_of_ne sc es hinput.symm,
      move_of_ne l a (by simpa using hinput.symm)]
  | stash =>
    rw [Content] at hc ⊢
    rw [hc, value_move hdefaults.symm, move_of_ne l a (by simp)]
  | metadata =>
    obtain ⟨k, q, rfl, hk, hq⟩ := hc
    exact ⟨k, q, by rw [value_move (hmeta rfl).symm], hk, hq⟩
  | map q =>
    have hq : q ≠ p := fun heq => hx (by rw [heq])
    simpa only [Content, Scene.setMap_of_ne sc es hq] using hc

/-- A new cell becomes the cell of a part, if the other places have contents that fit. -/
theorem adopt (h : l.Holds s sc) {p : Part} {a : Address} {es : Entries MapKey Data}
    {ws : Entries MapKey Value} (hp : p ≠ .input) (ha : s.cells.size ≤ a)
    (hold : ∀ b, b < s.cells.size → ¬ l.Named sc b → s'.get? b = s.get? b)
    (hcell : s'.get? a = some (.map ws))
    (row : RowOf (Shows s' fun b => s.cells.size ≤ b ∧ b ≠ a) es ws)
    (hother : ∀ R c x, x ≠ .map p → Present sc x → s.get? (l.cell x) = some c →
      l.Content sc R c x →
      ∃ c', s'.get? (l.cell x) = some c' ∧ (l.move p a).Content (sc.setMap p es) R c' x) :
    (l.move p a).Holds s' (sc.setMap p es) := by
  have hlt : ∀ x, Present sc x → l.cell x < s.cells.size := by
    intro x hx
    obtain ⟨c, hc, -⟩ := h.content x hx
    exact Store.lt_of_get? hc
  -- besides the new cell only cells of the scene have names, and these are old
  have hnamed : ∀ b, (l.move p a).Named (sc.setMap p es) b →
      b = a ∨ (b < s.cells.size ∧ l.Named sc b) := by
    rintro b ⟨x, hx, rfl⟩
    by_cases hxp : x = .map p
    · subst hxp
      exact .inl (move_self l p a)
    · rw [present_setMap hxp] at hx
      rw [move_of_ne l a hxp]
      exact .inr ⟨hlt x hx, x, hx, rfl⟩
  have hcarry : ∀ d v, Shows s (fun b => ¬ l.Named sc b) d v →
      Shows s' (fun b => ¬ (l.move p a).Named (sc.setMap p es) b) d v := by
    refine fun d v hv => hv.mono (fun b hb hsize hn => ?_) fun b hb hsize => hold b hsize hb
    rcases hnamed b hn with rfl | ⟨-, hn⟩
    · exact absurd hsize (Nat.not_lt.mpr ha)
    · exact hb hn
  refine ⟨fun x y hx hy hxy => ?_, fun x hx => ?_, fun hin => ?_⟩
  · by_cases hxp : x = .map p <;> by_cases hyp : y = .map p
    · rw [hxp, hyp]
    · rw [present_setMap hyp] at hy
      rw [hxp, move_self, move_of_ne l a hyp] at hxy
      exact absurd (hlt y hy) (Nat.not_lt.mpr (hxy ▸ ha))
    · rw [present_setMap hxp] at hx
      rw [hyp, move_self, move_of_ne l a hxp] at hxy
      exact absurd (hlt x hx) (Nat.not_lt.mpr (hxy ▸ ha))
    · rw [present_setMap hxp] at hx
      rw [present_setMap hyp] at hy
      rw [move_of_ne l a hxp, move_of_ne l a hyp] at hxy
      exact h.apart x y hx hy hxy
  · by_cases hxp : x = .map p
    · subst hxp
      refine ⟨.map ws, by rw [move_self]; exact hcell, es, ws, by simp, rfl, ?_⟩
      refine row.imp fun _ _ h => ⟨h.1, h.2.mono (fun b hb _ hn => ?_) fun _ _ _ => rfl⟩
      rcases hnamed b hn with rfl | ⟨hsize, -⟩
      · exact hb.2 rfl
      · exact absurd hsize (Nat.not_lt.mpr hb.1)
    · rw [present_setMap hxp] at hx
      obtain ⟨c, hc, hcontent⟩ := h.content x hx
      obtain ⟨c', hc', hcontent'⟩ := hother _ c x hxp hx hc hcontent
      exact ⟨c', by rw [move_of_ne l a hxp]; exact hc', hcontent'.mono hcarry⟩
  · rw [Scene.setMap_of_ne sc es hp.symm] at hin
    exact h.before hin

/-- A new map as the merged values. -/
lemma adopt_merged (h : l.Holds s sc) {a : Address} {es : Entries MapKey Data}
    {ws : Entries MapKey Value} (hs : s.Extends s') (ha : s.cells.size ≤ a)
    (hcell : s'.get? a = some (.map ws))
    (row : RowOf (Shows s' fun b => s.cells.size ≤ b ∧ b ≠ a) es ws) :
    (l.move .merged a).Holds s' (sc.setMap .merged es) := by
  refine h.adopt (by simp) ha (fun b hb _ => hs.get?_eq b hb) hcell row ?_
  intro R c x hx _ hc hcontent
  exact ⟨c, (hs.get?_eq _ (Store.lt_of_get? hc)).trans hc,
    content_move hcontent hx (by simp) (by simp) (by simp) es a⟩

/-- A new map as the name overrides, put into the metadata. -/
lemma adopt_overrides (h : l.Holds s sc) {a : Address} {es : Entries MapKey Data}
    {ws : Entries MapKey Value} (hs : s.Extends s') (ha : s.cells.size ≤ a)
    (hcell : s'.get? a = some (.map ws))
    (row : RowOf (Shows s' fun b => s.cells.size ≤ b ∧ b ≠ a) es ws) :
    ∃ fields, s'.get? (l.cell .metadata) = some (.record .metadata fields) ∧
      (l.move .overrides a).Holds
        (s'.set (l.cell .metadata) (.record .metadata (fields.put .nameOverrides (.ref a))))
        (sc.setMap .overrides es) := by
  obtain ⟨_, hc, k, q, rfl, hk, hq⟩ := h.content .metadata trivial
  have hlt := Store.lt_of_get? hc
  refine ⟨_, (hs.get?_eq _ hlt).trans hc, ?_⟩
  have hne : l.cell .metadata ≠ a := fun heq => absurd hlt (Nat.not_lt.mpr (heq ▸ ha))
  refine h.adopt (by simp) ha (fun b hb hn => ?_) ((Store.get?_set_of_ne hne _).trans hcell)
    ?_ ?_
  · refine (Store.get?_set_of_ne ?_ _).trans (hs.get?_eq b hb)
    rintro rfl
    exact hn ⟨.metadata, trivial, rfl⟩
  · refine row.imp fun _ _ hd => ⟨hd.1, hd.2.mono (fun _ hb _ => hb) fun b hb _ => ?_⟩
    exact Store.get?_set_of_ne (Nat.ne_of_lt (hlt.trans_le hb.1)) _
  · intro R c x hx hpresent hcx hcontent
    by_cases hxm : x = .metadata
    · subst hxm
      obtain ⟨k', q', rfl, hk', hq'⟩ := hcontent
      -- the metadata are read once above and once here
      obtain ⟨rfl, rfl⟩ : k = k' ∧ q = q' := by
        have heq := hc.symm.trans hcx
        simp only [Option.some.injEq, Cell.record.injEq, List.cons.injEq, Prod.mk.injEq] at heq
        exact ⟨heq.2.1.2, heq.2.2.2.1.2⟩
      refine ⟨_, Store.get?_set_self ((hs.get?_eq _ hlt).trans hc), k, q, ?_, hk', hq'⟩
      rw [value_of_some (Scene.setMap_self sc .overrides es), move_self]
      rfl
    · have hxne : l.cell .metadata ≠ l.cell x :=
        fun heq => hxm (h.apart .metadata x trivial hpresent heq).symm
      refine ⟨c, ?_, content_move hcontent hx (by simp) (by simp) (by simp [hxm]) es a⟩
      rw [Store.get?_set_of_ne hxne, hs.get?_eq _ (Store.lt_of_get? hcx), hcx]

/-! ### Reading -/

/-- A part is shown in every region of its cell and of the cells that stand for no place. -/
lemma shows_part_in {free : Address → Prop} (h : l.Holds s sc)
    (hfree : ∀ a, ¬ l.Named sc a → free a) {p : Part}
    (hp : Present sc (.map p) → free (l.cell (.map p))) :
    Shows s free (sc.part p) (l.value sc p) := by
  cases hmap : sc.maps p with
  | none =>
    rw [value_of_none hmap, Scene.part, hmap]
    exact shows_scalar.mpr rfl
  | some es =>
    obtain ⟨ws, hc, row⟩ := h.content_map hmap
    rw [value_of_some hmap, Scene.part, hmap]
    exact shows_map.mpr ⟨_, ws, rfl, hp (by simp [Present, hmap]), hc, row.imp fun _ _ hrow =>
      ⟨hrow.1, hrow.2.mono (fun a ha _ => hfree a ha) fun _ _ _ => rfl⟩⟩

lemma shows_arguments_in {free : Address → Prop} (h : l.Holds s sc)
    (hfree : ∀ a, ¬ l.Named sc a → free a) (harguments : free (l.cell .arguments))
    (hinput : Present sc (.map .input) → free (l.cell (.map .input))) :
    Shows s free (.map sc.arguments) (.ref (l.cell .arguments)) := by
  obtain ⟨_, hc, us, ws, rfl, hus, hws⟩ := h.content .arguments trivial
  have hentry : RowOf (Shows s free) sc.inputEntry (l.inputEntry sc) := by
    have hpart := h.shows_part_in hfree hinput
    unfold Scene.part value at hpart
    unfold Scene.inputEntry inputEntry
    cases hm : sc.maps .input with
    | none => exact .nil
    | some es =>
      rw [hm] at hpart
      exact .cons ⟨rfl, hpart⟩ .nil
  have hrest : ∀ {es : Entries MapKey Data} {vs : Entries MapKey Value},
      RowOf (Shows s fun a => ¬ l.Named sc a) es vs → RowOf (Shows s free) es vs :=
    fun row => row.imp fun _ _ hrow =>
      ⟨hrow.1, hrow.2.mono (fun a ha _ => hfree a ha) fun _ _ _ => rfl⟩
  exact shows_map.mpr ⟨_, _, rfl, harguments, hc,
    List.rel_append (hrest hus) (List.rel_append hentry (hrest hws))⟩

lemma shows_part (h : l.Holds s sc) (p : Part) :
    Shows s (fun _ => True) (sc.part p) (l.value sc p) :=
  h.shows_part_in (fun _ _ => trivial) fun _ => trivial

lemma shows_arguments (h : l.Holds s sc) :
    Shows s (fun _ => True) (.map sc.arguments) (.ref (l.cell .arguments)) :=
  h.shows_arguments_in (fun _ _ => trivial) trivial fun _ => trivial

lemma shows_metadata (h : l.Holds s sc) :
    Shows s (fun _ => True) sc.metadata (.ref (l.cell .metadata)) := by
  obtain ⟨_, hc, k, q, rfl, hk, hq⟩ := h.content .metadata trivial
  refine shows_record.mpr ⟨_, _, rfl, trivial, hc, ?_⟩
  exact .cons ⟨rfl, hk.anywhere⟩ (.cons ⟨rfl, h.shows_part .overrides⟩
    (.cons ⟨rfl, hq.anywhere⟩ .nil))

lemma shows_stash (h : l.Holds s sc) :
    Shows s (fun _ => True) sc.stash (.ref (l.cell .stash)) := by
  obtain ⟨_, hc, rfl⟩ := h.content .stash trivial
  exact shows_record.mpr ⟨_, _, rfl, trivial, hc,
    .cons ⟨rfl, h.shows_metadata⟩ (.cons ⟨rfl, h.shows_part .defaults⟩ .nil)⟩

lemma shows_context (h : l.Holds s sc) :
    Shows s (fun _ => True) sc.data (.ref (l.cell .context)) := by
  obtain ⟨_, hc, r, e, rfl, hr, he⟩ := h.content .context trivial
  refine shows_record.mpr ⟨_, _, rfl, trivial, hc, ?_⟩
  exact .cons ⟨rfl, h.shows_arguments⟩ (.cons ⟨rfl, h.shows_stash⟩
    (.cons ⟨rfl, hr.anywhere⟩ (.cons ⟨rfl, he.anywhere⟩ .nil)))

/-- **The context is read as the request that the scene makes up.** -/
theorem read_eq (h : l.Holds s sc) : s.read (.ref (l.cell .context)) = sc.data :=
  h.shows_context.read_eq

end Holds

end Layout

end TableKeys.Template
