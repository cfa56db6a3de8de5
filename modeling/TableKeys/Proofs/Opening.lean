/-
# The state before the first template

A request that is put into cells is held there as the scene that it makes up
(`Machine.start_holds`): each map and each record has a cell of its own.
-/
import TableKeys.Proofs.Scene
import TableKeys.Template.Mapping

namespace TableKeys

/-- The entries of a map. -/
def Data.entries? : Data → Option (Entries MapKey Data)
  | .map es => some es
  | _ => none

lemma Data.eq_map_of_entries? {d : Data} {es : Entries MapKey Data} (h : d.entries? = some es) :
    d = .map es := by
  cases d with
  | map es' => exact congrArg Data.map (Option.some.inj h)
  | _ => cases h

namespace Template

/-- The arguments before the input, the input if it is a map, and the arguments after it. -/
def splitInput : Entries MapKey Data →
    Entries MapKey Data × Option (Entries MapKey Data) × Entries MapKey Data
  | [] => ([], none, [])
  | (k, d) :: rest =>
    if k == .text "input" then
      match d.entries? with
      | some es => ([], some es, rest)
      | none => ([(k, d)], none, rest)
    else ((k, d) :: (splitInput rest).1, (splitInput rest).2)

lemma splitInput_append (es : Entries MapKey Data) :
    (splitInput es).1 ++ ((splitInput es).2.1.toList.map (fun m => (.text "input", .map m)) ++
      (splitInput es).2.2) = es := by
  induction es with
  | nil => rfl
  | cons e rest ih =>
    obtain ⟨k, d⟩ := e
    rw [splitInput]
    split
    · rename_i hk
      obtain rfl := MapKey.beq_text_iff.mp hk
      split
      · rename_i es hd
        rw [Data.eq_map_of_entries? hd]
        rfl
      · rfl
    · exact congrArg ((k, d) :: ·) ih

lemma splitInput_input (es : Entries MapKey Data) :
    (splitInput es).2.1 = (es.get? (.text "input")).bind Data.entries? := by
  induction es with
  | nil => rfl
  | cons e rest ih =>
    obtain ⟨k, d⟩ := e
    rw [splitInput, Entries.get?_cons]
    split
    · rw [Option.bind_some]
      split
      · rename_i hd
        exact hd.symm
      · rename_i hd
        exact hd.symm
    · exact ih

lemma splitInput_before (es : Entries MapKey Data) (h : (splitInput es).2.1.isSome) :
    (splitInput es).1.has (.text "input") = false := by
  induction es with
  | nil => rfl
  | cons e rest ih =>
    obtain ⟨k, d⟩ := e
    rw [splitInput] at h ⊢
    by_cases hk : (k == .text "input") = true
    · rw [if_pos hk] at h ⊢
      cases hd : d.entries? with
      | some es => rfl
      | none =>
        rw [hd] at h
        cases h
    · rw [if_neg hk] at h ⊢
      rw [Entries.has, Entries.get?_cons, if_neg hk]
      exact ih h

end Template

namespace Request

open Template

/-- The input of a request, if it is a map. -/
def input? (r : Request) : Option (Entries MapKey Data) :=
  (r.arguments.texts.get? (.text "input")).bind Data.entries?

/-- The input of a request laid over its default values. -/
def merged (r : Request) : Entries MapKey Data :=
  ((r.defaultValues.map Entries.texts).getD []).putAll (r.input?.getD [])

/-- The request taken apart. -/
def scene (r : Request) : Scene where
  before := (splitInput r.arguments.texts).1
  after := (splitInput r.arguments.texts).2.2
  maps
    | .input => r.input?
    | .defaults => r.defaultValues.map Entries.texts
    | .overrides => (r.metadata.nameOverrides.map (·.mapValues .text)).map Entries.texts
    | .merged => none
  key := .objectOrNull r.metadata.modelObjectKey
  query := .objectOrNull r.metadata.queryExpression
  result := r.result
  error := (r.error.map ErrorInfo.data).getD .null

lemma scene_input (r : Request) : r.scene.maps .input = r.input? := rfl

lemma scene_arguments (r : Request) : r.scene.arguments = r.arguments.texts := by
  rw [← splitInput_append r.arguments.texts, splitInput_input]
  rfl

lemma scene_before (r : Request) (h : (r.scene.maps .input).isSome) :
    r.scene.before.has (.text "input") = false :=
  splitInput_before r.arguments.texts (by rw [splitInput_input]; exact h)

theorem scene_data (r : Request) : r.scene.data = r.data := by
  have hpart : ∀ (o : Option (Entries String Data)),
      ((o.map Entries.texts).map Data.map).getD .null = Data.objectOrNull o := by
    intro o
    cases o <;> rfl
  rw [Scene.data, scene_arguments, data, Metadata.data]
  simp only [Scene.stash, Scene.metadata, Scene.part, scene, hpart]
  rfl

end Request

namespace Template

/-! ## Putting a scene into cells -/

/-- The cells that were added between two stores, without some of them. -/
def Between (s s' : Store) (named : List Nat) (a : Nat) : Prop :=
  s.cells.size ≤ a ∧ a < s'.cells.size ∧ a ∉ named

lemma alloc_spec {s s' : Store} {c : Cell} {v : Value} (h : s.alloc c = (v, s')) :
    v = .ref s.cells.size ∧ s'.cells.size = s.cells.size + 1 ∧
      s'.get? s.cells.size = some c ∧ s.Extends s' := by
  obtain ⟨rfl, rfl⟩ := Prod.mk.inj h
  exact ⟨rfl, by simp, Store.get?_alloc_new s c, .alloc s c⟩

lemma load_spec (s : Store) (d : Data) :
    ∃ v s', s.load d = (v, s') ∧ s.Extends s' ∧ Shows s' s.New d v :=
  ⟨_, _, rfl, s.load_shows d⟩

lemma loadEntries_spec (s : Store) (es : Entries MapKey Data) :
    ∃ vs s', s.loadEntries es = (vs, s') ∧ s.Extends s' ∧ RowOf (Shows s' s.New) es vs :=
  ⟨_, _, rfl, s.loadEntries_shows es⟩

/-- Data that was put into cells of a longer stretch is shown there, if the cells that are left
out were added at other times. -/
lemma shows_between {s₀ s s₁ s₂ : Store} {d : Data} {v : Value} {named : List Nat}
    (h : Shows s₁ s.New d v) (h₀ : s₀.Extends s) (h₁ : s₁.Extends s₂)
    (hnamed : ∀ a ∈ named, a < s.cells.size ∨ s₁.cells.size ≤ a) :
    Shows s₂ (Between s₀ s₂ named) d v := by
  refine h.extend h₁ fun a ha hlt => ⟨h₀.size_le.trans ha, hlt.trans_le h₁.size_le, fun hmem => ?_⟩
  rcases hnamed a hmem with hlt' | hle
  · exact absurd ha (Nat.not_le.mpr hlt')
  · exact absurd hlt (Nat.not_lt.mpr hle)

lemma shows_between_self {s s' : Store} {d : Data} {v : Value} (h : Shows s' s.New d v) :
    Shows s' (Between s s' []) d v :=
  shows_between h (.refl s) (.refl s') (by simp)

lemma rowOf_between {κ : Type} {s₀ s s₁ s₂ : Store} {es : List (κ × Data)}
    {ws : List (κ × Value)} {named : List Nat} (h : RowOf (Shows s₁ s.New) es ws)
    (h₀ : s₀.Extends s) (h₁ : s₁.Extends s₂)
    (hnamed : ∀ a ∈ named, a < s.cells.size ∨ s₁.cells.size ≤ a) :
    RowOf (Shows s₂ (Between s₀ s₂ named)) es ws :=
  h.imp fun _ _ h => ⟨h.1, shows_between h.2 h₀ h₁ hnamed⟩

/-- A map that may be missing is put into cells of which the last one is its own; if it is
missing, any number may stand for that cell. -/
lemma load_part (s : Store) (o : Option (Entries MapKey Data)) :
    ∃ v s', s.load ((o.map Data.map).getD .null) = (v, s') ∧ s.Extends s' ∧
      ∀ b : Nat, ∃ a : Nat, v = (if o.isSome then .ref a else .null) ∧
        (a = b ∨ s.cells.size ≤ a ∧ s'.cells.size = a + 1) ∧
        ∀ es, o = some es → s'.cells.size = a + 1 ∧ ∃ ws, s'.get? a = some (.map ws) ∧
          RowOf (Shows s' fun c : Nat => s.cells.size ≤ c ∧ c < a) es ws := by
  cases o with
  | none => exact ⟨.null, s, rfl, .refl s, fun b => ⟨b, rfl, .inl rfl, by simp⟩⟩
  | some es =>
    obtain ⟨ws, s₁, hl, hs, row⟩ := loadEntries_spec s es
    obtain ⟨v, s', hs'⟩ : ∃ v s', s₁.alloc (.map ws) = (v, s') := ⟨_, _, rfl⟩
    obtain ⟨rfl, hsize, hcell, hext⟩ := alloc_spec hs'
    refine ⟨_, s', ?_, hs.trans hext, fun b => ⟨s₁.cells.size, rfl, .inr ⟨hs.size_le, hsize⟩, ?_⟩⟩
    · rw [Option.map_some, Option.getD_some, Store.load_map, hl, hs']
      rfl
    · intro es' hes
      obtain rfl := Option.some.inj hes
      refine ⟨hsize, ws, hcell, row.imp fun _ _ h => ?_⟩
      exact ⟨h.1, h.2.extend hext fun _ hc hlt => ⟨hc, hlt⟩⟩

lemma loadEntries_cons (s : Store) (e : MapKey × Data) (es : Entries MapKey Data) :
    s.loadEntries (e :: es) =
      ((e.1, (s.load e.2).1) :: ((s.load e.2).2.loadEntries es).1,
        ((s.load e.2).2.loadEntries es).2) :=
  rfl

lemma loadFields_cons (s : Store) (f : Field × Data) (fs : List (Field × Data)) :
    s.loadFields (f :: fs) =
      ((f.1, (s.load f.2).1) :: ((s.load f.2).2.loadFields fs).1,
        ((s.load f.2).2.loadFields fs).2) :=
  rfl

lemma loadEntries_append (s : Store) (es fs : Entries MapKey Data) :
    s.loadEntries (es ++ fs) =
      ((s.loadEntries es).1 ++ ((s.loadEntries es).2.loadEntries fs).1,
        ((s.loadEntries es).2.loadEntries fs).2) := by
  induction es generalizing s with
  | nil => rfl
  | cons e es ih =>
    rw [List.cons_append, loadEntries_cons, ih, loadEntries_cons]
    rfl

lemma loadEntries_input (s : Store) (o : Option (Entries MapKey Data)) :
    s.loadEntries (o.toList.map fun es => (.text "input", .map es)) =
      (if o.isSome then [(.text "input", (s.load ((o.map Data.map).getD .null)).1)] else [],
        (s.load ((o.map Data.map).getD .null)).2) := by
  cases o <;> rfl

/-- The arguments are put into cells of which the last one is their own. -/
lemma load_arguments (sc : Scene) (s : Store) :
    ∃ (i a : Nat) (s' : Store), s.load (.map sc.arguments) = (.ref a, s') ∧ s.Extends s' ∧
      s.cells.size ≤ i ∧ i ≤ a ∧ s'.cells.size = a + 1 ∧
      (∃ us ws, s'.get? a = some (.map (us ++ ((if (sc.maps .input).isSome then
          [(.text "input", .ref i)] else []) ++ ws))) ∧
        RowOf (Shows s' (Between s s' [i, a])) sc.before us ∧
        RowOf (Shows s' (Between s s' [i, a])) sc.after ws) ∧
      ∀ es, sc.maps .input = some es → i < a ∧ ∃ ws, s'.get? i = some (.map ws) ∧
        RowOf (Shows s' (Between s s' [i, a])) es ws := by
  obtain ⟨us, s₁, hl₁, hs₁, row₁⟩ := loadEntries_spec s sc.before
  obtain ⟨v, s₂, hl₂, hs₂, hpart⟩ := load_part s₁ (sc.maps .input)
  obtain ⟨ws, s₃, hl₃, hs₃, row₃⟩ := loadEntries_spec s₂ sc.after
  have hload : s.load (.map sc.arguments) = s₃.alloc (.map (us ++
      ((if (sc.maps .input).isSome then [(.text "input", v)] else []) ++ ws))) := by
    rw [Store.load_map, Scene.arguments, Scene.inputEntry, loadEntries_append, loadEntries_append,
      hl₁, loadEntries_input, hl₂, hl₃]
  obtain ⟨v', s', hs'⟩ : ∃ v' s', s₃.alloc (.map (us ++ ((if (sc.maps .input).isSome then
    [(.text "input", v)] else []) ++ ws))) = (v', s') := ⟨_, _, rfl⟩
  obtain ⟨rfl, hsize, hcell, hext⟩ := alloc_spec hs'
  obtain ⟨i, rfl, hi, hinput⟩ := hpart s₃.cells.size
  have hle₁ := hs₁.size_le
  have hle₂ := hs₂.size_le
  have hle₃ := hs₃.size_le
  have hbefore : RowOf (Shows s' (Between s s' [i, s₃.cells.size])) sc.before us := by
    refine rowOf_between row₁ (.refl s) (hs₂.trans (hs₃.trans hext)) ?_
    simp
    omega
  have hafter : RowOf (Shows s' (Between s s' [i, s₃.cells.size])) sc.after ws := by
    refine rowOf_between row₃ (hs₁.trans hs₂) hext ?_
    simp
    omega
  refine ⟨i, s₃.cells.size, s', hload.trans hs', hs₁.trans (hs₂.trans (hs₃.trans hext)),
    by omega, by omega, hsize, ⟨us, ws, ?_, hbefore, hafter⟩, fun es hes => ?_⟩
  · rw [hcell]
    split <;> rfl
  · obtain ⟨hsize₂, ws, hcell₂, row₂⟩ := hinput es hes
    have hlt : i < s₂.cells.size := by omega
    refine ⟨by omega, ws, ((hs₃.trans hext).get?_eq i hlt).trans hcell₂, ?_⟩
    refine row₂.imp fun _ _ h => ⟨h.1, h.2.extend (hs₃.trans hext) fun (b : Nat) hb _ => ?_⟩
    have hb₁ : s₁.cells.size ≤ b := hb.1
    have hb₂ : b < i := hb.2
    refine ⟨by omega, by omega, ?_⟩
    simp only [List.mem_cons, List.not_mem_nil, or_false]
    omega

/-- The metadata are put into cells of which the last one is their own. -/
lemma load_metadata (sc : Scene) (s : Store) :
    ∃ (o a : Nat) (s' : Store), s.load sc.metadata = (.ref a, s') ∧ s.Extends s' ∧
      s.cells.size ≤ o ∧ o ≤ a ∧ s'.cells.size = a + 1 ∧
      (∃ k q, s'.get? a = some (.record .metadata [(.modelObjectKey, k),
          (.nameOverrides, if (sc.maps .overrides).isSome then .ref o else .null),
          (.queryExpression, q)]) ∧
        Shows s' (Between s s' [o, a]) sc.key k ∧ Shows s' (Between s s' [o, a]) sc.query q) ∧
      ∀ es, sc.maps .overrides = some es → o < a ∧ ∃ ws, s'.get? o = some (.map ws) ∧
        RowOf (Shows s' (Between s s' [o, a])) es ws := by
  obtain ⟨k, s₁, hl₁, hs₁, hkey⟩ := load_spec s sc.key
  obtain ⟨v, s₂, hl₂, hs₂, hpart⟩ := load_part s₁ (sc.maps .overrides)
  obtain ⟨q, s₃, hl₃, hs₃, hquery⟩ := load_spec s₂ sc.query
  obtain ⟨v', s', hs'⟩ : ∃ v' s', s₃.alloc (.record .metadata
    [(.modelObjectKey, k), (.nameOverrides, v), (.queryExpression, q)]) = (v', s') := ⟨_, _, rfl⟩
  have hload : s.load sc.metadata = (v', s') := by
    rw [Scene.metadata, Store.load_record, loadFields_cons, hl₁, loadFields_cons, Scene.part, hl₂,
      loadFields_cons, hl₃]
    exact hs'
  obtain ⟨rfl, hsize, hcell, hext⟩ := alloc_spec hs'
  obtain ⟨o, rfl, ho, hoverrides⟩ := hpart s₃.cells.size
  have hle₁ := hs₁.size_le
  have hle₂ := hs₂.size_le
  have hle₃ := hs₃.size_le
  refine ⟨o, s₃.cells.size, s', hload, hs₁.trans (hs₂.trans (hs₃.trans hext)), by omega, by omega,
    hsize, ⟨k, q, hcell, ?_, ?_⟩, fun es hes => ?_⟩
  · refine shows_between hkey (.refl s) (hs₂.trans (hs₃.trans hext)) ?_
    simp
    omega
  · refine shows_between hquery (hs₁.trans hs₂) hext ?_
    simp
    omega
  · obtain ⟨hsize₂, ws, hcell₂, row₂⟩ := hoverrides es hes
    have hlt : o < s₂.cells.size := by omega
    refine ⟨by omega, ws, ((hs₃.trans hext).get?_eq o hlt).trans hcell₂, ?_⟩
    refine row₂.imp fun _ _ h => ⟨h.1, h.2.extend (hs₃.trans hext) fun (b : Nat) hb _ => ?_⟩
    have hb₁ : s₁.cells.size ≤ b := hb.1
    have hb₂ : b < o := hb.2
    refine ⟨by omega, by omega, ?_⟩
    simp only [List.mem_cons, List.not_mem_nil, or_false]
    omega

lemma between_of_extends {s₀ s s₁ s₂ : Store} {named named' : List Nat} {a : Nat}
    (h : Between s s₁ named a) (h₀ : s₀.Extends s) (h₁ : s₁.Extends s₂)
    (hnamed : ∀ b ∈ named', b ∈ named ∨ b < s.cells.size ∨ s₁.cells.size ≤ b) :
    Between s₀ s₂ named' a := by
  obtain ⟨hle, hlt, hmem⟩ := h
  refine ⟨h₀.size_le.trans hle, hlt.trans_le h₁.size_le, fun hmem' => ?_⟩
  rcases hnamed a hmem' with h | h | h
  · exact hmem h
  · omega
  · omega

/-- What is shown in one stretch of cells is shown in a longer one, if the cells that are left
out besides were added at other times. -/
lemma shows_of_extends {s₀ s s₁ s₂ : Store} {named named' : List Nat} {d : Data} {v : Value}
    (h : Shows s₁ (Between s s₁ named) d v) (h₀ : s₀.Extends s) (h₁ : s₁.Extends s₂)
    (hnamed : ∀ b ∈ named', b ∈ named ∨ b < s.cells.size ∨ s₁.cells.size ≤ b) :
    Shows s₂ (Between s₀ s₂ named') d v :=
  h.extend h₁ fun _ hb _ => between_of_extends hb h₀ h₁ hnamed

/-- The stash is put into cells of which the last one is its own. -/
lemma load_stash (sc : Scene) (s : Store) :
    ∃ (o m d a : Nat) (s' : Store), s.load sc.stash = (.ref a, s') ∧ s.Extends s' ∧
      s.cells.size ≤ o ∧ o ≤ m ∧ m < d ∧ d ≤ a ∧ s'.cells.size = a + 1 ∧
      s'.get? a = some (.record .stash [(.metadata, .ref m),
        (.defaultValues, if (sc.maps .defaults).isSome then .ref d else .null)]) ∧
      (∃ k q, s'.get? m = some (.record .metadata [(.modelObjectKey, k),
          (.nameOverrides, if (sc.maps .overrides).isSome then .ref o else .null),
          (.queryExpression, q)]) ∧
        Shows s' (Between s s' [o, m, d, a]) sc.key k ∧
        Shows s' (Between s s' [o, m, d, a]) sc.query q) ∧
      (∀ es, sc.maps .overrides = some es → o < m ∧ ∃ ws, s'.get? o = some (.map ws) ∧
        RowOf (Shows s' (Between s s' [o, m, d, a])) es ws) ∧
      ∀ es, sc.maps .defaults = some es → d < a ∧ ∃ ws, s'.get? d = some (.map ws) ∧
        RowOf (Shows s' (Between s s' [o, m, d, a])) es ws := by
  obtain ⟨o, m, s₁, hl₁, hs₁, ho, hom, size₁, ⟨k, q, cellMetadata, showKey, showQuery⟩,
    hoverrides⟩ := load_metadata sc s
  obtain ⟨v, s₂, hl₂, hs₂, hpart⟩ := load_part s₁ (sc.maps .defaults)
  obtain ⟨v', s', hs'⟩ : ∃ v' s', s₂.alloc (.record .stash
    [(.metadata, .ref m), (.defaultValues, v)]) = (v', s') := ⟨_, _, rfl⟩
  have hload : s.load sc.stash = (v', s') := by
    rw [Scene.stash, Store.load_record, loadFields_cons, hl₁, loadFields_cons, Scene.part, hl₂]
    exact hs'
  obtain ⟨rfl, hsize, hcell, hext⟩ := alloc_spec hs'
  obtain ⟨d, rfl, hd, hdefaults⟩ := hpart s₂.cells.size
  have hle₂ := hs₂.size_le
  have hext₁ : s₁.Extends s' := hs₂.trans hext
  have hnamed : ∀ b ∈ [o, m, d, s₂.cells.size],
      b ∈ [o, m] ∨ b < s.cells.size ∨ s₁.cells.size ≤ b := by
    simp
    omega
  refine ⟨o, m, d, s₂.cells.size, s', hload, hs₁.trans hext₁, ho, hom, by omega, by omega, hsize,
    hcell, ⟨k, q, (hext₁.get?_eq m (by omega)).trans cellMetadata,
      shows_of_extends showKey (.refl s) hext₁ hnamed,
      shows_of_extends showQuery (.refl s) hext₁ hnamed⟩, fun es hes => ?_, fun es hes => ?_⟩
  · obtain ⟨hlt, ws, hcell₁, row⟩ := hoverrides es hes
    exact ⟨hlt, ws, (hext₁.get?_eq o (by omega)).trans hcell₁,
      row.imp fun _ _ h => ⟨h.1, shows_of_extends h.2 (.refl s) hext₁ hnamed⟩⟩
  · obtain ⟨hsize₂, ws, hcell₂, row⟩ := hdefaults es hes
    refine ⟨by omega, ws, (hext.get?_eq d (by omega)).trans hcell₂, ?_⟩
    refine row.imp fun _ _ h => ⟨h.1, h.2.extend hext fun (b : Nat) hb _ => ?_⟩
    have hb₁ : s₁.cells.size ≤ b := hb.1
    have hb₂ : b < d := hb.2
    refine ⟨by omega, by omega, ?_⟩
    simp only [List.mem_cons, List.not_mem_nil, or_false]
    omega

/-- The layout with these cells; there are no merged values yet. -/
def Layout.ofCells (context arguments stash metadata input overrides defaults : Nat) : Layout where
  cell
    | .context => context
    | .arguments => arguments
    | .stash => stash
    | .metadata => metadata
    | .map .input => input
    | .map .overrides => overrides
    | .map .defaults => defaults
    | .map .merged => 0

/-- Cells in the order in which data is put into them differ. -/
lemma Layout.ofCells_apart {sc : Scene} {c a s m i o d : Nat} (hmerged : sc.maps .merged = none)
    (hinput : (sc.maps .input).isSome → i < a) (hoverrides : (sc.maps .overrides).isSome → o < m)
    (hdefaults : (sc.maps .defaults).isSome → d < s) (hia : i ≤ a) (hao : a < o) (hom : o ≤ m)
    (hmd : m < d) (hds : d ≤ s) (hsc : s < c) {x y : Spot} (hx : Present sc x)
    (hy : Present sc y) (hxy : (ofCells c a s m i o d).cell x = (ofCells c a s m i o d).cell y) :
    x = y := by
  have hcases : ∀ z, Present sc z → ∃ n : Nat, (ofCells c a s m i o d).cell z = n ∧
      ((n = c ∧ z = .context) ∨ (n = a ∧ z = .arguments) ∨ (n = s ∧ z = .stash) ∨
        (n = m ∧ z = .metadata) ∨ (n = i ∧ n < a ∧ z = .map .input) ∨
        (n = o ∧ n < m ∧ z = .map .overrides) ∨ (n = d ∧ n < s ∧ z = .map .defaults)) := by
    intro z hz
    refine ⟨_, rfl, ?_⟩
    match z with
    | .context | .arguments | .stash | .metadata => simp [ofCells]
    | .map .input => simp [ofCells, hinput hz]
    | .map .overrides => simp [ofCells, hoverrides hz]
    | .map .defaults => simp [ofCells, hdefaults hz]
    | .map .merged => simp [Present, hmerged] at hz
  obtain ⟨n, hxn, hx'⟩ := hcases x hx
  obtain ⟨n', hyn, hy'⟩ := hcases y hy
  obtain rfl : n = n' := hxn.symm.trans (hxy.trans hyn)
  clear hxn hyn hcases hx hy hxy hmerged hinput hoverrides hdefaults
  rcases hx' with ⟨h, rfl⟩ | ⟨h, rfl⟩ | ⟨h, rfl⟩ | ⟨h, rfl⟩ | ⟨h, h', rfl⟩ | ⟨h, h', rfl⟩ |
      ⟨h, h', rfl⟩ <;>
    rcases hy' with ⟨k, rfl⟩ | ⟨k, rfl⟩ | ⟨k, rfl⟩ | ⟨k, rfl⟩ | ⟨k, k', rfl⟩ | ⟨k, k', rfl⟩ |
      ⟨k, k', rfl⟩ <;>
    first | rfl | (exfalso; omega)

/-- The scene has places in these cells only. -/
lemma Layout.mem_of_named_ofCells {sc : Scene} {c a s m i o d b : Nat}
    (hmerged : sc.maps .merged = none) (h : (ofCells c a s m i o d).Named sc b) :
    b ∈ [i, a, o, m, d, s, c] := by
  obtain ⟨x, hx, rfl⟩ := h
  match x with
  | .map .merged => simp [Present, hmerged] at hx
  | .map .input | .map .overrides | .map .defaults => simp [ofCells]
  | .context | .arguments | .stash | .metadata => simp [ofCells]

/-- What is shown in a stretch of cells that has none of a scene is shown outside of the scene. -/
lemma Layout.shows_outside {sc : Scene} {c a st m i o d : Nat} (hmerged : sc.maps .merged = none)
    {s s' s₁ : Store} {named : List Nat} {D : Data} {V : Value}
    (h : Shows s' (Between s s' named) D V) (hext : s'.Extends s₁)
    (hcells : ∀ b ∈ [i, a, o, m, d, st, c], b ∈ named ∨ b < s.cells.size ∨ s'.cells.size ≤ b) :
    Shows s₁ (fun b => ¬ (ofCells c a st m i o d).Named sc b) D V :=
  (shows_of_extends h (.refl s) hext hcells).mono
    (fun _ hb _ hn => hb.2.2 (mem_of_named_ofCells hmerged hn)) fun _ _ _ => rfl

/-- **A scene that is put into cells is held there.** -/
theorem load_holds (sc : Scene) (hmerged : sc.maps .merged = none)
    (hbefore : (sc.maps .input).isSome → sc.before.has (.text "input") = false) (s : Store) :
    ∃ l : Layout, (s.load sc.data).1 = .ref (l.cell .context) ∧
      l.Holds (s.load sc.data).2 sc := by
  obtain ⟨i, a, s₁, hl₁, hs₁, hi, hia, size₁, ⟨us, ws, cellArguments, rowBefore, rowAfter⟩,
    hinput⟩ := load_arguments sc s
  obtain ⟨o, m, d, st, s₂, hl₂, hs₂, ho, hom, hmd, hds, size₂, cellStash,
    ⟨k, q, cellMetadata, showKey, showQuery⟩, hoverrides, hdefaults⟩ := load_stash sc s₁
  obtain ⟨r, s₃, hl₃, hs₃, showResult⟩ := load_spec s₂ sc.result
  obtain ⟨e, s₄, hl₄, hs₄, showError⟩ := load_spec s₃ sc.error
  obtain ⟨v, s₅, hl₅⟩ : ∃ v s', s₄.alloc (.record .request [(.arguments, .ref a),
    (.stash, .ref st), (.result, r), (.error, e)]) = (v, s') := ⟨_, _, rfl⟩
  obtain ⟨rfl, size₅, cellContext, hs₅⟩ := alloc_spec hl₅
  -- the steps above are what loading the scene comes to
  have hload : s.load sc.data = (.ref s₄.cells.size, s₅) := by
    rw [Scene.data, Store.load_record, loadFields_cons, hl₁, loadFields_cons, hl₂,
      loadFields_cons, hl₃, loadFields_cons, hl₄]
    exact hl₅
  rw [hload]
  -- the stores grow from step to step, so the cells of one step are not those of another
  have le₃ := hs₃.size_le
  have le₄ := hs₄.size_le
  have ext₂ : s₂.Extends s₅ := hs₃.trans (hs₄.trans hs₅)
  have ext₁ : s₁.Extends s₅ := hs₂.trans ext₂
  let l : Layout := .ofCells s₄.cells.size a st m i o d
  -- what was put in between is shown outside of the cells of the scene
  have hcarry : ∀ {s₀ s' : Store} {named : List Nat} {D : Data} {V : Value},
      Shows s' (Between s₀ s' named) D V → s'.Extends s₅ →
      (∀ b ∈ [i, a, o, m, d, st, s₄.cells.size],
        b ∈ named ∨ b < s₀.cells.size ∨ s'.cells.size ≤ b) →
      Shows s₅ (fun b => ¬ l.Named sc b) D V := Layout.shows_outside hmerged
  have hsecond : ∀ b ∈ [i, a, o, m, d, st, s₄.cells.size],
      b ∈ [o, m, d, st] ∨ b < s₁.cells.size ∨ s₂.cells.size ≤ b := by
    simp
    omega
  have hlt : ∀ {p : Part} {x y : Nat} {P : Entries MapKey Data → Prop},
      (∀ es, sc.maps p = some es → x < y ∧ P es) → (sc.maps p).isSome → x < y :=
    fun h hsome => (h _ (Option.some_get hsome).symm).1
  have hapart : ∀ x y, Layout.Present sc x → Layout.Present sc y → l.cell x = l.cell y → x = y :=
    fun x y => Layout.ofCells_apart hmerged (hlt hinput) (hlt hoverrides) (hlt hdefaults) hia
      (by omega) hom hmd hds (by omega)
  refine ⟨l, rfl, hapart, fun x hx => ?_, hbefore⟩
  match x with
  | .context =>
    refine ⟨_, cellContext, r, e, rfl, ?_, ?_⟩
    · refine hcarry (shows_between_self showResult) (hs₄.trans hs₅) ?_
      simp
      omega
    · refine hcarry (shows_between_self showError) hs₅ ?_
      simp
      omega
  | .arguments =>
    refine ⟨_, (ext₁.get?_eq a (by omega)).trans cellArguments, us, ws, rfl,
      rowBefore.imp fun _ _ h => ⟨h.1, hcarry h.2 ext₁ ?_⟩,
      rowAfter.imp fun _ _ h => ⟨h.1, hcarry h.2 ext₁ ?_⟩⟩ <;> simp <;> omega
  | .stash => exact ⟨_, (ext₂.get?_eq st (by omega)).trans cellStash, rfl⟩
  | .metadata =>
    exact ⟨_, (ext₂.get?_eq m (by omega)).trans cellMetadata, k, q, rfl,
      hcarry showKey ext₂ hsecond, hcarry showQuery ext₂ hsecond⟩
  | .map .input =>
    obtain ⟨es, hes⟩ := Option.isSome_iff_exists.mp hx
    obtain ⟨-, ws, hcell, row⟩ := hinput es hes
    refine ⟨_, (ext₁.get?_eq i (by omega)).trans hcell, es, ws, hes, rfl,
      row.imp fun _ _ h => ⟨h.1, hcarry h.2 ext₁ ?_⟩⟩
    simp
    omega
  | .map .overrides =>
    obtain ⟨es, hes⟩ := Option.isSome_iff_exists.mp hx
    obtain ⟨-, ws, hcell, row⟩ := hoverrides es hes
    exact ⟨_, (ext₂.get?_eq o (by omega)).trans hcell, es, ws, hes, rfl,
      row.imp fun _ _ h => ⟨h.1, hcarry h.2 ext₂ hsecond⟩⟩
  | .map .defaults =>
    obtain ⟨es, hes⟩ := Option.isSome_iff_exists.mp hx
    obtain ⟨-, ws, hcell, row⟩ := hdefaults es hes
    exact ⟨_, (ext₂.get?_eq d (by omega)).trans hcell, es, ws, hes, rfl,
      row.imp fun _ _ h => ⟨h.1, hcarry h.2 ext₂ hsecond⟩⟩
  | .map .merged => simp [Layout.Present, hmerged] at hx

end Template

end TableKeys
