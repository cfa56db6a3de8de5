/-
# Texts of composite keys

The template of a composite key, evaluated on a map, is the components as they enter a text,
joined by the separator (`shownComposite`). A component that is null or missing stays a
reference. If every component is a scalar other than null, the template and the encoded key come
out alike (`encodeComposite_eq_shown`), whatever the components hold: both are the same text, or
neither is a text because a whole number has too many digits. Scalars that can be stored can be
written, so they have a text (`shownComposite_ok`).
-/
import TableKeys.Proofs.Paths
import TableKeys.Proofs.Results

namespace TableKeys

/-- What a map has under the name of a field; null if there is nothing. -/
def Entries.field (es : Entries MapKey Data) (name : String) : Data :=
  (es.get? (.text name)).getD .null

namespace Template

/-- How a field enters a text: null stays the reference to it. -/
def shownComponent (path : String) (es : Entries MapKey Data) (field : String) :
    Except Fault String :=
  if (es.field field).isNull then .ok (braced (path ++ "." ++ field))
  else (es.field field).interpolated

/-- What the template of a composite key becomes on a map. -/
def shownComposite (o : Options) (path : String) (es : Entries MapKey Data)
    (fields : List String) : Except Fault String :=
  o.keySeparator.intercalate <$> fields.mapM (shownComponent path es)

/-! ## Evaluation -/

section Evaluation

variable {m : Machine} {o : Options} {path : String} {v : Value}
  {es : Entries MapKey Data} {fields : List String}

lemma referenceText_eq {s : Store} {free : Address → Prop} {d : Data} (h : Shows s free d v)
    (raw : String) :
    referenceText s raw v = if d.isNull then .ok raw else d.interpolated := by
  rw [referenceText, Machine.Holds.isNull_of_shows h, h.read_eq]

lemma pieceText_composite (hbraced : isBracedPath path.toList = true)
    (hsep : '$' ∉ o.keySeparator.toList) (hne : fields ≠ [])
    (hfields : ∀ f ∈ fields, isSchemaName f = true)
    (hpath : resolve m.store m.bindings path = .ok v)
    (hv : Shows m.store (fun _ => True) (.map es) v) :
    pieceText m (pieces (compositeTemplate o path fields)) =
      String.toList <$> shownComposite o path es fields := by
  have hcomponents : componentReferences m path (m.store.member v) fields =
      fields.mapM (shownComponent path es) := by
    refine mapM_congr_of_mem fun f hf => ?_
    obtain ⟨w, hw, hshows⟩ := Machine.Holds.resolve_field hpath hv (hfields f hf)
    obtain rfl := Except.ok.inj ((resolve_child hpath (hfields f hf)).symm.trans hw)
    exact referenceText_eq hshows _
  rw [pieceText_compositeTemplate hbraced hsep hne hfields
    fun f hf => resolve_child hpath (hfields f hf), hcomponents, shownComposite]
  cases fields.mapM (shownComponent path es) <;> rfl

/-- The template of a composite key, evaluated where its path leads to a map. -/
lemma eval_composite (separator : String) (hbraced : isBracedPath path.toList = true)
    (hsep : '$' ∉ o.keySeparator.toList) (hne : fields ≠ [])
    (hfields : ∀ f ∈ fields, isSchemaName f = true)
    (hpath : resolve m.store m.bindings path = .ok v)
    (hv : Shows m.store (fun _ => True) (.map es) v) :
    match shownComposite o path es fields with
    | .ok t => ∃ log, (Expr.text (compositeTemplate o path fields)).eval separator m =
        .ok (.text t) { m with log := log }
    | .error f => (Expr.text (compositeTemplate o path fields)).eval separator m =
        .error (.fault f) m := by
  have htext := pieceText_composite hbraced hsep hne hfields hpath hv
  cases hs : shownComposite o path es fields with
  | ok t =>
    rw [hs] at htext
    obtain ⟨log, hlog⟩ := eval_text_ok separator htext
    exact ⟨log, by rw [hlog, String.ofList_toList]⟩
  | error f =>
    rw [hs] at htext
    exact eval_text_error htext

end Evaluation

/-! ## References that stay -/

lemma isInfix_intercalate {separator t : String} {ts : List String} (h : t ∈ ts) :
    t.toList <:+: (separator.intercalate ts).toList := by
  rw [String.toList_intercalate]
  induction ts with
  | nil => cases h
  | cons s ts ih =>
    cases ts with
    | nil =>
      obtain rfl := List.mem_singleton.mp h
      exact ⟨[], [], by simp⟩
    | cons u us =>
      rw [List.map_cons, List.map_cons, List.intercalate_cons_cons]
      rcases List.mem_cons.mp h with rfl | h
      · rw [List.append_assoc]
        exact (List.prefix_append _ _).isInfix
      · exact (ih h).trans (List.suffix_append _ _).isInfix

/-- A null component leaves its reference in the text. -/
lemma isInfix_of_null {o : Options} {path t f : String} {es : Entries MapKey Data}
    {fields : List String} (ht : shownComposite o path es fields = .ok t) (hf : f ∈ fields)
    (hnull : es.field f = .null) : (braced (path ++ "." ++ f)).toList <:+: t.toList := by
  unfold shownComposite at ht
  cases hts : fields.mapM (shownComponent path es) with
  | error e =>
    rw [hts] at ht
    cases ht
  | ok ts =>
    rw [hts] at ht
    obtain rfl := Except.ok.inj ht
    obtain ⟨s, hs, hshown⟩ := mapM_ok_mem hts f hf
    rw [shownComponent, hnull] at hshown
    obtain rfl := Except.ok.inj hshown
    exact isInfix_intercalate hs

/-! ## Encoded keys -/

/-- A scalar other than null enters a text as it enters an encoded key. -/
lemma componentText_scalar {a : Scalar} (h : a ≠ .null) :
    componentText (.scalar a) = (Data.scalar a).interpolated.mapError .unwritten := by
  cases a with
  | null => exact absurd rfl h
  | _ => rfl

/-- A row of scalars other than null enters a text as it enters an encoded key. -/
lemma componentTexts_scalars {ds : List Data} (h : ∀ d ∈ ds, ∃ a, d = .scalar a ∧ a ≠ .null) :
    componentTexts ds = (ds.mapM Data.interpolated).mapError .unwritten := by
  induction ds with
  | nil => rfl
  | cons d ds ih =>
    obtain ⟨a, rfl, hne⟩ := h d (by simp)
    rw [componentTexts, componentText_scalar hne, ih fun e he => h e (by simp [he]),
      List.mapM_cons]
    cases (Data.scalar a).interpolated with
    | error f => rfl
    | ok t => cases ds.mapM Data.interpolated <;> rfl

/-- The encoded key of scalars other than null is their texts, joined. -/
lemma encodeComposite_scalars (o : Options) {ds : List Data}
    (h : ∀ d ∈ ds, ∃ a, d = .scalar a ∧ a ≠ .null) :
    encodeComposite o ds =
      (o.keySeparator.intercalate <$> ds.mapM Data.interpolated).mapError .unwritten := by
  rw [encodeComposite, componentTexts_scalars h]
  cases ds.mapM Data.interpolated <;> rfl

/-- A scalar that can be written can enter a text. -/
lemma interpolated_scalar {a : Scalar} (h : a.isWritable = true) :
    ∃ t, (Data.scalar a).interpolated = .ok t := by
  cases a with
  | bool b => exact ⟨_, rfl⟩
  | _ => exact ⟨_, Data.written_of_isWritable h⟩

/-- Only a whole number with too many digits cannot enter a text. -/
lemma interpolated_scalar_error {a : Scalar} {f : Fault}
    (h : (Data.scalar a).interpolated = .error f) : f = .tooLong ∧ a.isWritable = false := by
  cases hwritable : a.isWritable with
  | true =>
    obtain ⟨t, ht⟩ := interpolated_scalar hwritable
    rw [h] at ht
    cases ht
  | false =>
    cases a with
    | int n =>
      rw [Data.interpolated, Data.written, if_neg (by simpa [Data.isWritable] using hwritable)] at h
      · exact ⟨(Except.error.inj h).symm, rfl⟩
      all_goals simp
    | _ => cases hwritable

/-- A component that is there enters the text as what it is. -/
lemma shownComponent_present {path f : String} {es : Entries MapKey Data}
    (h : (es.field f).isNull = false) :
    shownComponent path es f = (es.field f).interpolated := by
  rw [shownComponent, if_neg (by simp [h])]

lemma isNull_scalar {a : Scalar} (h : a ≠ .null) : (Data.scalar a).isNull = false := by
  cases a with
  | null => exact absurd rfl h
  | _ => rfl

/-- **With scalars other than null as components, the template gives the encoded key.** -/
theorem encodeComposite_eq_shown (o : Options) (path : String) {es : Entries MapKey Data}
    {fields : List String} (h : ∀ f ∈ fields, ∃ a, es.field f = .scalar a ∧ a ≠ .null) :
    encodeComposite o (fields.map es.field) =
      (shownComposite o path es fields).mapError .unwritten := by
  -- both join the texts of the components
  have hcomponents : fields.mapM (shownComponent path es) =
      (fields.map es.field).mapM Data.interpolated := by
    rw [List.mapM_map]
    refine mapM_congr_of_mem fun f hf => shownComponent_present ?_
    obtain ⟨a, ha, hne⟩ := h f hf
    rw [ha, isNull_scalar hne]
  rw [shownComposite, hcomponents]
  refine encodeComposite_scalars o fun d hd => ?_
  obtain ⟨f, hf, rfl⟩ := List.mem_map.mp hd
  exact h f hf

/-- Scalars other than null that can be written have a text, which is the encoded key. -/
lemma shownComposite_ok (o : Options) (path : String) {es : Entries MapKey Data}
    {fields : List String}
    (h : ∀ f ∈ fields, ∃ a, es.field f = .scalar a ∧ a ≠ .null ∧ a.isWritable = true) :
    ∃ t, shownComposite o path es fields = .ok t ∧
      encodeComposite o (fields.map es.field) = .ok t := by
  obtain ⟨ts, hts⟩ : ∃ ts, fields.mapM (shownComponent path es) = .ok ts := by
    refine exists_mapM_ok fun f hf => ?_
    obtain ⟨a, ha, hne, hwritable⟩ := h f hf
    rw [shownComponent_present (by rw [ha, isNull_scalar hne]), ha]
    exact interpolated_scalar hwritable
  have hshown : shownComposite o path es fields = .ok (o.keySeparator.intercalate ts) := by
    rw [shownComposite, hts]
    rfl
  refine ⟨_, hshown, ?_⟩
  rw [encodeComposite_eq_shown o path fun f hf => ?_, hshown]
  · rfl
  · obtain ⟨a, ha, hne, -⟩ := h f hf
    exact ⟨a, ha, hne⟩

/-- Encoded keys have no null component. -/
lemma ne_null_of_encodeComposite {o : Options} {ds : List Data} {t : String}
    (h : encodeComposite o ds = .ok t) : ∀ d ∈ ds, d ≠ .null := by
  obtain ⟨ts, hts, -⟩ := exists_of_bind_eq_ok h
  clear h
  induction ds generalizing ts with
  | nil => simp
  | cons d ds ih =>
    have hne : d ≠ .null := by
      rintro rfl
      cases hts
    obtain ⟨s, -, hts⟩ := exists_of_bind_eq_ok hts
    obtain ⟨ss, hds, -⟩ := exists_of_bind_eq_ok hts
    intro c hc
    rcases List.mem_cons.mp hc with rfl | hc
    · exact hne
    · exact ih ss hds c hc

end Template

end TableKeys
