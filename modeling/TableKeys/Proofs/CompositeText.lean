/-
# The template of a composite key and the encoded key

The value of a composite key is had in two ways: the template of the key is evaluated where its
path leads to a map, or the components are encoded. If no component is null, both come out alike
(`eval_compositeTemplate`): they are the same text, or a whole number among the components has too
many digits and neither is a text. A null or missing component stays in the text of the template
as the reference to it, while there is no encoded key. What a component holds enters the text as
it is, even where it looks like a reference.
-/
import TableKeys.Proofs.Composite
import TableKeys.Snippet.Write

namespace TableKeys.Template

open Snippet

section

variable {m : Machine} {o : Options} {path : String} {v : Value} {fields : List String}

/-- The data that a value has under the names of fields. -/
def componentsOf (m : Machine) (v : Value) (fields : List String) : List Data :=
  fields.map fun f => m.store.read (m.store.member v f)

/-- What stands for a component in the text of a template: the reference to it if it is null,
otherwise the value as it enters a text. -/
def EntersAs (m : Machine) (path : String) (v : Value) (field t : String) : Prop :=
  if (m.store.member v field).isNull then t = braced (path ++ "." ++ field)
  else (m.store.read (m.store.member v field)).interpolated = .ok t

lemma entersAs_of_referenceText {field t : String}
    (h : referenceText m.store (braced (path ++ "." ++ field)) (m.store.member v field) = .ok t) :
    EntersAs m path v field t := by
  unfold referenceText at h
  unfold EntersAs
  split at h
  · next hnull => rw [if_pos hnull, Except.ok.inj h]
  · next hnull => rwa [if_neg hnull]

/-- Only what has no text keeps a component from standing in the text of a template. -/
lemma interpolated_of_referenceText {field : String} {fault : Fault}
    (h : referenceText m.store (braced (path ++ "." ++ field)) (m.store.member v field) =
      .error fault) :
    (m.store.read (m.store.member v field)).interpolated = .error fault := by
  unfold referenceText at h
  split at h
  · cases h
  · exact h

/-- The template becomes the texts of the components, joined, if all of them have one. -/
lemma eval_componentReferences (separator : String) (hpath : isBracedPath path.toList = true)
    (hsep : '$' ∉ o.keySeparator.toList) (hne : fields ≠ [])
    (hfields : ∀ f ∈ fields, isSchemaName f = true)
    (hv : resolve m.store m.bindings path = .ok v) :
    match componentReferences m path (m.store.member v) fields with
    | .ok texts => ∃ log, (Expr.text (compositeTemplate o path fields)).eval separator m =
        .ok (.text (o.keySeparator.intercalate texts)) { m with log := log }
    | .error fault => (Expr.text (compositeTemplate o path fields)).eval separator m =
        .error (.fault fault) m := by
  have hpieces := pieceText_compositeTemplate hpath hsep hne hfields
    fun f hf => resolve_child hv (hfields f hf)
  cases htexts : componentReferences m path (m.store.member v) fields with
  | ok texts =>
    rw [htexts] at hpieces
    obtain ⟨log, hlog⟩ := eval_text_ok separator hpieces
    exact ⟨log, by rw [hlog, String.ofList_toList]⟩
  | error fault =>
    rw [htexts] at hpieces
    exact eval_text_error hpieces

/-- Scalars other than null stand in the text of a template as they enter any text. -/
lemma componentReferences_scalars
    (hscalar : ∀ f ∈ fields, ∃ a, m.store.member v f = .scalar a ∧ a ≠ .null) :
    componentReferences m path (m.store.member v) fields =
      (componentsOf m v fields).mapM Data.interpolated := by
  rw [componentReferences, componentsOf, List.mapM_map]
  refine mapM_congr_of_mem fun f hf => ?_
  obtain ⟨a, ha, hne⟩ := hscalar f hf
  have hnull : (m.store.member v f).isNull = false := by
    rw [ha]
    cases a with
    | null => exact absurd rfl hne
    | _ => rfl
  rw [referenceText, hnull, if_neg Bool.false_ne_true]
  rfl

end

/-! ## Components without an encoded key -/

lemma componentText_error {d : Data} {e : CompositeError} (h : componentText d = .error e) :
    d = .null ∧ e = .missingComponent ∨ d.isWritable = false ∧ e = .unwritten .tooLong := by
  unfold componentText at h
  split at h
  · exact .inl ⟨rfl, (Except.error.inj h).symm⟩
  · cases h
  · unfold Data.written at h
    split at h
    · cases h
    · next hwritable => exact .inr ⟨by simpa using hwritable, (Except.error.inj h).symm⟩

/-- Components have no encoded key because one is null or one cannot be written. -/
lemma componentTexts_error {ds : List Data} {e : CompositeError}
    (h : componentTexts ds = .error e) :
    .null ∈ ds ∧ e = .missingComponent ∨
      (∃ d ∈ ds, d.isWritable = false) ∧ e = .unwritten .tooLong := by
  induction ds with
  | nil => cases h
  | cons d ds ih =>
    rcases error_of_bind_eq_error h with hd | ⟨s, -, hrest⟩
    · rcases componentText_error hd with ⟨rfl, he⟩ | ⟨hwritable, he⟩
      · exact .inl ⟨by simp, he⟩
      · exact .inr ⟨⟨d, by simp, hwritable⟩, he⟩
    · rcases error_of_bind_eq_error hrest with hds | ⟨ss, -, hpure⟩
      · rcases ih hds with ⟨hmem, he⟩ | ⟨⟨c, hc, hwritable⟩, he⟩
        · exact .inl ⟨by simp [hmem], he⟩
        · exact .inr ⟨⟨c, by simp [hc], hwritable⟩, he⟩
      · cases hpure

lemma encodeComposite_error {o : Options} {ds : List Data} {e : CompositeError}
    (h : encodeComposite o ds = .error e) :
    .null ∈ ds ∧ e = .missingComponent ∨
      (∃ d ∈ ds, d.isWritable = false) ∧ e = .unwritten .tooLong := by
  rcases error_of_bind_eq_error h with hds | ⟨ts, -, hpure⟩
  · exact componentTexts_error hds
  · cases hpure

/-- With a null component there is no encoded key. -/
lemma encodeComposite_of_null {o : Options} {ds : List Data} (h : Data.null ∈ ds) :
    encodeComposite o ds = .error .missingComponent ∨
      encodeComposite o ds = .error (.unwritten .tooLong) ∧ ∃ d ∈ ds, d.isWritable = false := by
  cases hencode : encodeComposite o ds with
  | ok t => exact absurd rfl (ne_null_of_encodeComposite hencode _ h)
  | error e =>
    rcases encodeComposite_error hencode with ⟨-, rfl⟩ | ⟨hlong, rfl⟩
    · exact .inl rfl
    · exact .inr ⟨rfl, hlong⟩

/-! ## Both ways to the value -/

section

variable {m : Machine} {o : Options} {path : String} {v : Value} {fields : List String}

/-- For scalars other than null, the template and the encoded key join the same texts. -/
lemma eval_compositeTemplate_scalars (separator : String)
    (hpath : isBracedPath path.toList = true) (hsep : '$' ∉ o.keySeparator.toList)
    (hne : fields ≠ []) (hfields : ∀ f ∈ fields, isSchemaName f = true)
    (hv : resolve m.store m.bindings path = .ok v)
    (hscalar : ∀ f ∈ fields, ∃ a, m.store.member v f = .scalar a ∧ a ≠ .null) :
    (∃ t log, (Expr.text (compositeTemplate o path fields)).eval separator m =
        .ok (.text t) { m with log := log } ∧
      encodeComposite o (componentsOf m v fields) = .ok t) ∨
    ((Expr.text (compositeTemplate o path fields)).eval separator m =
        .error (.fault .tooLong) m ∧
      encodeComposite o (componentsOf m v fields) = .error (.unwritten .tooLong) ∧
      ∃ d ∈ componentsOf m v fields, d.isWritable = false) := by
  have heval := eval_componentReferences separator hpath hsep hne hfields hv
  have hscalars : ∀ d ∈ componentsOf m v fields, ∃ a, d = .scalar a ∧ a ≠ .null := by
    intro d hd
    obtain ⟨f, hf, rfl⟩ := List.mem_map.mp hd
    obtain ⟨a, ha, hne⟩ := hscalar f hf
    exact ⟨a, by rw [ha]; rfl, hne⟩
  rw [componentReferences_scalars hscalar] at heval
  rw [encodeComposite_scalars o hscalars]
  cases htexts : (componentsOf m v fields).mapM Data.interpolated with
  | ok texts =>
    rw [htexts] at heval
    obtain ⟨log, hlog⟩ := heval
    exact .inl ⟨_, log, hlog, rfl⟩
  | error fault =>
    rw [htexts] at heval
    obtain ⟨d, hd, hfault⟩ := exists_of_mapM_error htexts
    obtain ⟨a, rfl, -⟩ := hscalars d hd
    obtain ⟨rfl, hlong⟩ := interpolated_scalar_error hfault
    exact .inr ⟨heval, rfl, _, hd, hlong⟩

/-- The template joins what stands for the components, unless one of them has no text. -/
lemma eval_compositeTemplate_any (separator : String)
    (hpath : isBracedPath path.toList = true) (hsep : '$' ∉ o.keySeparator.toList)
    (hne : fields ≠ []) (hfields : ∀ f ∈ fields, isSchemaName f = true)
    (hv : resolve m.store m.bindings path = .ok v) :
    (∃ texts log, (Expr.text (compositeTemplate o path fields)).eval separator m =
        .ok (.text (o.keySeparator.intercalate texts)) { m with log := log } ∧
      List.Forall₂ (EntersAs m path v) fields texts) ∨
    ∃ f ∈ fields, ∃ fault, (m.store.read (m.store.member v f)).interpolated = .error fault ∧
      (Expr.text (compositeTemplate o path fields)).eval separator m = .error (.fault fault) m := by
  have heval := eval_componentReferences separator hpath hsep hne hfields hv
  cases htexts : componentReferences m path (m.store.member v) fields with
  | ok texts =>
    rw [htexts] at heval
    obtain ⟨log, hlog⟩ := heval
    exact .inl ⟨texts, log, hlog,
      (forall₂_of_mapM_ok htexts).imp fun _ _ => entersAs_of_referenceText⟩
  | error fault =>
    rw [htexts] at heval
    obtain ⟨f, hf, hfault⟩ := exists_of_mapM_error htexts
    exact .inr ⟨f, hf, fault, interpolated_of_referenceText hfault, heval⟩

end

/-- **The template of a composite key comes out as the encoded key does, if the components are
scalars other than null**: both are one text, or a component is a whole number with too many
digits and both fail for it. Whatever the components are, the text joins the reference to each
that is null or missing and the others as they enter any text; only a component that has no text
keeps the template from becoming one. With a null component there is no encoded key. -/
theorem eval_compositeTemplate {m : Machine} {o : Options} {path : String} {v : Value}
    {fields : List String} (separator : String)
    (hpath : path = mergedValues ∨ path = "ctx.args") (hsep : '$' ∉ o.keySeparator.toList)
    (hlength : 2 ≤ fields.length) (hfields : ∀ f ∈ fields, isSchemaName f = true)
    (hv : resolve m.store m.bindings path = .ok v) :
    ((∀ f ∈ fields, ∃ a, m.store.member v f = .scalar a ∧ a ≠ .null) →
      (∃ t log, (Expr.text (compositeTemplate o path fields)).eval separator m =
          .ok (.text t) { m with log := log } ∧
        encodeComposite o (componentsOf m v fields) = .ok t) ∨
      ((Expr.text (compositeTemplate o path fields)).eval separator m =
          .error (.fault .tooLong) m ∧
        encodeComposite o (componentsOf m v fields) = .error (.unwritten .tooLong) ∧
        ∃ d ∈ componentsOf m v fields, d.isWritable = false)) ∧
    ((∃ texts log, (Expr.text (compositeTemplate o path fields)).eval separator m =
          .ok (.text (o.keySeparator.intercalate texts)) { m with log := log } ∧
        List.Forall₂ (EntersAs m path v) fields texts) ∨
      ∃ f ∈ fields, ∃ fault, (m.store.read (m.store.member v f)).interpolated = .error fault ∧
        (Expr.text (compositeTemplate o path fields)).eval separator m =
          .error (.fault fault) m) ∧
    ((∃ f ∈ fields, m.store.member v f = .null) →
      encodeComposite o (componentsOf m v fields) = .error .missingComponent ∨
        encodeComposite o (componentsOf m v fields) = .error (.unwritten .tooLong) ∧
          ∃ d ∈ componentsOf m v fields, d.isWritable = false) := by
  have hbraced : isBracedPath path.toList = true := by
    rcases hpath with rfl | rfl <;> decide
  have hne : fields ≠ [] := by
    rintro rfl
    cases hlength
  refine ⟨fun hscalar => ?_, ?_, fun ⟨f, hf, hnull⟩ => ?_⟩
  · exact eval_compositeTemplate_scalars separator hbraced hsep hne hfields hv hscalar
  · exact eval_compositeTemplate_any separator hbraced hsep hne hfields hv
  · exact encodeComposite_of_null (List.mem_map.mpr ⟨f, hf, by rw [hnull]; rfl⟩)

/-- A template runs where a value of a map is written like a reference to the other. -/
def quotingMachine : Machine where
  store := ⟨#[.map [(.text "year", .scalar (.int 2024)),
    (.text "month", .text (braced "mergedValues.year"))]]⟩
  context := .null
  bindings := [(mergedValues, .ref 0)]

/-- What is written like a reference is in the text as it is, and a missing component stays as the
reference to it. -/
theorem eval_compositeTemplate_quoting :
    (∃ log, (Expr.text (compositeTemplate {} mergedValues ["year", "month"])).eval "#"
        quotingMachine =
      .ok (.text ("2024#" ++ braced "mergedValues.year")) { quotingMachine with log := log }) ∧
    (∃ log, (Expr.text (compositeTemplate {} mergedValues ["year", "day"])).eval "#"
        quotingMachine =
      .ok (.text ("2024#" ++ braced "mergedValues.day")) { quotingMachine with log := log }) ∧
    encodeComposite {} (componentsOf quotingMachine (.ref 0) ["year", "day"]) =
      .error .missingComponent := by
  have hv : resolve quotingMachine.store quotingMachine.bindings mergedValues = .ok (.ref 0) :=
    resolve_variable _ _ (by decide)
  have hmembers : ∀ f ∈ ["year", "month"],
      ∃ a, quotingMachine.store.member (.ref 0) f = .scalar a ∧ a ≠ .null := by
    rintro f hf
    rcases List.mem_pair.mp hf with rfl | rfl
    · exact ⟨.int 2024, rfl, by decide⟩
    · exact ⟨.text (braced "mergedValues.year"), rfl, by decide⟩
  have hpresent := (eval_compositeTemplate (o := {}) "#" (Or.inl rfl) (by decide) (by decide)
    (by decide) hv).1 hmembers
  have hfields : ∀ f ∈ ["year", "day"], isSchemaName f = true := by decide
  obtain ⟨-, hmissing, hencode⟩ := eval_compositeTemplate (o := {}) "#" (Or.inl rfl) (by decide)
    (by decide) hfields hv
  refine ⟨?_, ?_, ?_⟩
  · rcases hpresent with ⟨t, log, heval, hencoded⟩ | ⟨-, hencoded, -⟩
    · obtain rfl := Except.ok.inj hencoded
      exact ⟨log, heval⟩
    · cases hencoded
  · rcases hmissing with ⟨texts, log, heval, hall⟩ | ⟨f, hf, fault, hfault, -⟩
    · obtain ⟨year, rest, hyear, hrest, rfl⟩ := List.forall₂_cons_left_iff.mp hall
      obtain ⟨day, rest, hday, hnil, rfl⟩ := List.forall₂_cons_left_iff.mp hrest
      obtain rfl := List.forall₂_nil_left_iff.mp hnil
      obtain rfl : "2024" = year := Except.ok.inj hyear
      obtain rfl : day = braced "mergedValues.day" := hday
      exact ⟨log, heval⟩
    · rcases List.mem_pair.mp hf with rfl | rfl <;> cases hfault
  · rcases hencode ⟨"day", by decide, rfl⟩ with hnone | ⟨hlong, -⟩
    · exact hnone
    · cases hlong

end TableKeys.Template
