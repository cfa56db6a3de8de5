/-
# Data from outside

Data of a request consists of scalars that can be stored, lists, and maps with keys that JSON
has. Such data has a stored form (`Data.Accepted.stored`) and can enter a text
(`Data.Accepted.interpolated`), and so can whatever is found in it.
-/
import TableKeys.Proofs.Injected
import TableKeys.Proofs.Results

namespace TableKeys

/-- Scalars that can be stored, in lists and in maps with keys that JSON has. -/
inductive Data.Accepted : Data → Prop
  | scalar {a : Scalar} (h : ∃ v, (Data.scalar a).stored = .ok v) : Accepted (.scalar a)
  | list {ds : List Data} (h : ∀ d ∈ ds, Accepted d) : Accepted (.list ds)
  | map {es : Entries MapKey Data} (hkeys : ∀ e ∈ es, ∃ t, Data.jsonKey e.1 = .ok t)
      (h : ∀ e ∈ es, Accepted e.2) : Accepted (.map es)

namespace Data

/-! ## Stored forms -/

lemma withDecimalsItems_eq (ds : List Data) : withDecimalsItems ds = ds.map withDecimals := by
  induction ds with
  | nil => rfl
  | cons d ds ih => rw [withDecimalsItems, ih, List.map_cons]

lemma withDecimalsEntries_eq (es : Entries MapKey Data) :
    withDecimalsEntries es = es.mapValues withDecimals := by
  induction es with
  | nil => rfl
  | cons e es ih =>
    rw [withDecimalsEntries, ih]
    rfl

lemma wrappedItems_ok {ds : List Data} (h : ∀ d ∈ ds, ∃ a, d.stored = .ok a) :
    ∃ as, wrappedItems (withDecimalsItems ds) = .ok as := by
  induction ds with
  | nil => exact ⟨[], rfl⟩
  | cons d ds ih =>
    obtain ⟨a, ha⟩ := h d (by simp)
    obtain ⟨as, has⟩ := ih fun e he => h e (by simp [he])
    rw [stored] at ha
    exact ⟨a :: as, by rw [withDecimalsItems, wrappedItems, ha, has]; rfl⟩

lemma wrappedEntries_ok {es : Entries MapKey Data} (h : ∀ e ∈ es, ∃ a, e.2.stored = .ok a) :
    ∃ as, wrappedEntries (withDecimalsEntries es) = .ok as := by
  induction es with
  | nil => exact ⟨[], rfl⟩
  | cons e es ih =>
    obtain ⟨k, d⟩ := e
    obtain ⟨a, ha⟩ := h (k, d) (by simp)
    obtain ⟨as, has⟩ := ih fun e he => h e (by simp [he])
    rw [stored] at ha
    exact ⟨(k, a) :: as, by rw [withDecimalsEntries, wrappedEntries, ha, has]; rfl⟩

/-! ## Texts -/

lemma jsonItems_ok {ds : List Data} (h : ∀ d ∈ ds, ∃ t, d.json = .ok t) :
    ∃ ts, jsonItems ds = .ok ts := by
  induction ds with
  | nil => exact ⟨[], rfl⟩
  | cons d ds ih =>
    obtain ⟨t, ht⟩ := h d (by simp)
    obtain ⟨ts, hts⟩ := ih fun e he => h e (by simp [he])
    exact ⟨t :: ts, by rw [jsonItems, ht, hts]; rfl⟩

lemma jsonEntries_ok {es : Entries MapKey Data} (hkeys : ∀ e ∈ es, ∃ t, jsonKey e.1 = .ok t)
    (h : ∀ e ∈ es, ∃ t, e.2.json = .ok t) : ∃ ts, jsonEntries es = .ok ts := by
  induction es with
  | nil => exact ⟨[], rfl⟩
  | cons e es ih =>
    obtain ⟨k, d⟩ := e
    obtain ⟨s, hs⟩ := hkeys (k, d) (by simp)
    obtain ⟨t, ht⟩ := h (k, d) (by simp)
    obtain ⟨ts, hts⟩ := ih (fun e he => hkeys e (by simp [he])) fun e he => h e (by simp [he])
    exact ⟨(s ++ ": " ++ t) :: ts, by rw [jsonEntries, hs, ht, hts]; rfl⟩

namespace Accepted

variable {d : Data}

lemma null : Accepted .null :=
  .scalar ⟨.null, rfl⟩

lemma of_text (t : String) : Accepted (.text t) :=
  .scalar ⟨.text t, rfl⟩

lemma texts {es : Entries String Data} (h : ∀ e ∈ es, e.2.Accepted) :
    ∀ e ∈ es.texts, e.2.Accepted := by
  intro e he
  obtain ⟨p, hp, rfl⟩ := List.mem_map.mp he
  exact h p hp

lemma object {es : Entries String Data} (h : ∀ e ∈ es, e.2.Accepted) :
    (Data.object es).Accepted := by
  refine .map (fun e he => ?_) (texts h)
  obtain ⟨p, -, rfl⟩ := List.mem_map.mp he
  exact ⟨_, rfl⟩

/-- **Accepted data has a stored form.** -/
theorem stored (h : d.Accepted) : ∃ a, d.stored = .ok a := by
  induction h with
  | scalar h => exact h
  | list _ ih =>
    obtain ⟨as, has⟩ := wrappedItems_ok ih
    exact ⟨.list as, by rw [Data.stored, withDecimals, wrapped, has]; rfl⟩
  | map _ _ ih =>
    obtain ⟨as, has⟩ := wrappedEntries_ok ih
    exact ⟨.map as, by rw [Data.stored, withDecimals, wrapped, has]; rfl⟩

lemma json (h : d.Accepted) : ∃ t, d.json = .ok t := by
  induction h with
  | @scalar a h =>
    obtain ⟨v, hv⟩ := h
    exact jsonScalar_ok (isWritable_of_stored hv)
  | list _ ih =>
    obtain ⟨ts, hts⟩ := jsonItems_ok ih
    exact ⟨_, by rw [Data.json, hts]; rfl⟩
  | map hkeys _ ih =>
    obtain ⟨ts, hts⟩ := jsonEntries_ok hkeys ih
    exact ⟨_, by rw [Data.json, hts]; rfl⟩

/-- **Accepted data can enter a text.** -/
theorem interpolated (h : d.Accepted) : ∃ t, d.interpolated = .ok t := by
  have hjson := h.json
  cases h with
  | scalar h =>
    obtain ⟨v, hv⟩ := h
    exact Template.interpolated_scalar (isWritable_of_stored hv)
  | list _ => exact hjson
  | map _ _ => exact hjson

/-! ## What is found in accepted data -/

lemma of_get? {es : Entries MapKey Data} (h : ∀ e ∈ es, e.2.Accepted) (k : MapKey) :
    ((es.get? k).getD .null).Accepted := by
  induction es with
  | nil => exact null
  | cons e es ih =>
    obtain ⟨k', d⟩ := e
    rw [Entries.get?_cons]
    split
    · exact h (k', d) (by simp)
    · exact ih fun e he => h e (by simp [he])

lemma field {es : Entries MapKey Data} (h : ∀ e ∈ es, e.2.Accepted) (name : String) :
    (es.field name).Accepted :=
  of_get? h (.text name)

lemma member (h : d.Accepted) (name : String) : (d.member name).Accepted := by
  cases h with
  | scalar _ => exact null
  | list _ => exact null
  | map _ h => exact field h name

lemma item (h : d.Accepted) (i : Nat) : (d.item i).Accepted := by
  cases h with
  | scalar _ => exact null
  | map _ _ => exact null
  | @list ds h =>
    rw [Data.item, List.getD_eq_getElem?_getD]
    cases hi : ds[i]? with
    | none => exact null
    | some d => exact h d (List.mem_of_getElem? hi)

/-- Decimal numbers in the place of binary ones change nothing. -/
lemma withDecimals (h : d.Accepted) : d.withDecimals.Accepted := by
  induction h with
  | @scalar a h =>
    cases a with
    | float x => exact .scalar h
    | _ => exact .scalar h
  | @list ds _ ih =>
    rw [Data.withDecimals, withDecimalsItems_eq]
    exact .list (List.forall_mem_map.mpr ih)
  | @map es hkeys _ ih =>
    rw [Data.withDecimals, withDecimalsEntries_eq]
    exact .map (List.forall_mem_map.mpr hkeys) (List.forall_mem_map.mpr ih)

end Accepted

end Data

end TableKeys
