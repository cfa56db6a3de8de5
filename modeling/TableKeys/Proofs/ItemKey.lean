/-
# The key of an item

The templates that read, create, update and delete an item leave its key in the metadata. The
key is made from the fields of a map (`itemKey`): the arguments when reading, the merged
values when writing.
-/
import TableKeys.Proofs.Writes
import TableKeys.Transform

namespace TableKeys

open Template Snippet

/-- The sort attribute of an item whose fields are found in a map, in stored form; nothing for a
key without sort fields. -/
def storedSort (k : KeyDecl) (o : Options) (path : String) (es : Entries MapKey Data) :
    Except Fault (Entries String AttributeValue) :=
  match k.sortFields with
  | [] => .ok []
  | [field] => do
    let a ← (es.field field).stored
    return [(field, a)]
  | fields => do
    let t ← shownComposite o path es fields
    return [(compositeName o fields, .text t)]

/-- The key of an item whose fields are found in a map, in stored form. -/
def itemKey (k : KeyDecl) (o : Options) (path : String) (es : Entries MapKey Data) :
    Except Fault (Entries String AttributeValue) := do
  let a ← (es.field k.partition.name).stored
  let sort ← storedSort k o path es
  return Entries.putAll [(k.partition.name, a)] sort

/-- The synthetic attribute of a composite key does not have the name of the partition field. -/
def KeyDecl.Apart (k : KeyDecl) (o : Options) : Prop :=
  k.isComposite = true → compositeName o k.sortFields ≠ k.partition.name

lemma storedSort_cases {k : KeyDecl} {o : Options} {path : String} {es : Entries MapKey Data}
    {sort : Entries String AttributeValue} (h : storedSort k o path es = .ok sort) :
    sort = [] ∨ ∃ name a, sort = [(name, a)] := by
  unfold storedSort at h
  split at h
  · exact .inl (Except.ok.inj h).symm
  · rename_i field _
    obtain ⟨a, -, h⟩ := exists_of_bind_eq_ok h
    exact .inr ⟨field, a, (Except.ok.inj h).symm⟩
  · obtain ⟨t, -, h⟩ := exists_of_bind_eq_ok h
    exact .inr ⟨_, _, (Except.ok.inj h).symm⟩

/-- The parts of a key are found if the key is. -/
lemma itemKey_eq_ok {k : KeyDecl} {o : Options} {path : String} {es : Entries MapKey Data}
    {key : Entries String AttributeValue} (h : itemKey k o path es = .ok key) :
    ∃ a sort, (es.field k.partition.name).stored = .ok a ∧ storedSort k o path es = .ok sort ∧
      key = Entries.putAll [(k.partition.name, a)] sort := by
  obtain ⟨a, hstored, h⟩ := exists_of_bind_eq_ok h
  obtain ⟨sort, hsort, h⟩ := exists_of_bind_eq_ok h
  exact ⟨a, sort, hstored, hsort, (Except.ok.inj h).symm⟩

/-- The attributes of a key have different names. -/
lemma ofList_itemKey {k : KeyDecl} {o : Options} {path : String} {es : Entries MapKey Data}
    {key : Entries String AttributeValue} (h : itemKey k o path es = .ok key) :
    Entries.ofList (key.mapValues AttributeValue.data).texts =
      (key.mapValues AttributeValue.data).texts := by
  obtain ⟨a, sort, -, hsort, rfl⟩ := itemKey_eq_ok h
  rcases storedSort_cases hsort with rfl | ⟨name, b, rfl⟩
  · rfl
  · rw [Entries.putAll_cons, Entries.putAll_nil, Entries.put_cons]
    split
    · rfl
    · rename_i hne
      have hne' : ¬ (MapKey.text k.partition.name == MapKey.text name) = true := by
        rw [MapKey.beq_text_iff]
        simpa using hne
      simp [Entries.put, Entries.mapValues, Entries.texts, Entries.ofList, Entries.putAll, hne']

namespace Template

section Evaluation

variable {separator : String} {m : Machine} {k : KeyDecl} {o : Options} {path : String}
  {es : Entries MapKey Data}

/-- From here on the path leads to a map with these entries. -/
def LeadsTo (m : Machine) (path : String) (es : Entries MapKey Data) : Prop :=
  ∀ m', m.Extends m' → ∃ v, resolve m'.store m'.bindings path = .ok v ∧
    Shows m'.store (fun _ => True) (.map es) v

lemma yields_field {field : String} {a : AttributeValue} (hpath : LeadsTo m path es)
    (hfield : isSchemaName field = true) (hstored : (es.field field).stored = .ok a) :
    Yields separator m (.toAttribute (.ref (path ++ "." ++ field))) a.data := by
  intro m₁ hm₁
  obtain ⟨v, hv, hshows⟩ := hpath m₁ hm₁
  obtain ⟨w, hw, hshown⟩ := Machine.Holds.resolve_field hv hshows hfield
  obtain ⟨u, s, heval, hs, hdata⟩ := eval_toAttribute (eval_ref hw)
    (by rw [hshown.read_eq]; exact hstored)
  exact ⟨u, _, heval, .of_store hs, hdata⟩

lemma yields_composite {fields : List String} {t : String}
    (hbraced : isBracedPath path.toList = true) (hsep : '$' ∉ o.keySeparator.toList)
    (hne : fields ≠ []) (hfields : ∀ f ∈ fields, isSchemaName f = true)
    (hpath : LeadsTo m path es) (ht : shownComposite o path es fields = .ok t) :
    Yields separator m (.toAttribute (.text (compositeTemplate o path fields)))
      (AttributeValue.text t).data := by
  intro m₁ hm₁
  obtain ⟨v, hv, hshows⟩ := hpath m₁ hm₁
  have heval := eval_composite (o := o) separator hbraced hsep hne hfields hv hshows
  rw [ht] at heval
  obtain ⟨log, hlog⟩ := heval
  have hstored : ((({ m₁ with log := log } : Machine).store.read (.text t))).stored =
      .ok (.text t) := rfl
  obtain ⟨u, s, heval, hs, hdata⟩ := eval_toAttribute hlog hstored
  exact ⟨u, _, heval, ⟨hs, rfl, rfl, rfl⟩, hdata⟩

lemma rowOf_storedSort {sort : Entries String AttributeValue} (hk : k.Legible o)
    (hbraced : isBracedPath path.toList = true) (hpath : LeadsTo m path es)
    (hsort : storedSort k o path es = .ok sort) :
    RowOf (Yields separator m) (sortEntry k path o) (sort.mapValues AttributeValue.data) := by
  have hnames := hk.sortFields
  unfold storedSort at hsort
  unfold sortEntry
  match hfields : k.sortFields with
  | [] =>
    rw [hfields] at hsort
    obtain rfl := Except.ok.inj hsort
    exact .nil
  | [field] =>
    rw [hfields] at hsort hnames
    obtain ⟨a, hstored, hsort⟩ := exists_of_bind_eq_ok hsort
    obtain rfl := Except.ok.inj hsort
    exact .cons ⟨rfl, yields_field hpath (hnames field (by simp)) hstored⟩ .nil
  | f :: g :: fields =>
    rw [hfields] at hsort hnames
    obtain ⟨t, ht, hsort⟩ := exists_of_bind_eq_ok hsort
    obtain rfl := Except.ok.inj hsort
    exact .cons ⟨rfl, yields_composite hbraced hk.keySeparator (by simp) hnames hpath ht⟩ .nil

/-- The entries of the key expression yield the key. -/
lemma rowOf_itemKey (separator : String) {key : Entries String AttributeValue} (hk : k.Legible o)
    (hbraced : isBracedPath path.toList = true) (hpath : LeadsTo m path es)
    (hkey : itemKey k o path es = .ok key) :
    RowOf (Yields separator m) (Entries.putAll
      [(k.partition.name, .toAttribute (.ref (path ++ "." ++ k.partition.name)))]
      (sortEntry k path o)) (key.mapValues AttributeValue.data) := by
  obtain ⟨a, sort, hstored, hsort, rfl⟩ := itemKey_eq_ok hkey
  rw [Entries.mapValues_putAll]
  exact rowOf_putAll (.cons ⟨rfl, yields_field hpath hk.partition hstored⟩ .nil)
    (rowOf_storedSort hk hbraced hpath hsort)

lemma isBracedPath_keyPath (mutation : Bool) : isBracedPath (keyPath mutation).toList = true := by
  cases mutation <;> decide

/-- **The key of an item is left in the metadata.** -/
theorem exec_setPrimaryKey {l : Layout} {sc : Scene} {key : Entries String AttributeValue}
    {mutation : Bool} (h : m.Holds l sc) (hk : k.Legible o)
    (hpath : LeadsTo m (keyPath mutation) es) (hkey : itemKey k o (keyPath mutation) es = .ok key) :
    ((setPrimaryKey k mutation o).exec separator).Reaches m fun m' =>
      m'.Holds l (sc.keyed (.object (key.mapValues AttributeValue.data))) ∧
        m'.bindings = m.bindings := by
  have hrow := rowOf_itemKey separator hk (isBracedPath_keyPath mutation) hpath hkey
  obtain ⟨a, ws, m', heval, hm, ha, hcell, row⟩ := eval_object hrow
  rw [ofList_itemKey hkey] at row
  have h' := h.extend hm
  have hshows : Shows m'.store (fun b => ¬ l.Named sc b)
      (.object (key.mapValues AttributeValue.data)) (.ref a) := by
    refine shows_map.mpr ⟨a, ws, rfl, h.store.not_named ha, hcell, row.imp fun _ _ hd => ⟨hd.1, ?_⟩⟩
    exact hd.2.mono (fun b hb _ => h.store.not_named hb.1) fun _ _ _ => rfl
  obtain ⟨fields, hfields, hstore⟩ := h'.store.setKey hshows
  have hput := exec_metadataPut h (show RecordKind.metadata.field? modelObjectKeyName =
    some .modelObjectKey by decide) heval hfields
  have hexec : (setPrimaryKey k mutation o).exec separator m = .ok () { m' with
      store := m'.store.set (l.cell .metadata)
        (.record .metadata (fields.put .modelObjectKey (.ref a))) } := by
    rw [setPrimaryKey, Stmt.exec, execAll_singleton]
    exact hput
  exact ⟨_, hexec, ⟨hstore, h'.context, h'.bound, h'.output⟩, hm.bindings⟩

/-! ## Where the fields are found -/

lemma leadsTo_arguments {l : Layout} {sc : Scene} (h : m.Holds l sc) :
    LeadsTo m (keyPath false) sc.arguments :=
  fun _ hm => ⟨_, (h.extend hm).resolve_arguments, (h.extend hm).store.shows_arguments⟩

lemma leadsTo_merged {sc : Scene} (h : m.Merged sc) (hes : sc.maps sc.target = some es) :
    LeadsTo m (keyPath true) es :=
  fun _ hm => (h.extend hm).resolve_merged hes

lemma exec_setPrimaryKey_merged {sc : Scene} {key : Entries String AttributeValue}
    (h : m.Merged sc) (hk : k.Legible o) (hes : sc.maps sc.target = some es)
    (hkey : itemKey k o mergedValues es = .ok key) :
    ((setPrimaryKey k true o).exec separator).Reaches m fun m' =>
      m'.Merged (sc.keyed (.object (key.mapValues AttributeValue.data))) := by
  have hpath := leadsTo_merged h hes
  obtain ⟨l, hl, hmerged⟩ := h
  refine (exec_setPrimaryKey hl hk hpath hkey).mono fun m' hm' => ?_
  obtain ⟨hholds, hbindings⟩ := hm'
  exact ⟨l, hholds, by rw [hbindings]; exact hmerged⟩

/-! ## Keys that cannot be made -/

lemma fails_field {field : String} {f : Fault} (hpath : LeadsTo m path es)
    (hfield : isSchemaName field = true) (hstored : (es.field field).stored = .error f) :
    Fails separator m (.toAttribute (.ref (path ++ "." ++ field))) f := by
  intro m₁ hm₁
  obtain ⟨v, hv, hshows⟩ := hpath m₁ hm₁
  obtain ⟨w, hw, hshown⟩ := Machine.Holds.resolve_field hv hshows hfield
  exact ⟨m₁, eval_toAttribute_fails (eval_ref hw) (by rw [hshown.read_eq]; exact hstored)⟩

lemma fails_composite {fields : List String} {f : Fault}
    (hbraced : isBracedPath path.toList = true) (hsep : '$' ∉ o.keySeparator.toList)
    (hne : fields ≠ []) (hfields : ∀ f ∈ fields, isSchemaName f = true)
    (hpath : LeadsTo m path es) (ht : shownComposite o path es fields = .error f) :
    Fails separator m (.toAttribute (.text (compositeTemplate o path fields))) f := by
  intro m₁ hm₁
  obtain ⟨v, hv, hshows⟩ := hpath m₁ hm₁
  have heval := eval_composite (o := o) separator hbraced hsep hne hfields hv hshows
  rw [ht] at heval
  exact ⟨m₁, by rw [Expr.eval, Run.bind_error heval]⟩

/-- The sort attribute cannot be made if it has no stored form. -/
lemma sortEntry_fails {f : Fault} (hk : k.Legible o) (hbraced : isBracedPath path.toList = true)
    (hpath : LeadsTo m path es) (hsort : storedSort k o path es = .error f) :
    ∃ name e, sortEntry k path o = [(name, e)] ∧ Fails separator m e f := by
  have hnames := hk.sortFields
  unfold storedSort at hsort
  unfold sortEntry
  rcases hfields : k.sortFields with _ | ⟨field, _ | ⟨g, fields⟩⟩
  · rw [hfields] at hsort
    cases hsort
  · rw [hfields] at hsort hnames
    refine ⟨_, _, rfl, fails_field hpath (hnames field (by simp)) ?_⟩
    cases hstored : (es.field field).stored with
    | error f' =>
      simp only [hstored] at hsort
      exact congrArg Except.error (Except.error.inj hsort)
    | ok a =>
      simp only [hstored] at hsort
      cases hsort
  · rw [hfields] at hsort hnames
    refine ⟨_, _, rfl, fails_composite hbraced hk.keySeparator (by simp) hnames hpath ?_⟩
    cases ht : shownComposite o path es (field :: g :: fields) with
    | error f' =>
      simp only [ht] at hsort
      exact congrArg Except.error (Except.error.inj hsort)
    | ok t =>
      simp only [ht] at hsort
      cases hsort

/-- The partition attribute is made first, and the sort attribute does not take its place. -/
lemma modelObjectKey_eq (mutation : Bool) (h : k.Apart o) :
    modelObjectKey k mutation o = .object
      ((k.partition.name, .toAttribute (.ref (keyPath mutation ++ "." ++ k.partition.name))) ::
        sortEntry k (keyPath mutation) o) := by
  have hput : ∀ (name : String) (e e' : Expr), name ≠ k.partition.name →
      Entries.putAll [(k.partition.name, e)] [(name, e')] =
        [(k.partition.name, e), (name, e')] := by
    intro name e e' hne
    have hne' : ¬ (k.partition.name == name) = true := by simpa using hne.symm
    rw [Entries.putAll_cons, Entries.putAll_nil, Entries.put_cons, if_neg hne']
    rfl
  unfold modelObjectKey sortEntry
  dsimp only
  rcases hfields : k.sortFields with _ | ⟨field, _ | ⟨g, fields⟩⟩
  · rfl
  · have hne : field ≠ k.partition.name := by
      rintro rfl
      exact k.partition_notMem_sort (show k.partition.name ∈ k.sortFields by simp [hfields])
    exact congrArg Expr.object (hput _ _ _ hne)
  · have hcomposite : k.isComposite = true := by
      have hlength : 1 < k.sortFields.length := by simp [hfields]
      simpa [KeyDecl.isComposite, KeyDecl.sortFields] using hlength
    have hne := h hcomposite
    rw [hfields] at hne
    exact congrArg Expr.object (hput _ _ _ hne)

/-- **A key that cannot be made is a fault.** -/
theorem exec_setPrimaryKey_error {l : Layout} {sc : Scene} {mutation : Bool} {f : Fault}
    (h : m.Holds l sc) (hk : k.Legible o) (hapart : k.Apart o)
    (hpath : LeadsTo m (keyPath mutation) es)
    (hkey : itemKey k o (keyPath mutation) es = .error f) :
    ∃ m', (setPrimaryKey k mutation o).exec separator m = .error (.fault f) m' := by
  have heval : ∃ m', (modelObjectKey k mutation o).eval separator m = .error (.fault f) m' := by
    rw [modelObjectKey_eq mutation hapart]
    unfold itemKey at hkey
    cases hstored : (es.field k.partition.name).stored with
    | error f' =>
      rw [hstored] at hkey
      obtain rfl : f' = f := Except.error.inj hkey
      exact eval_object_fails .nil (fails_field hpath hk.partition hstored)
    | ok a =>
      rw [hstored] at hkey
      cases hsort : storedSort k o (keyPath mutation) es with
      | error f' =>
        rw [hsort] at hkey
        obtain rfl : f' = f := Except.error.inj hkey
        obtain ⟨name, e, hentry, hfails⟩ :=
          sortEntry_fails hk (isBracedPath_keyPath mutation) hpath hsort
        have hrow : RowOf (Yields separator m)
            [(k.partition.name, .toAttribute (.ref (keyPath mutation ++ "." ++ k.partition.name)))]
            [(k.partition.name, a.data)] :=
          .cons ⟨rfl, yields_field hpath hk.partition hstored⟩ .nil
        rw [hentry]
        exact eval_object_fails hrow hfails
      | ok sort =>
        rw [hsort] at hkey
        cases hkey
  obtain ⟨m', hfail⟩ := heval
  refine ⟨m', ?_⟩
  rw [setPrimaryKey, Stmt.exec, execAll_singleton]
  exact exec_metadataPut_error h (show RecordKind.metadata.field? modelObjectKeyName =
    some .modelObjectKey by decide) hfail

end Evaluation

end Template

end TableKeys
