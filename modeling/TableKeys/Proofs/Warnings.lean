/-
# When the value of a composite key is ambiguous

A component that holds the separator of keys makes the value of a composite key ambiguous, and a
warning is recorded when the value is put together. What is recorded is read off the components
(`separatorWarnings`): one warning if some component holds the separator, whatever the separator
is, and none otherwise. A component that cannot be written keeps the value from being put together,
and nothing is recorded. This is so for the key of an item and for the upkeep of a synthetic
attribute; nothing else that the templates for reading and writing put together is warned about
(`separatorWarnings_exact`).
-/
import TableKeys.Proofs.Quiet

namespace TableKeys.Template

open Snippet Text

/-- The warnings that a value with these components deserves. -/
def separatorWarnings (o : Options) (components : List Data) : List Event :=
  match componentTexts components with
  | .ok texts =>
    if texts.any (containsText o.keySeparator) then
      [.separatorInComponent o.keySeparator (o.keySeparator.intercalate texts)]
    else []
  | .error _ => []

/-! ## The literal rest of a template -/

section Literals

lemma literals_append (ps qs : List Piece) : literals (ps ++ qs) = literals ps ++ literals qs :=
  List.flatMap_append

lemma literals_map_literal (cs : List Char) : literals (cs.map .literal) = cs := by
  induction cs with
  | nil => rfl
  | cons c cs ih => exact congrArg (c :: ·) ih

variable {separator : List Char} {path f g : String} {fields : List String}


lemma literals_cons_cons :
    literals ((separator.map Piece.literal).intercalate
      ((f :: g :: fields).map fun f => [fieldReference path f])) =
    separator ++ literals ((separator.map Piece.literal).intercalate
      ((g :: fields).map fun f => [fieldReference path f])) := by
  rw [List.map_cons, List.map_cons, List.intercalate_cons_cons, literals_append, literals_append,
    literals_map_literal]
  rfl

/-- Without the separators nothing literal is left. -/
lemma replaceAll_literals (hseparator : separator ≠ []) (path : String) (fields : List String) :
    replaceAll separator [] (literals ((separator.map Piece.literal).intercalate
      (fields.map fun f => [fieldReference path f]))) = [] := by
  induction fields with
  | nil => rfl
  | cons f fs ih =>
    cases fs with
    | nil => rfl
    | cons g gs =>
      rw [literals_cons_cons, replaceAll_append_of_ne_nil hseparator, ih]
      rfl

/-- The literal rest of the template of a composite key is made of separators. -/
lemma isSeparators_literals {separator : String} (hseparator : separator ≠ "") (path : String)
    (hlength : 2 ≤ fields.length) :
    isSeparators separator (literals ((separator.toList.map Piece.literal).intercalate
      (fields.map fun f => [fieldReference path f]))) = true := by
  have hne : separator.toList ≠ [] := fun h => hseparator (by simpa using h)
  have hall := replaceAll_literals hne path fields
  match fields, hlength with
  | f :: g :: fs, _ =>
    have hsome : literals ((separator.toList.map Piece.literal).intercalate
        ((f :: g :: fs).map fun f => [fieldReference path f])) ≠ [] := by
      rw [literals_cons_cons]
      exact List.append_ne_nil_of_left_ne_nil hne _
    rw [isSeparators, hall]
    simpa using hsome

end Literals

/-! ## The value of a composite key -/

section Values

variable {m : Machine} {o : Options} {path : String} {v : Value} {es : Entries MapKey Data}
  {fields texts : List String}

lemma interpolatePieces_literals_append (cs : List Char) (ps : List Piece) :
    interpolatePieces m (cs.map .literal ++ ps) =
      (fun done => { done with text := cs ++ done.text }) <$> interpolatePieces m ps := by
  induction cs with
  | nil => exact (id_map (interpolatePieces m ps)).symm
  | cons c cs ih =>
    rw [List.map_cons, List.cons_append, interpolatePieces, ih]
    cases interpolatePieces m ps <;> rfl

/-- A field with a value comes in as a component. -/
lemma interpolatePieces_field {f t : String} {w : Value} {ps : List Piece} {done : Interpolated}
    (hw : resolve m.store m.bindings (path ++ "." ++ f) = .ok w) (hnull : w.isNull = false)
    (ht : (m.store.read w).interpolated = .ok t) (hdone : interpolatePieces m ps = .ok done) :
    interpolatePieces m (fieldReference path f :: ps) =
      .ok { text := t.toList ++ done.text, components := t :: done.components } := by
  have hdotted : (path ++ "." ++ f).toList.contains '.' = true := by
    simp [String.toList_append]
  rw [fieldReference, interpolatePieces, String.ofList_toList, hw]
  simp only [bind, Except.bind, hnull, ht, hdone, hdotted, if_true]
  rfl

/-- A field of the map that is a scalar other than null has a value, which enters a text as the
component does. -/
lemma exists_component {f t : String} (hfield : isSchemaName f = true)
    (hpath : resolve m.store m.bindings path = .ok v)
    (hv : Shows m.store (fun _ => True) (.map es) v)
    (hscalar : ∃ a, es.field f = .scalar a ∧ a ≠ .null) (ht : componentText (es.field f) = .ok t) :
    ∃ w, resolve m.store m.bindings (path ++ "." ++ f) = .ok w ∧ w.isNull = false ∧
      (m.store.read w).interpolated = .ok t := by
  obtain ⟨w, hw, hshown⟩ := Machine.Holds.resolve_field hpath hv hfield
  have hshows : Shows m.store (fun _ => True) (es.field f) w := hshown
  obtain ⟨a, ha, hne⟩ := hscalar
  rw [ha, componentText_scalar hne] at ht
  refine ⟨w, hw, ?_, ?_⟩
  · rw [Machine.Holds.isNull_of_shows hshows, ha, isNull_scalar hne]
  · rw [hshows.read_eq, ha]
    cases hinterpolated : (Data.scalar a).interpolated with
    | ok t' =>
      rw [hinterpolated] at ht
      rw [Except.ok.inj ht]
    | error e =>
      rw [hinterpolated] at ht
      cases ht

/-- The components that come in for a composite key are its components as texts. -/
lemma interpolatePieces_composite (separator : String)
    (hfields : ∀ f ∈ fields, isSchemaName f = true)
    (hpath : resolve m.store m.bindings path = .ok v)
    (hv : Shows m.store (fun _ => True) (.map es) v)
    (hscalar : ∀ f ∈ fields, ∃ a, es.field f = .scalar a ∧ a ≠ .null)
    (htexts : componentTexts (fields.map es.field) = .ok texts) :
    interpolatePieces m ((separator.toList.map Piece.literal).intercalate
        (fields.map fun f => [fieldReference path f])) =
      .ok { text := (separator.intercalate texts).toList, components := texts } := by
  induction fields generalizing texts with
  | nil =>
    obtain rfl := Except.ok.inj htexts
    rfl
  | cons f fs ih =>
    rw [List.map_cons, componentTexts] at htexts
    obtain ⟨t, ht, htexts⟩ := exists_of_bind_eq_ok htexts
    obtain ⟨ts, hts, htexts⟩ := exists_of_bind_eq_ok htexts
    obtain rfl := Except.ok.inj htexts
    have hrest := ih (fun g hg => hfields g (by simp [hg])) (fun g hg => hscalar g (by simp [hg]))
      hts
    obtain ⟨w, hw, hnull, hread⟩ :=
      exists_component (hfields f (by simp)) hpath hv (hscalar f (by simp)) ht
    -- the separator stands before the components that are left, if there are any
    cases fs with
    | nil =>
      obtain rfl := Except.ok.inj hts
      rw [List.map_cons, List.map_nil, List.intercalate_singleton,
        interpolatePieces_field hw hnull hread rfl]
      simp
    | cons g gs =>
      obtain ⟨u, us, rfl⟩ : ∃ u us, ts = u :: us := by
        rw [List.map_cons, componentTexts] at hts
        obtain ⟨u, -, hts⟩ := exists_of_bind_eq_ok hts
        obtain ⟨us, -, hts⟩ := exists_of_bind_eq_ok hts
        exact ⟨u, us, (Except.ok.inj hts).symm⟩
      have hjoined : (separator.intercalate (t :: u :: us)).toList =
          t.toList ++ (separator.toList ++ (separator.intercalate (u :: us)).toList) := by
        simp [String.toList_intercalate]
      have hrow : interpolatePieces m (separator.toList.map Piece.literal ++
          (separator.toList.map Piece.literal).intercalate
            ((g :: gs).map fun f => [fieldReference path f])) =
          .ok { text := separator.toList ++ (separator.intercalate (u :: us)).toList
                components := u :: us } := by
        rw [interpolatePieces_literals_append, hrest]
        rfl
      rw [List.map_cons, List.map_cons, List.intercalate_cons_cons, List.append_assoc,
        List.singleton_append, hjoined]
      exact interpolatePieces_field hw hnull hread hrow

/-- A row of texts has one for each component. -/
lemma length_componentTexts {ds : List Data} (h : componentTexts ds = .ok texts) :
    texts.length = ds.length := by
  induction ds generalizing texts with
  | nil =>
    obtain rfl := Except.ok.inj h
    rfl
  | cons d ds ih =>
    obtain ⟨t, -, h⟩ := exists_of_bind_eq_ok h
    obtain ⟨ts, hts, h⟩ := exists_of_bind_eq_ok h
    obtain rfl := Except.ok.inj h
    rw [List.length_cons, List.length_cons, ih hts]

/-- **The value of a composite key is put together with the warnings that it deserves.** -/
theorem eval_composite_warns (hbraced : isBracedPath path.toList = true)
    (hsep : '$' ∉ o.keySeparator.toList) (hlength : 2 ≤ fields.length)
    (hfields : ∀ f ∈ fields, isSchemaName f = true)
    (hpath : resolve m.store m.bindings path = .ok v)
    (hv : Shows m.store (fun _ => True) (.map es) v)
    (hscalar : ∀ f ∈ fields, ∃ a, es.field f = .scalar a ∧ a ≠ .null)
    (htexts : componentTexts (fields.map es.field) = .ok texts) :
    (Expr.text (compositeTemplate o path fields)).eval o.keySeparator m =
      .ok (.text (o.keySeparator.intercalate texts))
        { m with log := m.log ++ separatorWarnings o (fields.map es.field) } := by
  have hpieces := pieces_compositeTemplate (o := o) hbraced hsep hfields
  have hdone := interpolatePieces_composite o.keySeparator hfields hpath hv hscalar htexts
  rw [← hpieces] at hdone
  have hrest := isSeparators_literals o.keySeparator_ne path hlength
  rw [← hpieces] at hrest
  have hmany : 1 < texts.length := by
    rw [length_componentTexts htexts, List.length_map]
    exact hlength
  -- the text is looked at as a composite key, so that only the components matter
  have hambiguous : isAmbiguous o.keySeparator (pieces (compositeTemplate o path fields)) texts =
      texts.any (containsText o.keySeparator) := by
    simp [isAmbiguous, hmany, hrest]
  have hinterpolate : interpolate o.keySeparator (compositeTemplate o path fields) m =
      .ok (o.keySeparator.intercalate texts)
        { m with log := m.log ++ separatorWarnings o (fields.map es.field) } := by
    rw [interpolate, Run.get_bind, Run.bind_ok (Run.ofExcept_ok hdone)]
    simp only [hambiguous, String.ofList_toList, separatorWarnings, htexts]
    split
    · rfl
    · rw [List.append_nil]
      rfl
  rw [Expr.eval, Run.bind_ok hinterpolate]
  rfl

/-- A component that cannot be written ends the run, and nothing is recorded. -/
lemma eval_composite_faults {e : CompositeError} (hbraced : isBracedPath path.toList = true)
    (hsep : '$' ∉ o.keySeparator.toList) (hlength : 2 ≤ fields.length)
    (hfields : ∀ f ∈ fields, isSchemaName f = true)
    (hpath : resolve m.store m.bindings path = .ok v)
    (hv : Shows m.store (fun _ => True) (.map es) v)
    (hscalar : ∀ f ∈ fields, ∃ a, es.field f = .scalar a ∧ a ≠ .null)
    (htexts : componentTexts (fields.map es.field) = .error e) :
    ∃ fault, (Expr.text (compositeTemplate o path fields)).eval o.keySeparator m =
      .error (.fault fault) m := by
  have hne : fields ≠ [] := by
    rintro rfl
    cases hlength
  have heval := eval_composite o.keySeparator hbraced hsep hne hfields hpath hv
  have hencode := encodeComposite_eq_shown o path hscalar
  cases hshown : shownComposite o path es fields with
  | error fault =>
    rw [hshown] at heval
    exact ⟨fault, heval⟩
  | ok t =>
    rw [encodeComposite, htexts, hshown] at hencode
    cases hencode

end Values

/-! ## Statements -/

/-- The run ends well and records these events, or it fails and records nothing. -/
def Run.Records {α : Type} (x : Run α) (m : Machine) (events : List Event) : Prop :=
  match x m with
  | .ok _ m' => m'.log = m.log ++ events
  | .error _ m' => m'.log = m.log

namespace Run.Records

variable {α β : Type} {x : Run α} {f : α → Run β} {m : Machine} {events : List Event}

lemma of_ok {a : α} {m' : Machine} (hx : x m = .ok a m') (h : m'.log = m.log ++ events) :
    x.Records m events := by
  rw [Records, hx]
  exact h

lemma of_error {e : Failure} {m' : Machine} (hx : x m = .error e m') (h : m'.log = m.log) :
    x.Records m events := by
  rw [Records, hx]
  exact h

lemma log_of_ok {a : α} {m' : Machine} (h : x.Records m events) (hx : x m = .ok a m') :
    m'.log = m.log ++ events := by
  rwa [Records, hx] at h

/-- What comes after a run that records nothing records everything. -/
lemma after (hx : x.Quiet) (hf : ∀ a m₁, x m = .ok a m₁ → (f a).Records m₁ events) :
    (x >>= f).Records m events := by
  cases hm : x m with
  | error e m₁ =>
    rw [Records, Run.bind_error hm]
    exact hx.log_of_error hm
  | ok a m₁ =>
    have h := hf a m₁ hm
    rwa [Records, hx.log_of_ok hm, ← Run.bind_ok (f := f) hm] at h

/-- What comes before runs that end well and record nothing records everything. -/
lemma before (hx : x.Records m events)
    (hf : ∀ a m₁, ∃ b m₂, f a m₁ = .ok b m₂ ∧ m₂.log = m₁.log) : (x >>= f).Records m events := by
  cases hm : x m with
  | error e m₁ =>
    rw [Records, hm] at hx
    rw [Records, Run.bind_error hm]
    exact hx
  | ok a m₁ =>
    rw [Records, hm] at hx
    obtain ⟨b, m₂, hb, hlog⟩ := hf a m₁
    exact of_ok ((Run.bind_ok hm).trans hb) (hlog.trans hx)

end Run.Records

section Statements

variable {m m' : Machine} {sc : Scene} {k : KeyDecl} {o : Options} {path name : String}
  {es : Entries MapKey Data} {fields : List String} {mutation conditionally : Bool}

lemma two_le_sortFields (hcomposite : k.isComposite = true) : 2 ≤ k.sortFields.length := by
  have hlength : 1 < k.sort.length := by simpa [KeyDecl.isComposite] using hcomposite
  rwa [KeyDecl.sortFields, List.length_map]

/-- The stored form of the value of a composite key is had with its warnings. -/
lemma evalEntries_composite (hbraced : isBracedPath path.toList = true)
    (hsep : '$' ∉ o.keySeparator.toList) (hlength : 2 ≤ fields.length)
    (hfields : ∀ f ∈ fields, isSchemaName f = true) (hpath : LeadsTo m path es)
    (hscalar : ∀ f ∈ fields, ∃ a, es.field f = .scalar a ∧ a ≠ .null) (hm : m.Extends m') :
    (evalEntries o.keySeparator
      [(name, .toAttribute (.text (compositeTemplate o path fields)))]).Records m'
        (separatorWarnings o (fields.map es.field)) := by
  obtain ⟨v, hv, hshows⟩ := hpath m' hm
  cases htexts : componentTexts (fields.map es.field) with
  | ok texts =>
    have ht := eval_composite_warns hbraced hsep hlength hfields hv hshows hscalar htexts
    obtain ⟨w, s, hw, -⟩ := eval_toAttribute (a := .text _) ht rfl
    have hentries : evalEntries o.keySeparator
        [(name, .toAttribute (.text (compositeTemplate o path fields)))] m' = .ok [(name, w)]
        { m' with store := s, log := m'.log ++ separatorWarnings o (fields.map es.field) } := by
      rw [evalEntries, Run.bind_ok hw, evalEntries]
      rfl
    exact .of_ok hentries rfl
  | error e =>
    obtain ⟨fault, hfault⟩ :=
      eval_composite_faults hbraced hsep hlength hfields hv hshows hscalar htexts
    have hentries : evalEntries o.keySeparator
        [(name, .toAttribute (.text (compositeTemplate o path fields)))] m' =
          .error (.fault fault) m' := by
      rw [evalEntries, Expr.eval]
      exact Run.bind_error (Run.bind_error hfault)
    exact .of_error hentries rfl

/-- The partition attribute is had without a warning, and nothing that is there changes. -/
lemma eval_partition {separator : String} {f : String} {v : Value} (hfield : isSchemaName f = true)
    (hpath : LeadsTo m path es)
    (hv : (Expr.toAttribute (.ref (path ++ "." ++ f))).eval separator m = .ok v m') :
    m.Extends m' := by
  cases hstored : (es.field f).stored with
  | ok a =>
    have hyields : Yields separator m (.toAttribute (.ref (path ++ "." ++ f))) a.data :=
      yields_field hpath hfield hstored
    obtain ⟨w, m₁, hw, hm₁, -⟩ := hyields m (.refl m)
    obtain ⟨-, rfl⟩ := EStateM.Result.ok.inj (hv.symm.trans hw)
    exact hm₁
  | error e =>
    have hfails : Fails separator m (.toAttribute (.ref (path ++ "." ++ f))) e :=
      fails_field hpath hfield hstored
    obtain ⟨m₁, hw⟩ := hfails m (.refl m)
    rw [hv] at hw
    cases hw

lemma sortFields_ne_nil (hcomposite : k.isComposite = true) : k.sortFields ≠ [] := by
  intro hnil
  have hlength := two_le_sortFields hcomposite
  rw [hnil] at hlength
  cases hlength

lemma sortEntry_composite (path : String) (o : Options) (hcomposite : k.isComposite = true) :
    sortEntry k path o = [(compositeName o k.sortFields,
      .toAttribute (.text (compositeTemplate o path k.sortFields)))] := by
  have hlength := two_le_sortFields hcomposite
  unfold sortEntry
  split
  · next h => simp [h] at hlength
  · next h => simp [h] at hlength
  · rfl

/-- The attributes of a key are had with the warnings for its sort attribute, or not at all. -/
lemma eval_modelObjectKey (hk : k.Legible o) (hcomposite : k.isComposite = true)
    (hpath : LeadsTo m (keyPath mutation) es)
    (hscalar : ∀ f ∈ k.sortFields, ∃ a, es.field f = .scalar a ∧ a ≠ .null) :
    ((modelObjectKey k mutation o).eval o.keySeparator).Records m
      (separatorWarnings o (k.sortFields.map es.field)) := by
  have hsort : ∀ m₁, m.Extends m₁ → (evalEntries o.keySeparator
      [(compositeName o k.sortFields,
        .toAttribute (.text (compositeTemplate o (keyPath mutation) k.sortFields)))]).Records m₁
      (separatorWarnings o (k.sortFields.map es.field)) := fun m₁ hm₁ =>
    evalEntries_composite (isBracedPath_keyPath mutation) hk.keySeparator
      (two_le_sortFields hcomposite) hk.sortFields hpath hscalar hm₁
  have hentries : (evalEntries o.keySeparator (Entries.putAll
      [(k.partition.name, .toAttribute (.ref (keyPath mutation ++ "." ++ k.partition.name)))]
      (sortEntry k (keyPath mutation) o))).Records m
      (separatorWarnings o (k.sortFields.map es.field)) := by
    rw [sortEntry_composite _ o hcomposite, Entries.putAll_cons, Entries.putAll_nil,
      Entries.put_cons]
    split
    · -- the synthetic attribute has the name of the partition attribute and takes its place
      next hname => exact eq_of_beq hname ▸ hsort m (.refl m)
    · have hquiet : Run.Quiet ((Expr.toAttribute
          (.ref (keyPath mutation ++ "." ++ k.partition.name))).eval o.keySeparator) :=
        hereditary_quiet.eval _ fun s hs => by cases hs
      rw [evalEntries]
      refine .after hquiet fun v m₁ hv => ?_
      exact .before (hsort m₁ (eval_partition hk.partition hpath hv)) fun vs m₂ =>
        ⟨_, m₂, rfl, rfl⟩
  rw [modelObjectKey, Expr.eval]
  exact hentries.before fun vs m₁ => ⟨_, _, rfl, rfl⟩

lemma putField_ends (address : Address) (field : Field) (v : Value) (m : Machine) :
    ∃ m', Run.putField address field v m = .ok () m' := by
  rw [Run.putField, Run.get_bind]
  cases m.store.get? address with
  | none => exact ⟨m, rfl⟩
  | some c => cases c <;> exact ⟨_, rfl⟩

lemma putEntry_ends (address : Address) (key : MapKey) (v : Value) (m : Machine) :
    ∃ m', Run.putEntry address key v m = .ok () m' := by
  rw [Run.putEntry, Run.get_bind]
  cases m.store.get? address with
  | none => exact ⟨m, rfl⟩
  | some c => cases c <;> exact ⟨_, rfl⟩

/-- **The key of an item is left with the warnings for its sort attribute, or not at all.** -/
theorem setPrimaryKey_records (h : m.Stages sc) (hk : k.Legible o)
    (hcomposite : k.isComposite = true) (hpath : LeadsTo m (keyPath mutation) es)
    (hscalar : ∀ f ∈ k.sortFields, ∃ a, es.field f = .scalar a ∧ a ≠ .null) :
    ((setPrimaryKey k mutation o).exec o.keySeparator).Records m
      (separatorWarnings o (k.sortFields.map es.field)) := by
  obtain ⟨l, hl⟩ := h
  have hvalue := eval_modelObjectKey hk hcomposite hpath hscalar
  have hexec : (setPrimaryKey k mutation o).exec o.keySeparator m = (do
      let v ← (modelObjectKey k mutation o).eval o.keySeparator
      Run.putField (l.cell .metadata) .modelObjectKey v) m := by
    rw [setPrimaryKey, Stmt.exec, execAll_singleton, Stmt.exec, Run.bind_ok (metadataField_ok hl
      (show RecordKind.metadata.field? modelObjectKeyName = some .modelObjectKey by decide))]
  have hrecords : (do
      let v ← (modelObjectKey k mutation o).eval o.keySeparator
      Run.putField (l.cell .metadata) .modelObjectKey v).Records m
      (separatorWarnings o (k.sortFields.map es.field)) := by
    refine hvalue.before fun v m₁ => ?_
    obtain ⟨m₂, hput⟩ := putField_ends (l.cell .metadata) .modelObjectKey v m₁
    exact ⟨(), m₂, hput, (hereditary_quiet.putField _ _ v).log_of_ok hput⟩
  rwa [Run.Records, ← hexec] at hrecords

/-- Scalars other than null that can be written have a text. -/
lemma exists_shown_of_writable (path : String)
    (hscalar : ∀ f ∈ fields, ∃ a, es.field f = .scalar a ∧ a ≠ .null)
    (hwritable : ∀ f ∈ fields, (es.field f).isWritable = true) :
    ∃ t, shownComposite o path es fields = .ok t := by
  obtain ⟨t, ht, -⟩ := shownComposite_ok o path fun f hf => by
    obtain ⟨a, ha, hne⟩ := hscalar f hf
    refine ⟨a, ha, hne, ?_⟩
    have hfield := hwritable f hf
    rwa [ha] at hfield
  exact ⟨t, ht⟩

/-- The key of an item is left if its partition attribute has a stored form and the components of
its sort attribute can be written. -/
lemma setPrimaryKey_ends (h : m.Stages sc) (hk : k.Legible o) (hcomposite : k.isComposite = true)
    (hpath : LeadsTo m (keyPath mutation) es)
    (hscalar : ∀ f ∈ k.sortFields, ∃ a, es.field f = .scalar a ∧ a ≠ .null)
    (hwritable : ∀ f ∈ k.sortFields, (es.field f).isWritable = true)
    (hstored : ∃ a, (es.field k.partition.name).stored = .ok a) :
    ∃ m', (setPrimaryKey k mutation o).exec o.keySeparator m = .ok () m' := by
  obtain ⟨l, hl⟩ := h
  obtain ⟨a, ha⟩ := hstored
  obtain ⟨t, ht⟩ := exists_shown_of_writable (keyPath mutation) hscalar hwritable
  have hsort : storedSort k o (keyPath mutation) es =
      .ok [(compositeName o k.sortFields, .text t)] := by
    have hlength := two_le_sortFields hcomposite
    unfold storedSort
    split
    · next hfields => simp [hfields] at hlength
    · next hfields => simp [hfields] at hlength
    · rw [ht]
      rfl
  have hkey : itemKey k o (keyPath mutation) es = .ok (Entries.putAll [(k.partition.name, a)]
      [(compositeName o k.sortFields, .text t)]) := by
    rw [itemKey, ha, hsort]
    rfl
  obtain ⟨m', hm', -⟩ : ((setPrimaryKey k mutation o).exec o.keySeparator).Reaches m _ :=
    exec_setPrimaryKey hl hk hpath hkey
  exact ⟨m', hm'⟩

/-- The value of a synthetic attribute is written: always, or if the condition for it holds. -/
def Machine.Writes (m : Machine) (conditionally : Bool) : Prop :=
  conditionally = true → ((m.bindings.get? hasSeenSomeKeyArg).getD .null).holds = true

lemma mapAt_state {path : String} {a : Address} (h : mapAt path m = .ok a m') : m' = m := by
  rw [mapAt] at h
  cases hpath : Template.resolve m.store m.bindings path with
  | error f =>
    rw [Run.bind_error (show Run.resolve path m = .error (.fault f) m by
      rw [Run.resolve, Run.get_bind, hpath]; rfl)] at h
    cases h
  | ok v =>
    rw [Run.bind_ok (resolve_ok hpath), Run.get_bind] at h
    cases v with
    | ref b =>
      cases hentries : m.store.entries? (.ref b) with
      | none =>
        rw [hentries] at h
        cases h
      | some es =>
        rw [hentries] at h
        cases h
        rfl
    | _ => cases h

/-- The value of a composite key is put into the input with its warnings, or not at all. -/
lemma putComposite_records {synthetic : String} (h : m.Merged sc) (hk : k.Plain o)
    (hcomposite : k.isComposite = true) (hes : sc.maps sc.target = some es)
    (hscalar : ∀ f ∈ k.sortFields, ∃ a, es.field f = .scalar a ∧ a ≠ .null)
    (hsynthetic : '$' ∉ synthetic.toList) :
    ((Stmt.mapPut (.ref inputPath) (.text synthetic)
      (.text (compositeTemplate o mergedValues k.sortFields))).exec o.keySeparator).Records m
      (separatorWarnings o (k.sortFields.map es.field)) := by
  obtain ⟨v, hv, hshows⟩ := h.resolve_merged hes
  have hbraced : isBracedPath mergedValues.toList = true := by decide
  have hlength := two_le_sortFields hcomposite
  rw [Stmt.exec]
  refine .after (hereditary_quiet.pathOf _) fun path m₁ hpath => ?_
  obtain ⟨rfl, rfl⟩ := EStateM.Result.ok.inj hpath
  refine .after (hereditary_quiet.pathText _ _) fun path m₁ hpath => ?_
  obtain ⟨rfl, rfl⟩ := EStateM.Result.ok.inj hpath
  refine .after (hereditary_quiet.mapAt _) fun address m₁ hmap => ?_
  obtain rfl := mapAt_state hmap
  cases htexts : componentTexts (k.sortFields.map es.field) with
  | ok texts =>
    have ht := eval_composite_warns hbraced hk.keySeparator hlength hk.sortFields hv hshows hscalar
      htexts
    obtain ⟨m₂, hput⟩ := putEntry_ends address (.text synthetic)
      (.text (o.keySeparator.intercalate texts))
      { m₁ with log := m₁.log ++ separatorWarnings o (k.sortFields.map es.field) }
    refine .of_ok ((Run.bind_ok ht).trans ((Run.bind_ok (eval_text_plain hsynthetic)).trans
      ((Run.bind_ok (Run.asKey_text _)).trans hput))) ?_
    exact (hereditary_quiet.putEntry _ _ _).log_of_ok hput
  | error e =>
    obtain ⟨fault, hfault⟩ := eval_composite_faults hbraced hk.keySeparator hlength hk.sortFields
      hv hshows hscalar htexts
    exact .of_error (Run.bind_error hfault) rfl

/-- **A synthetic attribute is kept with the warnings for its value if it is written, and without
any if it is not.** -/
theorem ensureCompositeKey_records (h : m.Merged sc) (hk : k.Plain o)
    (hcomposite : k.isComposite = true) (hes : sc.maps sc.target = some es)
    (hscalar : ∀ f ∈ k.sortFields, ∃ a, es.field f = .scalar a ∧ a ≠ .null) :
    (m.Writes conditionally → ((compositeUpkeep k conditionally o).exec o.keySeparator).Records m
        (separatorWarnings o (k.sortFields.map es.field)) ∧
      ((sc.maps .input).isSome → (∀ f ∈ k.sortFields, (es.field f).isWritable = true) →
        ∃ m', (compositeUpkeep k conditionally o).exec o.keySeparator m = .ok () m')) ∧
    (¬ m.Writes conditionally → ∃ m', (compositeUpkeep k conditionally o).exec o.keySeparator m =
      .ok () m' ∧ m'.log = m.log) := by
  obtain ⟨m₁, hnote, hm₁, hbindings⟩ : ((recordOverride (compositeName o k.sortFields)
      (compositeArgument k.sortFields)).exec o.keySeparator).Reaches m _ :=
    exec_recordOverride h hk.compositeName (notMem_compositeArgument k.sortFields)
  -- noting the schema name records nothing
  have hlog : m₁.log = m.log :=
    (quiet_recordOverride hk.compositeName (notMem_compositeArgument k.sortFields)).log_of_ok hnote
  have hexec : (compositeUpkeep k conditionally o).exec o.keySeparator m =
      (writeComposite (compositeName o k.sortFields)
        (compositeTemplate o mergedValues k.sortFields) conditionally).exec o.keySeparator m₁ := by
    rw [compositeUpkeep, Stmt.exec, execAll_cons_ok hnote, execAll_singleton]
  have hes₁ : (sc.noted k o).maps (sc.noted k o).target = some es := by
    rw [Scene.noted_target, Scene.noted_maps _ _ _ sc.target_ne_overrides, hes]
  have hput := putComposite_records hm₁ hk hcomposite hes₁ hscalar hk.compositeName
  have hseen : (Expr.ref hasSeenSomeKeyArg).eval o.keySeparator m₁ =
      .ok ((m.bindings.get? hasSeenSomeKeyArg).getD .null) m₁ :=
    eval_ref (by rw [resolve_variable _ _ (by decide), hbindings])
  refine ⟨fun hwrites => ?_, fun hwrites => ?_⟩
  · have hwrite : (writeComposite (compositeName o k.sortFields)
        (compositeTemplate o mergedValues k.sortFields) conditionally).exec o.keySeparator m₁ =
        (Stmt.mapPut (.ref inputPath) (.text (compositeName o k.sortFields))
          (.text (compositeTemplate o mergedValues k.sortFields))).exec o.keySeparator m₁ := by
      cases conditionally with
      | false => rfl
      | true => rw [writeComposite, if_pos rfl, exec_choice_true hseen (hwrites rfl),
          execBranch_singleton (by simp)]
    rw [Run.Records, hexec, hwrite, ← hlog]
    refine ⟨hput, fun hinput hwritable => ?_⟩
    obtain ⟨inp, hinp⟩ := Option.isSome_iff_exists.mp hinput
    obtain ⟨t, ht⟩ := exists_shown_of_writable mergedValues hscalar hwritable
    have hrun := exec_putComposite o.keySeparator hm₁ hes₁
      ((Scene.noted_maps sc k o (by simp)).trans hinp) hk.keySeparator
      (sortFields_ne_nil hcomposite) hk.sortFields hk.compositeName
    rw [ht] at hrun
    obtain ⟨m', hm', -⟩ := hrun
    exact ⟨m', hm'⟩
  · obtain ⟨rfl, hfalse⟩ : conditionally = true ∧
        ((m.bindings.get? hasSeenSomeKeyArg).getD .null).holds = false := by
      simpa [Machine.Writes] using hwrites
    exact ⟨m₁, by rw [hexec, writeComposite, if_pos rfl, exec_choice_none hseen hfalse], hlog⟩

end Statements

/-- **Warnings are exact.** The key of an item, and a synthetic attribute that is written, come
with one warning if some component holds the separator, and with none otherwise, unless they do not
come at all, which is not recorded; they do come if no component is a whole number with too many
digits to be written. Every other text in the templates of a resolver that gets, creates, updates
or deletes items is put together without a warning, from whatever machine. -/
theorem separatorWarnings_exact {k : KeyDecl} {o : Options} (hk : k.Plain o)
    (hcomposite : k.isComposite = true) :
    (∀ (mutation : Bool) (m : Machine) (sc : Scene) (es : Entries MapKey Data),
      m.Stages sc → LeadsTo m (keyPath mutation) es →
      (∀ f ∈ k.sortFields, ∃ a, es.field f = .scalar a ∧ a ≠ .null) →
      ((setPrimaryKey k mutation o).exec o.keySeparator).Records m
          (separatorWarnings o (k.sortFields.map es.field)) ∧
        ((∃ a, (es.field k.partition.name).stored = .ok a) →
          (∀ f ∈ k.sortFields, (es.field f).isWritable = true) →
          ∃ m', (setPrimaryKey k mutation o).exec o.keySeparator m = .ok () m')) ∧
    (∀ (conditionally : Bool) (s : Stmt), ensureCompositeKey k conditionally o = some s →
      ∀ (m : Machine) (sc : Scene) (es : Entries MapKey Data),
      m.Merged sc → sc.maps sc.target = some es →
      (∀ f ∈ k.sortFields, ∃ a, es.field f = .scalar a ∧ a ≠ .null) →
      (m.Writes conditionally →
        (s.exec o.keySeparator).Records m (separatorWarnings o (k.sortFields.map es.field)) ∧
          ((sc.maps .input).isSome → (∀ f ∈ k.sortFields, (es.field f).isWritable = true) →
            ∃ m', s.exec o.keySeparator m = .ok () m')) ∧
      (¬ m.Writes conditionally → ∃ m', s.exec o.keySeparator m = .ok () m' ∧ m'.log = m.log)) ∧
    (∀ op : Operation, op ≠ .list →
      ∀ s ∈ bodyTexts ((Session.primarySnippets k o op).filterMap id),
        (∃ mutation, s = compositeTemplate o (keyPath mutation) k.sortFields) ∨
          Run.Quiet (interpolate o.keySeparator s)) ∧
    (∀ i : IndexDecl, i.toKeyDecl = k → '$' ∉ i.name.toList → ∀ op : Operation,
      ∀ s ∈ bodyTexts
        ((some mergeInputsAndDefaults :: Session.indexSnippets i o op).filterMap id),
        s = compositeTemplate o mergedValues k.sortFields ∨
          Run.Quiet (interpolate o.keySeparator s)) := by
  refine ⟨?_, ?_, ?_, ?_⟩
  · intro mutation m sc es hm hpath hscalar
    exact ⟨setPrimaryKey_records hm hk.legible hcomposite hpath hscalar, fun hstored hwritable =>
      setPrimaryKey_ends hm hk.legible hcomposite hpath hscalar hwritable hstored⟩
  · intro conditionally s hs m sc es hm hes hscalar
    rw [ensureCompositeKey_eq hcomposite] at hs
    obtain rfl := Option.some.inj hs
    exact ensureCompositeKey_records hm hk hcomposite hes hscalar
  · intro op hop s hs
    exact primarySnippets_quiet o.keySeparator hk hop hs
  · rintro i rfl hname op s hs
    exact indexSnippets_quiet o.keySeparator hk hname hs

/-- The entries of a ledger, in the order of their months. -/
def ledgerKey : KeyDecl where
  object := { name := "Entry" }
  partition := { name := "account", typeName := "ID" }
  sort := [{ name := "year", typeName := "String" }, { name := "month", typeName := "Int" }]
  sort_nodup := by decide
  partition_notMem_sort := by decide

/-- An item is asked for in a year that is written with the separator. -/
def fiscalYear : Request where
  arguments := [("account", .text "a"), ("year", .text "2024#25"), ("month", .scalar (.int 5))]

/-- The key of that item comes with a warning. -/
theorem separatorWarnings_exact_fiscal :
    ∃ m', (setPrimaryKey ledgerKey false {}).exec "#" (Machine.start fiscalYear) = .ok () m' ∧
      m'.log = [.separatorInComponent "#" "2024#25#5"] := by
  have hm := Machine.start_stages fiscalYear
  have hlog : (Machine.start fiscalYear).log = [] := rfl
  have hpath : LeadsTo (Machine.start fiscalYear) (keyPath false) fiscalYear.arguments.texts := by
    obtain ⟨l, hl⟩ := hm
    rw [← fiscalYear.scene_arguments]
    exact leadsTo_arguments hl
  have hscalar : ∀ f ∈ ledgerKey.sortFields,
      ∃ a, (Entries.texts fiscalYear.arguments).field f = .scalar a ∧ a ≠ .null := by
    show ∀ f ∈ ["year", "month"], _
    simp only [List.forall_mem_cons]
    exact ⟨⟨.text "2024#25", rfl, by decide⟩, ⟨.int 5, rfl, by decide⟩, by simp⟩
  have hwarnings : separatorWarnings {} (ledgerKey.sortFields.map
      (Entries.texts fiscalYear.arguments).field) = [.separatorInComponent "#" "2024#25#5"] := by
    decide
  obtain ⟨hset, -⟩ := separatorWarnings_exact (k := ledgerKey) (o := {})
    ⟨by decide, by decide, by decide⟩ rfl
  -- which machine it is does not matter any more
  generalize Machine.start fiscalYear = m at hm hlog hpath ⊢
  obtain ⟨hrecords, hends⟩ := hset false m fiscalYear.scene _ hm hpath hscalar
  obtain ⟨m', hm'⟩ := hends ⟨.text "a", rfl⟩ (by decide)
  refine ⟨m', hm', ?_⟩
  rw [hrecords.log_of_ok hm', hlog, hwarnings]
  rfl

/-- Options under which the name of a composite key refers to the input, with a separator of values
that is what else stands in the name. -/
def referringOptions : Options where
  keySeparator := "yearmonth"
  nameSeparator := braced "ctx.args.input.first" ++ braced "ctx.args.input.second"

/-- An item whose year and month do not hold the separator, with something else that does. -/
def remarked : Request where
  arguments := [("input", .object [("account", .text "a"), ("year", .text "2024"),
    ("month", .scalar (.int 5)), ("first", .text "yearmonth"), ("second", .text "b")])]

/-- The log of a run that ends well. -/
def Run.log? (x : Run Unit) (m : Machine) : Option (List Event) :=
  match x m with
  | .ok _ m' => some m'.log
  | .error _ _ => none

/-- If the separator of names refers to something, the name of a synthetic attribute is put together
with a warning, although no component of its value holds the separator of values. -/
theorem warned_of_name :
    separatorWarnings referringOptions [.text "2024", .scalar (.int 5)] = [] ∧
    Run.log? (execAll "yearmonth"
        ((Session.primarySnippets ledgerKey referringOptions .create).filterMap id))
        (Machine.start remarked) =
      some [.separatorInComponent "yearmonth" "yearyearmonthbmonth"] := by
  constructor
  · decide +kernel
  · decide +kernel

end TableKeys.Template
