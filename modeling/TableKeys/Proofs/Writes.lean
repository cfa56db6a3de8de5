/-
# What the snippets for writing do

Each snippet is followed on a scene: what it makes of the scene, and that it ends well. The
input laid over the default values (`Scene.overlay`) is the map of default values itself if
there is one, or else a map of its own; both are told apart from the input, so that what is
put into the input later does not change them.

* `exec_mergeInputsAndDefaults`: the input is laid over the default values;
* `exec_recordOverride`: the schema name of a synthetic attribute is noted;
* `exec_writeComposite`: the value of a composite key is put into the input, or not;
* `exec_ensureCompositeKey`: both for one key.
-/
import TableKeys.Proofs.Composite

namespace TableKeys.Template

open Snippet

/-! ## The input over the default values -/

namespace Scene

lemma setMap_eq_self {sc : Scene} {p : Part} {es : Entries MapKey Data}
    (h : sc.maps p = some es) : sc.setMap p es = sc := by
  have hmaps : (fun q => if q = p then some es else sc.maps q) = sc.maps := by
    funext q
    split
    · rename_i hq
      rw [hq, h]
    · rfl
  rw [setMap, hmaps]

lemma setMap_setMap (sc : Scene) (p : Part) (es fs : Entries MapKey Data) :
    (sc.setMap p es).setMap p fs = sc.setMap p fs := by
  simp only [setMap, Scene.mk.injEq, true_and, and_true]
  funext q
  split <;> rfl

/-- The part that the merged values are. -/
def target (sc : Scene) : Part :=
  if (sc.maps .defaults).isSome then .defaults else .merged

/-- The input laid over the default values. -/
def overlay (sc : Scene) : Entries MapKey Data :=
  ((sc.maps .defaults).getD []).putAll ((sc.maps .input).getD [])

/-- The scene with the input laid over the default values. -/
def merge (sc : Scene) : Scene :=
  sc.setMap sc.target sc.overlay

lemma target_ne_input (sc : Scene) : sc.target ≠ .input := by
  unfold target
  split <;> simp

lemma target_setMap (sc : Scene) (p : Part) (es : Entries MapKey Data)
    (h : p = .defaults → (sc.maps .defaults).isSome) : (sc.setMap p es).target = sc.target := by
  unfold target
  by_cases hp : p = .defaults
  · rw [hp, setMap_self, if_pos (h hp)]
    simp
  · rw [setMap_of_ne sc es (Ne.symm hp)]

/-- The merged values are the input laid over the default values. -/
lemma merge_target (sc : Scene) : sc.merge.maps sc.merge.target = some sc.overlay := by
  have htarget : sc.merge.target = sc.target := by
    refine target_setMap sc sc.target sc.overlay fun hd => ?_
    unfold target at hd
    split at hd
    · assumption
    · cases hd
  rw [htarget, merge, setMap_self]

lemma overlay_scene (r : Request) : r.scene.overlay = r.merged := rfl

lemma merge_input (sc : Scene) : sc.merge.maps .input = sc.maps .input :=
  setMap_of_ne sc _ sc.target_ne_input.symm

end Scene

namespace Machine

/-- The machine holds the scene in some cells. -/
def Stages (m : Machine) (sc : Scene) : Prop :=
  ∃ l, m.Holds l sc

/-- The machine holds the scene, and the template knows the merged values. -/
def Merged (m : Machine) (sc : Scene) : Prop :=
  ∃ l, m.Holds l sc ∧
    m.bindings.get? mergedValues = some (.ref (l.cell (.map sc.target)))

lemma Merged.stages {m : Machine} {sc : Scene} (h : m.Merged sc) : m.Stages sc := by
  obtain ⟨l, hl, -⟩ := h
  exact ⟨l, hl⟩

lemma Holds.setVariable {m : Machine} {l : Layout} {sc : Scene} (h : m.Holds l sc)
    {name : String} (hname : name ≠ "ctx") (v : Value) :
    Machine.Holds { m with bindings := m.bindings.put name v } l sc := by
  refine ⟨h.store, h.context, ?_, h.output⟩
  rw [Entries.get?_put_of_ne _ _ (by simpa using hname)]
  exact h.bound

lemma Merged.extend {m m' : Machine} {sc : Scene} (h : m.Merged sc) (hm : m.Extends m') :
    m'.Merged sc := by
  obtain ⟨l, hl, hmerged⟩ := h
  exact ⟨l, hl.extend hm, by rw [hm.bindings, hmerged]⟩

lemma Merged.setVariable {m : Machine} {sc : Scene} (h : m.Merged sc) {name : String}
    (hctx : name ≠ "ctx") (hmerged : name ≠ mergedValues) (v : Value) :
    Machine.Merged { m with bindings := m.bindings.put name v } sc := by
  obtain ⟨l, hl, hvalues⟩ := h
  exact ⟨l, hl.setVariable hctx v,
    by rw [Entries.get?_put_of_ne _ _ (by simpa using hmerged), hvalues]⟩

end Machine

section Statements

variable {separator : String} {m m' : Machine} {l : Layout} {sc : Scene}

lemma exec_set_variable {name : String} {value : Expr} {v : Value} (hname : '.' ∉ name.toList)
    (hv : value.eval separator m = .ok v m') :
    (Stmt.set (.ref name) value).exec separator m =
      .ok () { m' with bindings := m'.bindings.put name v } := by
  rw [Stmt.exec, Expr.pathOf, Run.bind_ok (Run.pure_apply _), Run.bind_ok hv, pathText,
    Run.bind_ok (Run.pure_apply _), assign, splitLast_of_notMem hname]
  rfl

lemma eval_defaultIfNull_present {e default : Expr} {v : Value}
    (hv : e.eval separator m = .ok v m') (hnull : v.isNull = false) :
    (Expr.defaultIfNull e default).eval separator m = .ok v m' := by
  rw [Expr.eval, Run.bind_ok hv, hnull]
  rfl

lemma eval_defaultIfNull_null {e default : Expr} {v : Value}
    (hv : e.eval separator m = .ok v m') (hnull : v.isNull = true) :
    (Expr.defaultIfNull e default).eval separator m = default.eval separator m' := by
  rw [Expr.eval, Run.bind_ok hv, if_pos hnull]

lemma eval_emptyObject (separator : String) (m : Machine) :
    ∃ (a : Address) (m' : Machine), (Expr.object []).eval separator m = .ok (.ref a) m' ∧
      m.Extends m' ∧ m.store.cells.size ≤ a ∧ m'.store.get? a = some (.map []) := by
  have hnil : RowOf (Yields separator m) ([] : List (String × Expr)) [] := .nil
  obtain ⟨a, ws, m', heval, hm, ha, hcell, row⟩ := eval_object hnil
  obtain rfl : ws = [] := by
    cases row
    rfl
  exact ⟨a, m', heval, hm, ha, hcell⟩

/-- The first half of a merge: the default values get their name. -/
lemma exec_nameDefaults (h : m.Stages sc) :
    ((Stmt.set (.ref mergedValues) (.defaultIfNull (.ref "ctx.stash.defaultValues")
      (.object []))).exec separator).Reaches m fun m' =>
        m'.Merged (sc.setMap sc.target ((sc.maps .defaults).getD [])) := by
  obtain ⟨l, hl⟩ := h
  have hname : '.' ∉ mergedValues.toList := by decide
  have hctx : mergedValues ≠ "ctx" := by decide
  have hpath : (Expr.ref "ctx.stash.defaultValues").eval separator m =
      .ok (l.value sc .defaults) m := eval_ref hl.resolve_defaults
  -- the default values are changed in place; where there are none, a new map is made
  cases hd : sc.maps .defaults with
  | some d =>
    rw [Layout.value_of_some hd] at hpath
    have htarget : sc.target = .defaults := by simp [Scene.target, hd]
    refine ⟨_, exec_set_variable hname (eval_defaultIfNull_present hpath rfl), l, ?_, ?_⟩
    · rw [htarget, Option.getD_some, Scene.setMap_eq_self hd]
      exact hl.setVariable hctx _
    · rw [htarget, Option.getD_some, Scene.setMap_eq_self hd, htarget]
      exact Entries.get?_put_self _ _ _
  | none =>
    rw [Layout.value_of_none hd] at hpath
    obtain ⟨a, m', heval, hm, ha, hcell⟩ := eval_emptyObject separator m
    have htarget : sc.target = .merged := by simp [Scene.target, hd]
    have hstore : (l.move .merged a).Holds m'.store (sc.setMap .merged []) :=
      hl.store.adopt_merged hm.store ha hcell .nil
    have hholds : m'.Holds (l.move .merged a) (sc.setMap .merged []) := by
      refine ⟨hstore, hm.context.trans hl.context, ?_, hm.output.trans hl.output⟩
      rw [hm.bindings]
      exact hl.bound
    refine ⟨_, exec_set_variable hname ((eval_defaultIfNull_null hpath rfl).trans heval),
      l.move .merged a, ?_, ?_⟩
    · rw [htarget]
      exact hholds.setVariable hctx _
    · have htarget' : (sc.setMap .merged []).target = .merged := by
        rw [Scene.target_setMap sc .merged [] (by simp), htarget]
      rw [htarget, Option.getD_none, htarget', Layout.move_self]
      exact Entries.get?_put_self _ _ _

/-- The second half of a merge: the input is put in. -/
lemma exec_putInput (separator : String) {es inp : Entries MapKey Data} (h : m.Merged sc)
    (hes : sc.maps sc.target = some es) (hinput : sc.maps .input = some inp) :
    ((Stmt.putAll (.ref mergedValues) (.defaultIfNull (.ref inputPath)
      (.object []))).exec separator).Reaches m fun m' =>
        m'.Merged (sc.setMap sc.target (es.putAll inp)) := by
  obtain ⟨l, hl, hmerged⟩ := h
  obtain ⟨ws, hc, row⟩ := hl.store.content_map hes
  obtain ⟨us, hc', row'⟩ := hl.store.content_map hinput
  have hpath : resolve m.store m.bindings mergedValues = .ok (.ref (l.cell (.map sc.target))) := by
    rw [resolve_variable m.store m.bindings (by decide), hmerged]
    rfl
  have hvalue : (Expr.defaultIfNull (.ref inputPath) (.object [])).eval separator m =
      .ok (.ref (l.cell (.map .input))) m :=
    eval_defaultIfNull_present (eval_ref (hl.resolve_input (by simp [hinput]))) rfl
  have hentries : m.store.entries? (.ref (l.cell (.map .input))) = some us := by
    rw [Store.entries?, hc']
  have hmerge : merge (l.cell (.map sc.target)) (.ref (l.cell (.map .input))) m = .ok ()
      { m with store := m.store.set (l.cell (.map sc.target)) (.map (ws.putAll us)) } := by
    rw [merge, Run.get_bind, hentries]
    exact mergeEntries_apply hc us
  have hholds := hl.store.setMap hes (rowOf_putAll row row')
  refine ⟨{ m with store := m.store.set (l.cell (.map sc.target)) (.map (ws.putAll us)) }, ?_, l,
    ⟨hholds, hl.context, hl.bound, hl.output⟩, ?_⟩
  · rw [Stmt.exec, Expr.pathOf, Run.bind_ok (Run.pure_apply _), pathText,
      Run.bind_ok (Run.pure_apply _), Run.bind_ok (mapAt_ok hpath hc), Run.bind_ok hvalue]
    exact hmerge
  · rw [Scene.target_setMap sc sc.target _ fun hd => by rw [← hd, hes]; rfl]
    exact hmerged

/-- **A merge lays the input over the default values.** -/
theorem exec_mergeInputsAndDefaults (separator : String) (h : m.Stages sc)
    (hinput : (sc.maps .input).isSome) :
    (mergeInputsAndDefaults.exec separator).Reaches m fun m' => m'.Merged sc.merge := by
  obtain ⟨inp, hinp⟩ := Option.isSome_iff_exists.mp hinput
  rw [mergeInputsAndDefaults, Stmt.exec]
  refine execAll_cons (exec_nameDefaults h) fun m₁ h₁ => ?_
  set base := (sc.maps .defaults).getD []
  have htarget : (sc.setMap sc.target base).target = sc.target := by
    refine Scene.target_setMap sc sc.target base fun hd => ?_
    unfold Scene.target at hd
    split at hd
    · assumption
    · cases hd
  have hmap : (sc.setMap sc.target base).maps (sc.setMap sc.target base).target = some base := by
    rw [htarget, Scene.setMap_self]
  have hinp' : (sc.setMap sc.target base).maps .input = some inp := by
    rw [Scene.setMap_of_ne _ _ sc.target_ne_input.symm, hinp]
  rw [Run.Reaches, execAll_singleton]
  have hput := exec_putInput separator h₁ hmap hinp'
  rw [htarget, Scene.setMap_setMap] at hput
  rw [Scene.merge, Scene.overlay, hinp]
  exact hput

end Statements

/-! ## The names of synthetic attributes -/

section Overrides

variable {separator : String} {m : Machine} {l : Layout} {sc : Scene}

lemma partOf_ok {a : Address} {kind : RecordKind} {fields : Entries Field Value} {field : Field}
    {v : Value} (hc : m.store.get? a = some (.record kind fields))
    (hfield : kind.fields.contains field = true) (hv : fields.get? field = some v) :
    partOf (.ref a) field m = .ok v m := by
  rw [partOf, Run.get_bind, Store.record?, hc]
  simp only [hfield, if_true, hv]
  rfl

/-- The resolver metadata are found through the context. -/
lemma metadataField_ok (h : m.Holds l sc) {name : String} {field : Field}
    (hfield : RecordKind.metadata.field? name = some field) :
    metadataField name m = .ok (l.cell .metadata, field) m := by
  obtain ⟨_, hc, r, e, rfl, -⟩ := h.store.content .context trivial
  obtain ⟨_, hs, rfl⟩ := h.store.content .stash trivial
  obtain ⟨_, hm, k, q, rfl, -⟩ := h.store.content .metadata trivial
  rw [metadataField, Run.get_bind, h.bound, Option.getD_some,
    Run.bind_ok (partOf_ok hc rfl rfl), Run.bind_ok (partOf_ok hs rfl rfl), Run.get_bind,
    Store.record?, hm]
  simp only [hfield]
  rfl

lemma exec_metadataPut {name : String} {value : Expr} {field : Field} {m' : Machine} {v : Value}
    {fields : Entries Field Value} (h : m.Holds l sc)
    (hfield : RecordKind.metadata.field? name = some field)
    (hv : value.eval separator m = .ok v m')
    (hc : m'.store.get? (l.cell .metadata) = some (.record .metadata fields)) :
    (Stmt.metadataPut name value).exec separator m = .ok () { m' with
      store := m'.store.set (l.cell .metadata) (.record .metadata (fields.put field v)) } := by
  rw [Stmt.exec, Run.bind_ok (metadataField_ok h hfield)]
  simp only
  rw [Run.bind_ok hv]
  exact putField_apply hc field v

lemma exec_metadataPut_error {name : String} {value : Expr} {field : Field} {m' : Machine}
    {e : Failure} (h : m.Holds l sc) (hfield : RecordKind.metadata.field? name = some field)
    (hv : value.eval separator m = .error e m') :
    (Stmt.metadataPut name value).exec separator m = .error e m' := by
  rw [Stmt.exec, Run.bind_ok (metadataField_ok h hfield)]
  simp only
  rw [Run.bind_error hv]

lemma yields_text {s : String} (h : '$' ∉ s.toList) :
    Yields separator m (.text s) (.text s) :=
  fun m₁ _ => ⟨.text s, m₁, eval_text_plain h, .refl m₁, shows_scalar.mpr rfl⟩

/-- The scene with the schema name of a synthetic attribute. -/
def Scene.override (sc : Scene) (synthetic argument : String) : Scene :=
  sc.setMap .overrides
    (((sc.maps .overrides).getD []).put (.text synthetic) (.text argument))

lemma Scene.target_override (sc : Scene) (synthetic argument : String) :
    (sc.override synthetic argument).target = sc.target :=
  Scene.target_setMap _ _ _ (by simp)

lemma Scene.override_maps (sc : Scene) (synthetic argument : String) {p : Part}
    (h : p ≠ .overrides) : (sc.override synthetic argument).maps p = sc.maps p :=
  Scene.setMap_of_ne sc _ h

lemma eval_isNull_overrides (separator : String) (hl : m.Holds l sc) :
    (Expr.isNull nameOverrides).eval separator m =
      .ok (.bool (l.value sc .overrides).isNull) m := by
  rw [Expr.eval, nameOverrides, Run.bind_ok (eval_ref hl.resolve_overrides)]
  rfl

/-- The first schema name that is noted is put into the metadata with a new map. -/
lemma exec_recordOverride_first {synthetic argument : String} (h : m.Merged sc)
    (ho : sc.maps .overrides = none) (hargument : '$' ∉ argument.toList) :
    ((recordOverride synthetic argument).exec separator).Reaches m fun m' =>
      m'.Merged (sc.override synthetic argument) ∧ m'.bindings = m.bindings := by
  obtain ⟨l, hl, hmerged⟩ := h
  have hcondition := eval_isNull_overrides separator hl
  rw [Layout.value_of_none ho] at hcondition
  -- a new map is put into the metadata, so the cell of the overrides moves
  have hrow : RowOf (Yields separator m) [(synthetic, Expr.text argument)]
      [(synthetic, .text argument)] := .cons ⟨rfl, yields_text hargument⟩ .nil
  obtain ⟨a, ws, m', heval, hm, ha, hcell, row⟩ := eval_object hrow
  obtain ⟨fields, hfields, hstore⟩ := hl.store.adopt_overrides hm.store ha hcell row
  have hput := exec_metadataPut hl (show RecordKind.metadata.field? nameOverridesName =
    some .nameOverrides by decide) heval hfields
  refine ⟨_, ((exec_choice_true hcondition rfl).trans (execBranch_singleton (by simp))).trans
    hput, ⟨l.move .overrides a, ⟨?_, hm.context.trans hl.context, ?_, hm.output.trans hl.output⟩,
      ?_⟩, hm.bindings⟩
  · rw [Scene.override, ho]
    exact hstore
  · show m'.bindings.get? "ctx" = _
    rw [hm.bindings]
    exact hl.bound
  · show m'.bindings.get? mergedValues = _
    rw [hm.bindings, Scene.target_override, Layout.move_of_ne]
    · exact hmerged
    · unfold Scene.target
      split <;> simp

/-- A further schema name is put into the map that is there, under what the name of the attribute
becomes as a text. -/
lemma exec_recordOverride_further {synthetic argument key : String} {es : Entries MapKey Data}
    {log : List Event} (h : m.Merged sc) (ho : sc.maps .overrides = some es)
    (hargument : '$' ∉ argument.toList)
    (hkey : (Expr.text synthetic).eval separator m = .ok (.text key) { m with log := log }) :
    ((recordOverride synthetic argument).exec separator).Reaches m fun m' =>
      m'.Merged (sc.override key argument) ∧ m'.bindings = m.bindings := by
  obtain ⟨l, hl, hmerged⟩ := h
  have hcondition := eval_isNull_overrides separator hl
  rw [Layout.value_of_some ho] at hcondition
  obtain ⟨ws, hc, row⟩ := hl.store.content_map ho
  have hpath := hl.resolve_overrides
  rw [Layout.value_of_some ho] at hpath
  have hput := exec_mapPut_evaluated hpath hc (eval_text_plain hargument) (.refl m) hkey
    (.of_log log)
  have hstore := hl.store.setMap ho (rowOf_put row (.text key)
    (shows_scalar.mpr rfl : Shows m.store (fun a => ¬ l.Named sc a) (.text argument) _))
  refine ⟨_, ((exec_choice_false hcondition rfl).trans (execBranch_singleton (by simp))).trans
    hput, ⟨l, ⟨?_, hl.context, hl.bound, hl.output⟩, ?_⟩, rfl⟩
  · rw [Scene.override, ho]
    exact hstore
  · rw [Scene.target_override]
    exact hmerged

/-- **The schema name of a synthetic attribute is noted**, in a new map if there is none yet. -/
theorem exec_recordOverride {synthetic argument : String} (h : m.Merged sc)
    (hsynthetic : '$' ∉ synthetic.toList) (hargument : '$' ∉ argument.toList) :
    ((recordOverride synthetic argument).exec separator).Reaches m fun m' =>
      m'.Merged (sc.override synthetic argument) ∧ m'.bindings = m.bindings := by
  cases ho : sc.maps .overrides with
  | none => exact exec_recordOverride_first h ho hargument
  | some es => exact exec_recordOverride_further h ho hargument (eval_text_plain hsynthetic)

/-- If the name of the attribute is no plain text, the schema name is noted under the name as it is
or as it becomes. -/
lemma recordOverride_merged {synthetic argument : String} {m' : Machine} (h : m.Merged sc)
    (hargument : '$' ∉ argument.toList)
    (hrun : (recordOverride synthetic argument).exec separator m = .ok () m') :
    ∃ key, m'.Merged (sc.override key argument) ∧ m'.bindings = m.bindings := by
  have hreached : ∀ {key}, ((recordOverride synthetic argument).exec separator).Reaches m (fun m' =>
      m'.Merged (sc.override key argument) ∧ m'.bindings = m.bindings) →
      m'.Merged (sc.override key argument) ∧ m'.bindings = m.bindings := by
    rintro key ⟨m'', hrun', h''⟩
    obtain ⟨-, rfl⟩ := EStateM.Result.ok.inj (hrun.symm.trans hrun')
    exact h''
  cases ho : sc.maps .overrides with
  | none => exact ⟨synthetic, hreached (exec_recordOverride_first h ho hargument)⟩
  | some es =>
    rcases eval_text_cases separator m synthetic with ⟨key, log, hkey⟩ | ⟨f, hkey⟩
    · exact ⟨key, hreached (exec_recordOverride_further h ho hargument hkey)⟩
    · -- the name does not become a text, so the run would not have gone well
      exfalso
      obtain ⟨l, hl, -⟩ := h
      have hcondition := eval_isNull_overrides separator hl
      have hpath := hl.resolve_overrides
      rw [Layout.value_of_some ho] at hcondition hpath
      obtain ⟨ws, hc, -⟩ := hl.store.content_map ho
      have hvalue : (Expr.text argument).eval separator m = .ok (.text argument) m :=
        eval_text_plain hargument
      have hput := exec_mapPut_key_error hpath hc hvalue hkey
      rw [recordOverride, exec_choice_false hcondition rfl, execBranch_singleton (by simp),
        nameOverrides, hput] at hrun
      cases hrun

end Overrides

/-! ## The values of synthetic attributes -/

section Composites

variable {separator : String} {m : Machine} {sc : Scene} {o : Options} {fields : List String}
  {es inp : Entries MapKey Data} {synthetic : String}

lemma Machine.Merged.resolve_merged (h : m.Merged sc) (hes : sc.maps sc.target = some es) :
    ∃ v, resolve m.store m.bindings mergedValues = .ok v ∧
      Shows m.store (fun _ => True) (.map es) v := by
  obtain ⟨l, hl, hmerged⟩ := h
  refine ⟨.ref (l.cell (.map sc.target)), ?_, ?_⟩
  · rw [resolve_variable m.store m.bindings (by decide), hmerged]
    rfl
  · have hpart := hl.store.shows_part sc.target
    rw [Scene.part, hes, Layout.value_of_some hes] at hpart
    exact hpart

/-- The template of a composite key, evaluated on the merged values. -/
lemma Machine.Merged.eval_composite (separator : String) (h : m.Merged sc)
    (hes : sc.maps sc.target = some es) (hsep : '$' ∉ o.keySeparator.toList) (hne : fields ≠ [])
    (hfields : ∀ f ∈ fields, isSchemaName f = true) :
    match shownComposite o mergedValues es fields with
    | .ok t => ∃ log, (Expr.text (compositeTemplate o mergedValues fields)).eval separator m =
        .ok (.text t) { m with log := log }
    | .error f => (Expr.text (compositeTemplate o mergedValues fields)).eval separator m =
        .error (.fault f) m := by
  obtain ⟨v, hpath, hv⟩ := h.resolve_merged hes
  exact Template.eval_composite separator (show isBracedPath mergedValues.toList = true by decide)
    hsep hne hfields hpath hv

/-- The scene with the value of a synthetic attribute in the input. -/
def Scene.putInput (sc : Scene) (synthetic : String) (d : Data) : Scene :=
  sc.setMap .input (((sc.maps .input).getD []).put (.text synthetic) d)

lemma Scene.target_putInput (sc : Scene) (synthetic : String) (d : Data) :
    (sc.putInput synthetic d).target = sc.target :=
  Scene.target_setMap _ _ _ (by simp)

lemma Scene.putInput_input (h : sc.maps .input = some inp) (synthetic : String) (d : Data) :
    (sc.putInput synthetic d).maps .input = some (inp.put (.text synthetic) d) := by
  rw [putInput, setMap_self, h]
  rfl

/-- A text is put into the input, under the text that the name becomes. -/
lemma exec_putText {value : Expr} {key t : String} {log log' : List Event} (h : m.Merged sc)
    (hinp : sc.maps .input = some inp)
    (hvalue : value.eval separator m = .ok (.text t) { m with log := log })
    (hkey : (Expr.text synthetic).eval separator { m with log := log } =
      .ok (.text key) { m with log := log' }) :
    ((Stmt.mapPut (.ref inputPath) (.text synthetic) value).exec separator).Reaches m fun m' =>
      m'.Merged (sc.putInput key (.text t)) ∧ m'.bindings = m.bindings := by
  obtain ⟨l, hl, hmerged⟩ := h
  obtain ⟨ws, hc, row⟩ := hl.store.content_map hinp
  have hput := exec_mapPut_evaluated (hl.resolve_input (by simp [hinp])) hc hvalue (.of_log log)
    hkey ⟨.refl _, rfl, rfl, rfl⟩
  have hstore := hl.store.setMap hinp (rowOf_put row (.text key)
    (shows_scalar.mpr rfl : Shows m.store (fun a => ¬ l.Named sc a) (.text t) _))
  refine ⟨_, hput, ⟨l, ⟨?_, hl.context, hl.bound, hl.output⟩, ?_⟩, rfl⟩
  · rw [Scene.putInput, hinp]
    exact hstore
  · rw [Scene.target_putInput]
    exact hmerged

/-- The value of a composite key is put into the input, unless it cannot be written as a text. -/
theorem exec_putComposite (separator : String) (h : m.Merged sc)
    (hes : sc.maps sc.target = some es) (hinp : sc.maps .input = some inp)
    (hsep : '$' ∉ o.keySeparator.toList) (hne : fields ≠ [])
    (hfields : ∀ f ∈ fields, isSchemaName f = true) (hsynthetic : '$' ∉ synthetic.toList) :
    match shownComposite o mergedValues es fields with
    | .ok t => ((Stmt.mapPut (.ref inputPath) (.text synthetic)
        (.text (compositeTemplate o mergedValues fields))).exec separator).Reaches m fun m' =>
          m'.Merged (sc.putInput synthetic (.text t)) ∧ m'.bindings = m.bindings
    | .error f => (Stmt.mapPut (.ref inputPath) (.text synthetic)
        (.text (compositeTemplate o mergedValues fields))).exec separator m =
          .error (.fault f) m := by
  have heval := h.eval_composite separator hes hsep hne hfields
  cases hshown : shownComposite o mergedValues es fields with
  | error f =>
    rw [hshown] at heval
    obtain ⟨l, hl, -⟩ := h
    obtain ⟨ws, hc, -⟩ := hl.store.content_map hinp
    exact exec_mapPut_error (hl.resolve_input (by simp [hinp])) hc heval
  | ok t =>
    rw [hshown] at heval
    obtain ⟨log, hlog⟩ := heval
    exact exec_putText h hinp hlog (eval_text_plain hsynthetic)

/-- If the name of the attribute is no plain text, the value is put into the input under what the
name becomes. -/
lemma putComposite_merged {m' : Machine} (h : m.Merged sc) (hes : sc.maps sc.target = some es)
    (hinp : sc.maps .input = some inp) (hsep : '$' ∉ o.keySeparator.toList) (hne : fields ≠ [])
    (hfields : ∀ f ∈ fields, isSchemaName f = true)
    (hrun : (Stmt.mapPut (.ref inputPath) (.text synthetic)
      (.text (compositeTemplate o mergedValues fields))).exec separator m = .ok () m') :
    ∃ key t, shownComposite o mergedValues es fields = .ok t ∧
      m'.Merged (sc.putInput key (.text t)) := by
  have heval := h.eval_composite separator hes hsep hne hfields
  obtain ⟨l, hl, -⟩ := id h
  obtain ⟨ws, hc, -⟩ := hl.store.content_map hinp
  have hinput := hl.resolve_input (by simp [hinp])
  cases hshown : shownComposite o mergedValues es fields with
  | error f =>
    rw [hshown] at heval
    rw [exec_mapPut_error hinput hc heval] at hrun
    cases hrun
  | ok t =>
    rw [hshown] at heval
    obtain ⟨log, hlog⟩ := heval
    rcases eval_text_cases separator { m with log := log } synthetic with
      ⟨key, log', hkey⟩ | ⟨f, hkey⟩
    · obtain ⟨m'', hrun', h'', -⟩ := exec_putText h hinp hlog hkey
      obtain ⟨-, rfl⟩ := EStateM.Result.ok.inj (hrun.symm.trans hrun')
      exact ⟨key, t, rfl, h''⟩
    · rw [exec_mapPut_key_error hinput hc hlog hkey] at hrun
      cases hrun

/-! ## Synthetic attributes -/

/-- The value of a composite key is to be written: always, or since the input has a field of it. -/
def Machine.Writing (m : Machine) (conditionally : Bool) : Prop :=
  conditionally = true → m.bindings.get? hasSeenSomeKeyArg = some (.bool true)

lemma exec_writeComposite_eq {template : String} {conditionally : Bool}
    (h : m.Writing conditionally) :
    (writeComposite synthetic template conditionally).exec separator m =
      (Stmt.mapPut (.ref inputPath) (.text synthetic) (.text template)).exec separator m := by
  cases conditionally with
  | false => rfl
  | true =>
    have hseen : (Expr.ref hasSeenSomeKeyArg).eval separator m = .ok (.bool true) m :=
      eval_ref (by rw [resolve_variable m.store m.bindings (by decide), h rfl]; rfl)
    rw [writeComposite, if_pos rfl, exec_choice_true hseen rfl, execBranch_singleton (by simp)]

lemma exec_writeComposite_skip {template : String}
    (h : m.bindings.get? hasSeenSomeKeyArg = some (.bool false)) :
    (writeComposite synthetic template true).exec separator m = .ok () m := by
  have hseen : (Expr.ref hasSeenSomeKeyArg).eval separator m = .ok (.bool false) m :=
    eval_ref (by rw [resolve_variable m.store m.bindings (by decide), h]; rfl)
  rw [writeComposite, if_pos rfl, exec_choice_none hseen rfl]

/-- The statements that keep the synthetic attribute of a composite key. -/
def compositeUpkeep (k : KeyDecl) (conditionally : Bool) (o : Options) : Stmt :=
  .compound [recordOverride (compositeName o k.sortFields) (compositeArgument k.sortFields),
    writeComposite (compositeName o k.sortFields)
      (compositeTemplate o mergedValues k.sortFields) conditionally]

lemma ensureCompositeKey_eq {k : KeyDecl} (hcomposite : k.isComposite = true)
    (conditionally : Bool) (o : Options) :
    ensureCompositeKey k conditionally o = some (compositeUpkeep k conditionally o) :=
  if_pos hcomposite

/-- The scene with the schema name of a composite key. -/
def Scene.noted (sc : Scene) (k : KeyDecl) (o : Options) : Scene :=
  sc.override (compositeName o k.sortFields) (compositeArgument k.sortFields)

lemma Scene.noted_maps (sc : Scene) (k : KeyDecl) (o : Options) {p : Part} (h : p ≠ .overrides) :
    (sc.noted k o).maps p = sc.maps p :=
  sc.override_maps _ _ h

lemma Scene.noted_target (sc : Scene) (k : KeyDecl) (o : Options) :
    (sc.noted k o).target = sc.target :=
  sc.target_override _ _

lemma Scene.target_ne_overrides (sc : Scene) : sc.target ≠ .overrides := by
  unfold Scene.target
  split <;> simp

variable {k : KeyDecl} {conditionally : Bool}

/-- **The synthetic attribute of a composite key is written**, or there is no text for it. -/
theorem exec_ensureCompositeKey (separator : String) (h : m.Merged sc) (hk : k.Plain o)
    (hcomposite : k.isComposite = true) (hwriting : m.Writing conditionally)
    (hes : sc.maps sc.target = some es) (hinp : sc.maps .input = some inp) :
    match shownComposite o mergedValues es k.sortFields with
    | .ok t => ((compositeUpkeep k conditionally o).exec separator).Reaches m fun m' =>
        m'.Merged ((sc.noted k o).putInput (compositeName o k.sortFields) (.text t)) ∧
          m'.bindings = m.bindings
    | .error f => ∃ m',
        (compositeUpkeep k conditionally o).exec separator m = .error (.fault f) m' := by
  have hne : k.sortFields ≠ [] := by
    intro hnil
    have hlen : 1 < k.sort.length := by simpa [KeyDecl.isComposite] using hcomposite
    rw [List.map_eq_nil_iff.mp hnil] at hlen
    cases hlen
  obtain ⟨m₁, hnote, hm₁, hbindings⟩ :=
    exec_recordOverride h hk.compositeName (notMem_compositeArgument k.sortFields)
  have hwriting₁ : m₁.Writing conditionally := by
    rw [Machine.Writing, hbindings]
    exact hwriting
  have hes₁ : (sc.noted k o).maps (sc.noted k o).target = some es := by
    rw [Scene.noted_target, Scene.noted_maps _ _ _ sc.target_ne_overrides, hes]
  have hinp₁ : (sc.noted k o).maps .input = some inp := by
    rw [Scene.noted_maps _ _ _ (by simp), hinp]
  have hput := exec_putComposite separator hm₁ hes₁ hinp₁ hk.keySeparator hne hk.sortFields
    hk.compositeName
  -- the condition of the template holds, so it comes to a single entry
  have hrun : (compositeUpkeep k conditionally o).exec separator m =
      (Stmt.mapPut (.ref inputPath) (.text (compositeName o k.sortFields))
        (.text (compositeTemplate o mergedValues k.sortFields))).exec separator m₁ := by
    rw [compositeUpkeep, Stmt.exec, execAll_cons_ok hnote, execAll_singleton,
      exec_writeComposite_eq hwriting₁]
  cases hshown : shownComposite o mergedValues es k.sortFields with
  | error f =>
    rw [hshown] at hput
    exact ⟨m₁, hrun.trans hput⟩
  | ok t =>
    rw [hshown] at hput
    obtain ⟨m₂, hexec, hm₂, hbindings₂⟩ := hput
    exact ⟨m₂, hrun.trans hexec, hm₂, hbindings₂.trans hbindings⟩

/-- If the upkeep goes well, the synthetic attribute is in the input, whatever its name is. -/
lemma compositeUpkeep_merged {m' : Machine} (h : m.Merged sc)
    (hsep : '$' ∉ o.keySeparator.toList) (hne : k.sortFields ≠ [])
    (hfields : ∀ f ∈ k.sortFields, isSchemaName f = true) (hwriting : m.Writing conditionally)
    (hes : sc.maps sc.target = some es) (hinp : sc.maps .input = some inp)
    (hrun : (compositeUpkeep k conditionally o).exec separator m = .ok () m') :
    ∃ sc' name t, shownComposite o mergedValues es k.sortFields = .ok t ∧ m'.Merged sc' ∧
      sc'.maps .input = some (inp.put (.text name) (.text t)) := by
  rw [compositeUpkeep, Stmt.exec] at hrun
  cases hnote : (recordOverride (compositeName o k.sortFields)
      (compositeArgument k.sortFields)).exec separator m with
  | error e m₁ =>
    rw [execAll_cons_error hnote] at hrun
    cases hrun
  | ok _ m₁ =>
    rw [execAll_cons_ok hnote, execAll_singleton] at hrun
    obtain ⟨key, hm₁, hbindings⟩ :=
      recordOverride_merged h (notMem_compositeArgument k.sortFields) hnote
    have hes₁ := (sc.override_maps key (compositeArgument k.sortFields)
      sc.target_ne_overrides).trans hes
    rw [← sc.target_override key (compositeArgument k.sortFields)] at hes₁
    have hinp₁ := (sc.override_maps key (compositeArgument k.sortFields) (by simp)).trans hinp
    have hwriting₁ : m₁.Writing conditionally := by
      rw [Machine.Writing, hbindings]
      exact hwriting
    rw [exec_writeComposite_eq hwriting₁] at hrun
    obtain ⟨name, t, ht, hm'⟩ := putComposite_merged hm₁ hes₁ hinp₁ hsep hne hfields hrun
    exact ⟨_, name, t, ht, hm', Scene.putInput_input hinp₁ name _⟩

/-- Without a field of the key in the input nothing but the schema name is noted. -/
lemma exec_ensureCompositeKey_skip (separator : String) (h : m.Merged sc) (hk : k.Plain o)
    (hseen : m.bindings.get? hasSeenSomeKeyArg = some (.bool false)) :
    ((compositeUpkeep k true o).exec separator).Reaches m fun m' =>
      m'.Merged (sc.noted k o) ∧ m'.bindings = m.bindings := by
  obtain ⟨m₁, hnote, hm₁, hbindings⟩ :=
    exec_recordOverride h hk.compositeName (notMem_compositeArgument k.sortFields)
  refine ⟨m₁, ?_, hm₁, hbindings⟩
  rw [compositeUpkeep, Stmt.exec, execAll_cons_ok hnote, execAll_singleton,
    exec_writeComposite_skip (by rw [hbindings, hseen])]

end Composites

end TableKeys.Template
