/-
# Steps of a run

What the single steps of a run do, one statement for each: if the parts of an expression or a
statement do this, the whole does that. Expressions leave the cells that are there alone
(`Machine.Extends`); a put changes one cell.
-/
import TableKeys.Proofs.References
import TableKeys.Proofs.Shows
import Mathlib.Control.Lawful

namespace TableKeys.Template

attribute [local simp] Expr.eval evalEntries Stmt.exec execAll

variable {α β : Type} {separator : String} {m m' m'' : Machine}

namespace Run

lemma bind_ok {x : Run α} {f : α → Run β} {a : α} (h : x m = .ok a m') :
    (x >>= f) m = f a m' := by
  show EStateM.bind x f m = f a m'
  rw [EStateM.bind, h]

lemma bind_error {x : Run α} {f : α → Run β} {e : Failure} (h : x m = .error e m') :
    (x >>= f) m = .error e m' := by
  show EStateM.bind x f m = .error e m'
  rw [EStateM.bind, h]

lemma get_bind (f : Machine → Run β) : (get >>= f : Run β) m = f m m := rfl

lemma pure_apply (a : α) : (pure a : Run α) m = .ok a m := rfl

lemma ofExcept_ok {x : Except Fault α} {a : α} (h : x = .ok a) : ofExcept x m = .ok a m := by
  subst h
  rfl

lemma ofExcept_error {x : Except Fault α} {f : Fault} (h : x = .error f) :
    ofExcept x m = .error (.fault f) m := by
  subst h
  rfl

lemma read_apply (v : Value) : read v m = .ok (m.store.read v) m := rfl

lemma load_apply (d : Data) :
    load d m = .ok (m.store.load d).1 { m with store := (m.store.load d).2 } := rfl

lemma asKey_text (s : String) : asKey (.text s) m = .ok (.text s) m := rfl

end Run

/-! ## Machines that only grow -/

/-- There are more cells, and perhaps more is in the log; variables and context are the same. -/
structure Machine.Extends (m m' : Machine) : Prop where
  store : m.store.Extends m'.store
  context : m'.context = m.context
  bindings : m'.bindings = m.bindings
  output : m'.output = m.output

namespace Machine.Extends

lemma refl (m : Machine) : m.Extends m :=
  ⟨.refl _, rfl, rfl, rfl⟩

lemma trans (h : m.Extends m') (h' : m'.Extends m'') : m.Extends m'' :=
  ⟨h.store.trans h'.store, h'.context.trans h.context, h'.bindings.trans h.bindings,
    h'.output.trans h.output⟩

lemma of_store {s : Store} (h : m.store.Extends s) : m.Extends { m with store := s } :=
  ⟨h, rfl, rfl, rfl⟩

lemma of_log (log : List Event) : m.Extends { m with log := log } :=
  ⟨.refl _, rfl, rfl, rfl⟩

end Machine.Extends

/-! ## Interpolation -/

lemma interpolatePieces_of_pieceText {ps : List Piece} {cs : List Char}
    (h : pieceText m ps = .ok cs) : ∃ done, interpolatePieces m ps = .ok done ∧ done.text = cs := by
  unfold pieceText at h
  cases hd : interpolatePieces m ps with
  | error f =>
    rw [hd] at h
    cases h
  | ok done =>
    rw [hd] at h
    exact ⟨done, rfl, Except.ok.inj h⟩

/-- A text of whose pieces something can be made becomes that; the log may grow. -/
lemma interpolate_ok (separator : String) {s : String} {cs : List Char}
    (h : pieceText m (pieces s) = .ok cs) :
    ∃ log, interpolate separator s m = .ok (String.ofList cs) { m with log := log } := by
  obtain ⟨done, hdone, rfl⟩ := interpolatePieces_of_pieceText h
  simp only [interpolate, Run.get_bind]
  rw [Run.bind_ok (Run.ofExcept_ok hdone)]
  split
  · exact ⟨_, rfl⟩
  · exact ⟨m.log, rfl⟩

lemma interpolate_error {s : String} {f : Fault} (h : pieceText m (pieces s) = .error f) :
    interpolate separator s m = .error (.fault f) m := by
  have hpieces : interpolatePieces m (pieces s) = .error f := by
    unfold pieceText at h
    cases hd : interpolatePieces m (pieces s) with
    | error g =>
      rw [hd] at h
      exact congrArg Except.error (Except.error.inj h)
    | ok done =>
      rw [hd] at h
      cases h
  simp only [interpolate, Run.get_bind]
  exact Run.bind_error (Run.ofExcept_error hpieces)

lemma interpolatePieces_literals (cs : List Char) :
    interpolatePieces m (cs.map .literal) = .ok { text := cs } := by
  induction cs with
  | nil => rfl
  | cons c cs ih =>
    rw [List.map_cons, interpolatePieces, ih]
    rfl

/-- A text without references stays what it is. -/
lemma interpolate_plain {s : String} (h : '$' ∉ s.toList) :
    interpolate separator s m = .ok s m := by
  have hpieces : pieces s = s.toList.map .literal := by
    have hp := piecesFrom_literal h []
    simpa [pieces, piecesFrom] using hp
  simp only [interpolate, Run.get_bind, hpieces]
  rw [Run.bind_ok (Run.ofExcept_ok (interpolatePieces_literals s.toList))]
  simp [isAmbiguous, Run.pure_apply]

/-! ## Expressions -/

lemma resolve_ok {path : String} {v : Value}
    (h : Template.resolve m.store m.bindings path = .ok v) : Run.resolve path m = .ok v m := by
  rw [Run.resolve, Run.get_bind, h]
  rfl

lemma of_resolve_ok {path : String} {v : Value} (h : Run.resolve path m = .ok v m') :
    Template.resolve m.store m.bindings path = .ok v ∧ m = m' := by
  rw [Run.resolve, Run.get_bind] at h
  cases hpath : Template.resolve m.store m.bindings path with
  | error f =>
    rw [hpath] at h
    cases h
  | ok w =>
    rw [hpath] at h
    cases h
    exact ⟨rfl, rfl⟩

lemma eval_ref {path : String} {v : Value}
    (h : Template.resolve m.store m.bindings path = .ok v) :
    (Expr.ref path).eval separator m = .ok v m := by
  rw [Expr.eval]
  exact resolve_ok h

lemma eval_bool (b : Bool) : (Expr.bool b).eval separator m = .ok (.bool b) m := by
  rw [Expr.eval, Run.pure_apply]

lemma eval_text_plain {s : String} (h : '$' ∉ s.toList) :
    (Expr.text s).eval separator m = .ok (.text s) m := by
  rw [Expr.eval, Run.bind_ok (interpolate_plain h)]
  rfl

lemma eval_text_ok (separator : String) {s : String} {cs : List Char}
    (h : pieceText m (pieces s) = .ok cs) :
    ∃ log, (Expr.text s).eval separator m =
      .ok (.text (String.ofList cs)) { m with log := log } := by
  obtain ⟨log, hlog⟩ := interpolate_ok separator h
  exact ⟨log, by rw [Expr.eval, Run.bind_ok hlog]; rfl⟩

lemma eval_text_error {s : String} {f : Fault} (h : pieceText m (pieces s) = .error f) :
    (Expr.text s).eval separator m = .error (.fault f) m := by
  rw [Expr.eval, Run.bind_error (interpolate_error h)]

/-- A text becomes a text, or it ends the run and leaves the machine as it is. -/
lemma eval_text_cases (separator : String) (m : Machine) (s : String) :
    (∃ t log, (Expr.text s).eval separator m = .ok (.text t) { m with log := log }) ∨
      ∃ f, (Expr.text s).eval separator m = .error (.fault f) m := by
  cases h : pieceText m (pieces s) with
  | ok cs =>
    obtain ⟨log, hlog⟩ := eval_text_ok separator h
    exact Or.inl ⟨_, log, hlog⟩
  | error f => exact Or.inr ⟨f, eval_text_error h⟩

/-- The stored form of a value is put into new cells. -/
lemma eval_toAttribute {e : Expr} {v : Value} {a : AttributeValue}
    (h : e.eval separator m = .ok v m') (hstored : (m'.store.read v).stored = .ok a) :
    ∃ w s, (Expr.toAttribute e).eval separator m = .ok w { m' with store := s } ∧
      m'.store.Extends s ∧ Shows s m'.store.New a.data w := by
  obtain ⟨hs, hshows⟩ := m'.store.load_shows a.data
  refine ⟨_, _, ?_, hs, hshows⟩
  rw [Expr.eval, Run.bind_ok h]
  rw [toAttributeValue, Run.bind_ok (Run.read_apply v), Run.bind_ok (Run.ofExcept_ok hstored)]
  exact Run.load_apply a.data

lemma eval_toAttribute_fails {e : Expr} {v : Value} {f : Fault}
    (h : e.eval separator m = .ok v m') (hstored : (m'.store.read v).stored = .error f) :
    (Expr.toAttribute e).eval separator m = .error (.fault f) m' := by
  rw [Expr.eval, Run.bind_ok h, toAttributeValue, Run.bind_ok (Run.read_apply v),
    Run.bind_error (Run.ofExcept_error hstored)]

/-! ## New maps -/

/-- Wherever a run stands that only went on from here, the expression has a new value that
shows the data. -/
def Yields (separator : String) (m : Machine) (e : Expr) (d : Data) : Prop :=
  ∀ m₁, m.Extends m₁ → ∃ v m₂, e.eval separator m₁ = .ok v m₂ ∧ m₁.Extends m₂ ∧
    Shows m₂.store m₁.store.New d v

lemma evalEntries_yields {es : List (String × Expr)} {ds : List (String × Data)}
    (h : RowOf (Yields separator m) es ds) : ∀ m₁, m.Extends m₁ → ∃ vs m₂,
      evalEntries separator es m₁ = .ok vs m₂ ∧ m₁.Extends m₂ ∧
        RowOf (Shows m₂.store m₁.store.New) ds vs := by
  induction h with
  | nil =>
    intro m₁ _
    exact ⟨[], m₁, by rw [evalEntries, Run.pure_apply], .refl m₁, .nil⟩
  | @cons e d es ds head _ ih =>
    obtain ⟨name, e⟩ := e
    obtain ⟨name', d⟩ := d
    obtain ⟨rfl, hyields⟩ : name = name' ∧ Yields separator m e d := head
    intro m₁ hm₁
    obtain ⟨v, m₂, hv, hm₂, hshows⟩ := hyields m₁ hm₁
    obtain ⟨vs, m₃, hvs, hm₃, row⟩ := ih m₂ (hm₁.trans hm₂)
    refine ⟨(name, v) :: vs, m₃, ?_, hm₂.trans hm₃, .cons ⟨rfl, ?_⟩ ?_⟩
    · rw [evalEntries, Run.bind_ok hv, Run.bind_ok hvs, Run.pure_apply]
    · exact hshows.extend hm₃.store fun _ ha _ => ha
    · exact row.imp fun _ _ h => ⟨h.1, h.2.earlier hm₂.store⟩

lemma rowOf_texts {α β : Type} {R : α → β → Prop} {es : Entries String α}
    {ws : Entries String β} (h : RowOf R es ws) : RowOf R es.texts ws.texts := by
  induction h with
  | nil => exact .nil
  | cons head _ ih => exact .cons ⟨congrArg MapKey.text head.1, head.2⟩ ih

/-- A map in braces yields the map of what its entries yield. -/
lemma eval_object {es : List (String × Expr)} {ds : List (String × Data)}
    (h : RowOf (Yields separator m) es ds) :
    ∃ (a : Address) (ws : Entries MapKey Value) (m' : Machine),
      (Expr.object es).eval separator m = .ok (.ref a) m' ∧ m.Extends m' ∧
        m.store.cells.size ≤ a ∧ m'.store.get? a = some (.map ws) ∧
        RowOf (Shows m'.store fun b => m.store.New b ∧ b ≠ a) (Entries.ofList (Entries.texts ds))
          ws := by
  obtain ⟨vs, m₁, hvs, hm₁, row⟩ := evalEntries_yields h m (.refl m)
  have hrow : RowOf (Shows m₁.store m.store.New) (Entries.ofList (Entries.texts ds))
      (Entries.ofList (Entries.texts vs)) := rowOf_putAll .nil (rowOf_texts row)
  refine ⟨m₁.store.cells.size, Entries.ofList (Entries.texts vs), _, ?_,
    hm₁.trans (.of_store (.alloc _ _)), hm₁.store.size_le, Store.get?_alloc_new _ _, ?_⟩
  · rw [Expr.eval, Run.bind_ok hvs]
    rfl
  · refine hrow.imp fun _ _ h => ⟨h.1, h.2.extend (.alloc _ _) fun a ha hlt => ⟨ha, ?_⟩⟩
    exact Nat.ne_of_lt hlt

/-- Wherever a run stands that only went on from here, the expression fails with a fault. -/
def Fails (separator : String) (m : Machine) (e : Expr) (f : Fault) : Prop :=
  ∀ m₁, m.Extends m₁ → ∃ m₂, e.eval separator m₁ = .error (.fault f) m₂

lemma evalEntries_fails {es : List (String × Expr)} {ds : List (String × Data)} {e : Expr}
    {f : Fault} (name : String) (rest : List (String × Expr))
    (h : RowOf (Yields separator m) es ds) (he : Fails separator m e f) :
    ∀ m₁, m.Extends m₁ →
      ∃ m₂, evalEntries separator (es ++ (name, e) :: rest) m₁ = .error (.fault f) m₂ := by
  induction h with
  | nil =>
    intro m₁ hm₁
    obtain ⟨m₂, hfail⟩ := he m₁ hm₁
    exact ⟨m₂, by rw [List.nil_append, evalEntries, Run.bind_error hfail]⟩
  | @cons e' d _ _ head _ ih =>
    obtain ⟨name', e'⟩ := e'
    intro m₁ hm₁
    obtain ⟨v, m₂, hv, hm₂, -⟩ := head.2 m₁ hm₁
    obtain ⟨m₃, hrest⟩ := ih m₂ (hm₁.trans hm₂)
    exact ⟨m₃, by rw [List.cons_append, evalEntries, Run.bind_ok hv, Run.bind_error hrest]⟩

/-- A map in braces fails with the first of its entries that fails. -/
lemma eval_object_fails {es rest : List (String × Expr)} {ds : List (String × Data)} {name : String}
    {e : Expr} {f : Fault} (h : RowOf (Yields separator m) es ds) (he : Fails separator m e f) :
    ∃ m', (Expr.object (es ++ (name, e) :: rest)).eval separator m = .error (.fault f) m' := by
  obtain ⟨m', hfail⟩ := evalEntries_fails name rest h he m (.refl m)
  exact ⟨m', by rw [Expr.eval, Run.bind_error hfail]⟩

/-! ## Puts -/

lemma putEntry_apply {a : Address} {es : Entries MapKey Value}
    (h : m.store.get? a = some (.map es)) (k : MapKey) (v : Value) :
    Run.putEntry a k v m = .ok () { m with store := m.store.set a (.map (es.put k v)) } := by
  rw [Run.putEntry, Run.get_bind, h]
  rfl

lemma putField_apply {a : Address} {kind : RecordKind} {fields : Entries Field Value}
    (h : m.store.get? a = some (.record kind fields)) (f : Field) (v : Value) :
    Run.putField a f v m =
      .ok () { m with store := m.store.set a (.record kind (fields.put f v)) } := by
  rw [Run.putField, Run.get_bind, h]
  rfl

lemma Store.set_set (s : Store) (a : Address) (c c' : Cell) :
    (s.set a c).set a c' = s.set a c' := by
  simp [Store.set]

lemma Store.set_get? {s : Store} {a : Address} {c : Cell} (h : s.get? a = some c) :
    s.set a c = s := by
  obtain ⟨hlt, rfl⟩ := Array.getElem?_eq_some_iff.mp h
  rw [Store.set, Array.setIfInBounds, dif_pos hlt, Array.set_getElem_self]

/-- Merging entries into a map changes its cell only. -/
lemma mergeEntries_apply {a : Address} {es : Entries MapKey Value}
    (h : m.store.get? a = some (.map es)) (fs : Entries MapKey Value) :
    mergeEntries a fs m = .ok () { m with store := m.store.set a (.map (es.putAll fs)) } := by
  induction fs generalizing m es with
  | nil =>
    rw [mergeEntries, Run.pure_apply, Entries.putAll_nil, Store.set_get? h]
  | cons f fs ih =>
    obtain ⟨k, v⟩ := f
    rw [mergeEntries, Run.bind_ok (putEntry_apply h k v), ih, Store.set_set, Entries.putAll_cons]
    exact Store.get?_set_self h

lemma mapAt_ok {path : String} {a : Address} {es : Entries MapKey Value}
    (hpath : resolve m.store m.bindings path = .ok (.ref a))
    (h : m.store.get? a = some (.map es)) : mapAt path m = .ok a m := by
  rw [mapAt, Run.bind_ok (resolve_ok hpath), Run.get_bind, Store.entries?, h]
  rfl

/-! ## Statements -/

/-- The run ends well, in a machine of a certain kind. -/
def Run.Reaches (x : Run Unit) (m : Machine) (Q : Machine → Prop) : Prop :=
  ∃ m', x m = .ok () m' ∧ Q m'

lemma Run.Reaches.mono {x : Run Unit} {Q Q' : Machine → Prop} (h : x.Reaches m Q)
    (hQ : ∀ m', Q m' → Q' m') : x.Reaches m Q' := by
  obtain ⟨m', hx, hm'⟩ := h
  exact ⟨m', hx, hQ m' hm'⟩

lemma execAll_nil : execAll separator [] m = .ok () m := by
  rw [execAll, Run.pure_apply]

lemma execAll_cons_ok {s : Stmt} {ss : List Stmt} (h : s.exec separator m = .ok () m') :
    execAll separator (s :: ss) m = execAll separator ss m' := by
  rw [execAll, Run.bind_ok h]

lemma execAll_cons_error {s : Stmt} {ss : List Stmt} {e : Failure}
    (h : s.exec separator m = .error e m') : execAll separator (s :: ss) m = .error e m' := by
  rw [execAll, Run.bind_error h]

lemma execAll_cons {s : Stmt} {ss : List Stmt} {P Q : Machine → Prop}
    (h : (s.exec separator).Reaches m P)
    (hss : ∀ m', P m' → (execAll separator ss).Reaches m' Q) :
    (execAll separator (s :: ss)).Reaches m Q := by
  obtain ⟨m', hs, hm'⟩ := h
  obtain ⟨m'', hss, hm''⟩ := hss m' hm'
  exact ⟨m'', by rw [execAll_cons_ok hs, hss], hm''⟩

lemma execAll_singleton (s : Stmt) : execAll separator [s] m = s.exec separator m := by
  rw [execAll]
  show EStateM.bind (s.exec separator) _ m = _
  rw [EStateM.bind]
  cases h : s.exec separator m with
  | ok u m' => exact execAll_nil
  | error e m' => rfl

lemma execAll_append (separator : String) (xs ys : List Stmt) :
    execAll separator (xs ++ ys) = (do
      execAll separator xs
      execAll separator ys) := by
  induction xs with
  | nil => simp [execAll]
  | cons x xs ih => simp only [List.cons_append, execAll, ih, bind_assoc]

lemma execAll_append_ok {ss ts : List Stmt} {m' : Machine}
    (h : execAll separator ss m = .ok () m') :
    execAll separator (ss ++ ts) m = execAll separator ts m' := by
  rw [execAll_append, Run.bind_ok h]

lemma execAll_append_reaches {ss ts : List Stmt} {P Q : Machine → Prop}
    (h : (execAll separator ss).Reaches m P)
    (hts : ∀ m', P m' → (execAll separator ts).Reaches m' Q) :
    (execAll separator (ss ++ ts)).Reaches m Q := by
  obtain ⟨m', hss, hm'⟩ := h
  obtain ⟨m'', hts, hm''⟩ := hts m' hm'
  exact ⟨m'', by rw [execAll_append_ok hss, hts], hm''⟩

lemma exec_choice_true {condition : Expr} {body : List Stmt} {otherwise : Option (List Stmt)}
    {v : Value} (h : condition.eval separator m = .ok v m') (hv : v.holds = true) :
    (Stmt.choice condition body otherwise).exec separator m = execBranch separator body m' := by
  cases otherwise <;> rw [Stmt.exec, Run.bind_ok h, if_pos hv]

lemma exec_choice_false {condition : Expr} {body otherwise : List Stmt} {v : Value}
    (h : condition.eval separator m = .ok v m') (hv : v.holds = false) :
    (Stmt.choice condition body (some otherwise)).exec separator m =
      execBranch separator otherwise m' := by
  rw [Stmt.exec, Run.bind_ok h, if_neg (by simp [hv])]

lemma exec_choice_none {condition : Expr} {body : List Stmt} {v : Value}
    (h : condition.eval separator m = .ok v m') (hv : v.holds = false) :
    (Stmt.choice condition body none).exec separator m = .ok () m' := by
  rw [Stmt.exec, Run.bind_ok h, if_neg (by simp [hv]), Run.pure_apply]

lemma execBranch_singleton {s : Stmt} (h : ∀ kind, s ≠ .unlisted kind true) :
    execBranch separator [s] m = s.exec separator m := by
  rw [execBranch_eq_execAll separator [s] fun kind heq => h kind (List.cons.inj heq).1,
    execAll_singleton]

/-- A put into a map changes the cell of the map only; the entry goes under the text that the key
becomes. -/
lemma exec_mapPut_evaluated {path name : String} {key value : Expr} {a : Address}
    {es : Entries MapKey Value} {v : Value} {m'' : Machine}
    (hpath : resolve m.store m.bindings path = .ok (.ref a))
    (hc : m.store.get? a = some (.map es)) (hv : value.eval separator m = .ok v m')
    (hm : m.Extends m') (hkey : key.eval separator m' = .ok (.text name) m'')
    (hm' : m'.Extends m'') :
    (Stmt.mapPut (.ref path) key value).exec separator m =
      .ok () { m'' with store := m''.store.set a (.map (es.put (.text name) v)) } := by
  have hc' : m''.store.get? a = some (.map es) :=
    ((hm.trans hm').store.get?_eq a (Store.lt_of_get? hc)).trans hc
  rw [Stmt.exec, Expr.pathOf, Run.bind_ok (Run.pure_apply _), pathText,
    Run.bind_ok (Run.pure_apply _), Run.bind_ok (mapAt_ok hpath hc), Run.bind_ok hv,
    Run.bind_ok hkey, Run.bind_ok (Run.asKey_text name)]
  exact putEntry_apply hc' _ _

lemma exec_mapPut {path key : String} {value : Expr} {a : Address} {es : Entries MapKey Value}
    {v : Value} (hpath : resolve m.store m.bindings path = .ok (.ref a))
    (hc : m.store.get? a = some (.map es)) (hv : value.eval separator m = .ok v m')
    (hm : m.Extends m') (hkey : '$' ∉ key.toList) :
    (Stmt.mapPut (.ref path) (.text key) value).exec separator m =
      .ok () { m' with store := m'.store.set a (.map (es.put (.text key) v)) } :=
  exec_mapPut_evaluated hpath hc hv hm (eval_text_plain hkey) (.refl m')

lemma exec_mapPut_error {path : String} {key value : Expr} {a : Address}
    {es : Entries MapKey Value} {e : Failure}
    (hpath : resolve m.store m.bindings path = .ok (.ref a))
    (hc : m.store.get? a = some (.map es)) (hv : value.eval separator m = .error e m') :
    (Stmt.mapPut (.ref path) key value).exec separator m = .error e m' := by
  rw [Stmt.exec, Expr.pathOf, Run.bind_ok (Run.pure_apply _), pathText,
    Run.bind_ok (Run.pure_apply _), Run.bind_ok (mapAt_ok hpath hc), Run.bind_error hv]

lemma exec_mapPut_key_error {path : String} {key value : Expr} {a : Address}
    {es : Entries MapKey Value} {v : Value} {m'' : Machine} {e : Failure}
    (hpath : resolve m.store m.bindings path = .ok (.ref a))
    (hc : m.store.get? a = some (.map es)) (hv : value.eval separator m = .ok v m')
    (hkey : key.eval separator m' = .error e m'') :
    (Stmt.mapPut (.ref path) key value).exec separator m = .error e m'' := by
  rw [Stmt.exec, Expr.pathOf, Run.bind_ok (Run.pure_apply _), pathText,
    Run.bind_ok (Run.pure_apply _), Run.bind_ok (mapAt_ok hpath hc), Run.bind_ok hv,
    Run.bind_error hkey]

/-! ## Faults -/

/-- The run ends with this fault. -/
def Run.Faults (x : Run α) (f : Fault) (m : Machine) : Prop :=
  ∃ m', x m = .error (.fault f) m'

section Faults

variable {ss ts : List Stmt} {s : Stmt} {P : Machine → Prop} {f : Fault}

lemma faults_append (h : (execAll separator ss).Faults f m) :
    (execAll separator (ss ++ ts)).Faults f m := by
  obtain ⟨m', hss⟩ := h
  exact ⟨m', by rw [execAll_append, Run.bind_error hss]⟩

lemma faults_after (h : (execAll separator ss).Reaches m P)
    (hts : ∀ m', P m' → (execAll separator ts).Faults f m') :
    (execAll separator (ss ++ ts)).Faults f m := by
  obtain ⟨m', hss, hm'⟩ := h
  obtain ⟨m'', hts⟩ := hts m' hm'
  exact ⟨m'', by rw [execAll_append_ok hss, hts]⟩

lemma faults_cons (h : (s.exec separator).Faults f m) :
    (execAll separator (s :: ss)).Faults f m := by
  obtain ⟨m', hs⟩ := h
  exact ⟨m', execAll_cons_error hs⟩

lemma faults_cons_after (h : (s.exec separator).Reaches m P)
    (hss : ∀ m', P m' → (execAll separator ss).Faults f m') :
    (execAll separator (s :: ss)).Faults f m := by
  obtain ⟨m', hs, hm'⟩ := h
  obtain ⟨m'', hss⟩ := hss m' hm'
  exact ⟨m'', by rw [execAll_cons_ok hs, hss]⟩

/-- A branch that is taken ends with its fault. -/
lemma faults_choice {condition : Expr} {v : Value} (h : condition.eval separator m = .ok v m)
    (hv : v.holds = true) (hss : ∀ kind, ss ≠ [.unlisted kind true])
    (hfault : (execAll separator ss).Faults f m) :
    ((Stmt.choice condition ss none).exec separator).Faults f m := by
  obtain ⟨m', hfault⟩ := hfault
  exact ⟨m', by rw [exec_choice_true h hv, execBranch_eq_execAll _ _ hss, hfault]⟩

lemma set_faults {path : String} {value : Expr} (h : (value.eval separator).Faults f m) :
    ((Stmt.set (.ref path) value).exec separator).Faults f m := by
  obtain ⟨m', hv⟩ := h
  exact ⟨m', by
    rw [Stmt.exec, Expr.pathOf, Run.bind_ok (Run.pure_apply _), Run.bind_error hv]⟩

end Faults

end TableKeys.Template
