/-
# Key conditions as they are built

The variable for the key condition names a map in a new cell, and the two maps inside it have cells
of their own (`Draft`). While the statements of a query run, these cells hold the key condition as
far as it is built, and nothing else uses them (`Machine.Drafts`). Each statement takes the key
condition one further, so in the end it is the one that the arguments ask for
(`exec_keyCondition`).
-/
import TableKeys.Proofs.Operands

namespace TableKeys.Template

open Snippet

/-- The cells in which a key condition is built. -/
structure Draft where
  query : Address
  names : Address
  values : Address

namespace Draft

/-- The cell is one of these. -/
def Uses (w : Draft) (a : Address) : Prop :=
  a = w.query ∨ a = w.names ∨ a = w.values

/-- The cell is new and none of these. -/
def Beside (w : Draft) (s₀ : Store) (a : Address) : Prop :=
  s₀.New a ∧ ¬ w.Uses a

/-- The entries of the map with an expression. -/
def entries (w : Draft) (expression : String) : Entries MapKey Value :=
  [(.text "expression", .text expression), (.text "expressionNames", .ref w.names),
    (.text "expressionValues", .ref w.values)]

lemma entries_put (w : Draft) (expression expression' : String) :
    (w.entries expression).put (.text "expression") (.text expression') =
      w.entries expression' := rfl

/-- The cells are new and differ from each other. -/
structure Fresh (w : Draft) (s₀ : Store) : Prop where
  new : ∀ a, w.Uses a → s₀.New a
  names_ne : w.names ≠ w.query
  values_ne : w.values ≠ w.query
  values_ne_names : w.values ≠ w.names

/-- Cells in ascending order are fresh if the first one is new. -/
lemma fresh_of_lt {s₀ : Store} {q n v : Address} (hq : s₀.New q) (hqn : q < n) (hnv : n < v) :
    (Draft.mk q n v).Fresh s₀ where
  new := by
    rintro b (rfl | rfl | rfl)
    · exact hq
    · exact hq.trans hqn.le
    · exact hq.trans (hqn.trans hnv).le
  names_ne := hqn.ne'
  values_ne := (hqn.trans hnv).ne'
  values_ne_names := hnv.ne'

/-- A later cell than the first one is beside the draft if it is none of the others. -/
lemma beside_of_lt {s₀ : Store} {q n v b : Address} (hq : s₀.New q) (hqb : q < b) (hbn : b ≠ n)
    (hbv : b ≠ v) : (Draft.mk q n v).Beside s₀ b := by
  refine ⟨hq.trans hqb.le, ?_⟩
  rintro (rfl | rfl | rfl)
  · exact Nat.lt_irrefl _ hqb
  · exact hbn rfl
  · exact hbv rfl

end Draft

/-- The machine goes on from another, and a key condition is built in fresh cells. -/
structure Machine.Drafts (m₀ m : Machine) (w : Draft) (c : KeyCondition) : Prop where
  continues : m₀.Continues m
  fresh : w.Fresh m₀.store
  bound : m.bindings.get? modelQueryExpression = some (.ref w.query)
  query : m.store.get? w.query = some (.map (w.entries c.expression))
  names : ∃ ws, m.store.get? w.names = some (.map ws) ∧
    RowOf (Shows m.store (w.Beside m₀.store)) (c.names.mapValues Data.text).texts ws
  values : ∃ ws, m.store.get? w.values = some (.map ws) ∧
    RowOf (Shows m.store (w.Beside m₀.store)) (c.values.mapValues AttributeValue.data).texts ws

section Changes

variable {m₀ m m' : Machine} {w : Draft} {c : KeyCondition}

/-- Values that are shown beside the draft do not depend on its cells. -/
lemma Draft.carry {s s₀ : Store} {x : Address} {es : Entries MapKey Data}
    {ws : Entries MapKey Value} (h : RowOf (Shows s (w.Beside s₀)) es ws) (hx : w.Uses x)
    (cell : Cell) : RowOf (Shows (s.set x cell) (w.Beside s₀)) es ws := by
  refine h.imp fun _ _ hd => ⟨hd.1, hd.2.mono (fun _ ha _ => ha) fun a ha _ => ?_⟩
  refine Store.get?_set_of_ne ?_ cell
  rintro rfl
  exact ha.2 hx

/-- A change of one of its cells leaves another one of the draft as it is. -/
lemma Draft.spare {s s₀ : Store} {x y : Address} {es : Entries MapKey Data}
    (h : ∃ ws, s.get? y = some (.map ws) ∧ RowOf (Shows s (w.Beside s₀)) es ws) (hx : w.Uses x)
    (hne : x ≠ y) (cell : Cell) :
    ∃ ws, (s.set x cell).get? y = some (.map ws) ∧
      RowOf (Shows (s.set x cell) (w.Beside s₀)) es ws := by
  obtain ⟨ws, hc, row⟩ := h
  exact ⟨ws, (Store.get?_set_of_ne hne cell).trans hc, Draft.carry row hx cell⟩

namespace Machine.Drafts

lemma extend (h : m₀.Drafts m w c) (hm : m.Extends m') : m₀.Drafts m' w c where
  continues := h.continues.extend hm
  fresh := h.fresh
  bound := by rw [hm.bindings, h.bound]
  query := (hm.store.get?_eq _ (Store.lt_of_get? h.query)).trans h.query
  names := by
    obtain ⟨ws, hc, row⟩ := h.names
    exact ⟨ws, (hm.store.get?_eq _ (Store.lt_of_get? hc)).trans hc,
      row.imp fun _ _ hd => ⟨hd.1, hd.2.extend hm.store fun _ ha _ => ha⟩⟩
  values := by
    obtain ⟨ws, hc, row⟩ := h.values
    exact ⟨ws, (hm.store.get?_eq _ (Store.lt_of_get? hc)).trans hc,
      row.imp fun _ _ hd => ⟨hd.1, hd.2.extend hm.store fun _ ha _ => ha⟩⟩

lemma rebind {name : String} (h : m₀.Drafts m w c) (hm : m.Rebinds name m') (hctx : name ≠ "ctx")
    (hquery : name ≠ modelQueryExpression) : m₀.Drafts m' w c where
  continues := h.continues.rebind hm hctx
  fresh := h.fresh
  bound := (hm.others _ hquery.symm).trans h.bound
  query := by rw [hm.store, h.query]
  names := by rw [hm.store]; exact h.names
  values := by rw [hm.store]; exact h.values

/-! ### Changing a cell -/

lemma setExpression (h : m₀.Drafts m w c) (expression : String) :
    m₀.Drafts (m.setMap w.query (w.entries expression)) w { c with expression } where
  continues := h.continues.setMap (h.fresh.new _ (.inl rfl)) _
  fresh := h.fresh
  bound := h.bound
  query := Store.get?_set_self h.query
  names := Draft.spare h.names (.inl rfl) h.fresh.names_ne.symm _
  values := Draft.spare h.values (.inl rfl) h.fresh.values_ne.symm _

lemma putName (h : m₀.Drafts m w c) {ws : Entries MapKey Value}
    (hc : m.store.get? w.names = some (.map ws)) (placeholder name : String) :
    m₀.Drafts (m.setMap w.names (ws.put (.text placeholder) (.text name))) w
      { c with names := c.names.put placeholder name } where
  continues := h.continues.setMap (h.fresh.new _ (.inr (.inl rfl))) _
  fresh := h.fresh
  bound := h.bound
  query := (Store.get?_set_of_ne h.fresh.names_ne _).trans h.query
  names := by
    obtain ⟨ws', hc', row⟩ := h.names
    obtain rfl : ws = ws' := Cell.map.inj (Option.some.inj (hc.symm.trans hc'))
    refine ⟨_, Store.get?_set_self hc, ?_⟩
    rw [Entries.mapValues_put, Entries.texts_put]
    exact rowOf_put (Draft.carry row (.inr (.inl rfl)) _) _ (shows_scalar.mpr rfl)
  values := Draft.spare h.values (.inr (.inl rfl)) h.fresh.values_ne_names.symm _

lemma putValue (h : m₀.Drafts m w c) {ws : Entries MapKey Value} {a : AttributeValue} {v : Value}
    (hc : m.store.get? w.values = some (.map ws))
    (hv : Shows m.store (w.Beside m₀.store) a.data v) (placeholder : String) :
    m₀.Drafts (m.setMap w.values (ws.put (.text placeholder) v)) w
      (c.bind placeholder a) where
  continues := h.continues.setMap (h.fresh.new _ (.inr (.inr rfl))) _
  fresh := h.fresh
  bound := h.bound
  query := (Store.get?_set_of_ne h.fresh.values_ne _).trans h.query
  names := Draft.spare h.names (.inr (.inr rfl)) h.fresh.values_ne_names _
  values := by
    obtain ⟨ws', hc', row⟩ := h.values
    obtain rfl : ws = ws' := Cell.map.inj (Option.some.inj (hc.symm.trans hc'))
    refine ⟨_, Store.get?_set_self hc, ?_⟩
    rw [KeyCondition.bind, Entries.mapValues_put, Entries.texts_put]
    exact Draft.carry (rowOf_put row _ hv) (.inr (.inr rfl)) _

/-! ### Reading -/

/-- The draft is the map of the key condition. -/
lemma shows (h : m₀.Drafts m w c) : Shows m.store m₀.store.New c.data (.ref w.query) := by
  obtain ⟨ns, hns, names⟩ := h.names
  obtain ⟨vs, hvs, values⟩ := h.values
  refine shows_map.mpr ⟨_, _, rfl, h.fresh.new _ (.inl rfl), h.query, ?_⟩
  refine .cons ⟨rfl, shows_scalar.mpr rfl⟩ (.cons ⟨rfl, ?_⟩ (.cons ⟨rfl, ?_⟩ .nil))
  · exact shows_map.mpr ⟨_, ns, rfl, h.fresh.new _ (.inr (.inl rfl)), hns,
      names.imp fun _ _ hd => ⟨hd.1, hd.2.mono (fun _ ha _ => ha.1) fun _ _ _ => rfl⟩⟩
  · exact shows_map.mpr ⟨_, vs, rfl, h.fresh.new _ (.inr (.inr rfl)), hvs,
      values.imp fun _ _ hd => ⟨hd.1, hd.2.mono (fun _ ha _ => ha.1) fun _ _ _ => rfl⟩⟩

lemma resolve_query (h : m₀.Drafts m w c) :
    resolve m.store m.bindings modelQueryExpression = .ok (.ref w.query) := by
  rw [resolve_variable m.store m.bindings (by decide), h.bound]
  rfl

lemma resolve_entry (h : m₀.Drafts m w c) {name : String} (hname : isSchemaName name = true) :
    resolve m.store m.bindings (child modelQueryExpression name) =
      .ok (((w.entries c.expression).get? (.text name)).getD .null) := by
  rw [child, resolve_child h.resolve_query hname, Store.member_map h.query]

lemma resolve_expression (h : m₀.Drafts m w c) :
    resolve m.store m.bindings (child modelQueryExpression "expression") =
      .ok (.text c.expression) :=
  h.resolve_entry (by decide)

lemma resolve_names (h : m₀.Drafts m w c) :
    resolve m.store m.bindings (child modelQueryExpression "expressionNames") =
      .ok (.ref w.names) :=
  h.resolve_entry (by decide)

lemma resolve_values (h : m₀.Drafts m w c) :
    resolve m.store m.bindings (child modelQueryExpression "expressionValues") =
      .ok (.ref w.values) :=
  h.resolve_entry (by decide)

end Machine.Drafts

end Changes

/-! ## Statements -/

section Statements

variable {separator : String} {m₀ m : Machine} {l : Layout} {sc : Scene} {w : Draft}
  {c : KeyCondition} {condition sortName : String}

/-- **A condition on the sort attribute is added.** -/
theorem exec_addCondition (separator : String) (h : m₀.Drafts m w c)
    (hcondition : '$' ∉ condition.toList) (hsort : '$' ∉ sortName.toList) :
    (execAll separator (addCondition modelQueryExpression sortName condition)).Reaches m
      fun m' => m₀.Drafts m' w (c.and condition sortName) ∧ m'.bindings = m.bindings := by
  set expression := c.expression ++ " AND " ++ condition with hexpression
  have htext : pieceText m (pieces (braced (child modelQueryExpression "expression") ++ " AND " ++
      condition)) = .ok expression.toList := by
    have hliteral : '$' ∉ (" AND " ++ condition).toList := by
      rw [String.toList_append, List.mem_append]
      exact not_or.mpr ⟨by decide, hcondition⟩
    have hp := piecesFrom_literal hliteral []
    rw [List.append_nil] at hp
    rw [pieces, String.append_assoc, String.toList_append,
      piecesFrom_braced (by decide +kernel), hp, pieceText_reference h.resolve_expression,
      pieceText_literals]
    simp [referenceText, Value.isNull, piecesFrom, pieceText_nil, pure, Except.pure, bind,
      Except.bind, hexpression]
    rfl
  obtain ⟨log, hlog⟩ := eval_text_ok separator htext
  rw [String.ofList_toList] at hlog
  have h₁ := h.extend (.of_log log)
  have hset := exec_set_child h₁.resolve_query (by decide) h₁.query hlog
    (show '.' ∉ "expression".toList by decide)
  rw [Draft.entries_put] at hset
  have h₂ := h₁.setExpression expression
  obtain ⟨ws, hc, -⟩ := h₂.names
  have hname : ∀ m₁, (Expr.text sortName).eval separator m₁ = .ok (.text sortName) m₁ :=
    fun _ => eval_text_plain hsort
  have hput := exec_mapPut h₂.resolve_names hc (hname _) (.refl _)
    (show '$' ∉ "#sortKey".toList by decide)
  refine ⟨_, ?_, h₂.putName hc "#sortKey" sortName, rfl⟩
  rw [addCondition, execAll_cons_ok hset, execAll_singleton]
  exact hput

/-- **A placeholder gets its value.** -/
theorem exec_bindValue {name placeholder : String} {e : Expr} {a : AttributeValue}
    (h : m₀.Drafts m w c) (hvalue : Supplies separator m₀ m name e a)
    (hplaceholder : '$' ∉ placeholder.toList) :
    ((bindValue modelQueryExpression placeholder e).exec separator).Reaches m fun m' =>
      m₀.Drafts m' w (c.bind placeholder a) ∧ m'.bindings = m.bindings := by
  obtain ⟨v, m₁, hv, hm₁, hstored⟩ := hvalue m h.continues rfl
  obtain ⟨u, s, heval, hs, hshows⟩ := eval_toAttribute hv hstored
  have hm₂ : m.Extends { m₁ with store := s } := hm₁.trans (.of_store hs)
  have h₂ := h.extend hm₂
  obtain ⟨ws, hc, -⟩ := h.values
  have hput := exec_mapPut h.resolve_values hc heval hm₂ hplaceholder
  -- the stored form stands in cells that are new even to the draft
  have hbeside : Shows s (w.Beside m₀.store) a.data u := by
    refine hshows.mono (fun b hb _ => ⟨(h.continues.extend hm₁).store.size_le.trans hb, ?_⟩)
      fun _ _ _ => rfl
    have hnot : ∀ x cell, m₁.store.get? x = some cell → b ≠ x := by
      rintro x cell hx rfl
      exact absurd (Store.lt_of_get? hx) (Nat.not_lt.mpr hb)
    have h₁ := h.extend hm₁
    obtain ⟨ns, hns, -⟩ := h₁.names
    obtain ⟨vs, hvs, -⟩ := h₁.values
    rintro (hx | hx | hx)
    · exact hnot _ _ h₁.query hx
    · exact hnot _ _ hns hx
    · exact hnot _ _ hvs hx
  have hc₂ : s.get? w.values = some (.map ws) :=
    (hm₂.store.get?_eq _ (Store.lt_of_get? hc)).trans hc
  exact ⟨_, hput, h₂.putValue hc₂ hbeside placeholder, hm₂.bindings⟩

/-! ## Operators -/

variable {k : KeyDecl} {o : Options} {argument : String} {d : Data}

/-- The statement for an operator with one operand. -/
def operatorStmt (k : KeyDecl) (argument sortName : String) (o : Options)
    (operator : String × String) : Stmt :=
  let operand := sortOperand k (child argument operator.1) "sortKeyValue" o
  .choice (operatorUsed argument operator.1)
    (operand.1 ++ addCondition modelQueryExpression sortName operator.2 ++
      [bindValue modelQueryExpression ":sortKey" operand.2])
    none

lemma oneOperandConditions_eq (k : KeyDecl) (argument sortName : String) (o : Options) :
    oneOperandConditions k modelQueryExpression argument sortName o =
      sortKeyOperators.map (operatorStmt k argument sortName o) := rfl

/-- An operator with one operand adds what it asks for. -/
lemma exec_operatorStmt (separator : String) {operator : String × String} {c' : KeyCondition}
    (h₀ : m₀.Holds l sc) (hk : k.Plain o) (hargument : sc.Leads argument d)
    (hbraced : isBracedPath argument.toList = true) (hsort : '$' ∉ sortName.toList)
    (hoperator : isSchemaName operator.1 = true ∧ '$' ∉ operator.2.toList)
    (h : m₀.Drafts m w c) (hc' : addOperator k o sortName d c operator = .ok c') :
    ((operatorStmt k argument sortName o operator).exec separator).Reaches m fun m' =>
      m₀.Drafts m' w c' := by
  have hcondition := h₀.eval_operatorUsed separator h.continues hargument
    hoperator.1
  unfold addOperator at hc'
  cases hnull : (d.member operator.1).isNull with
  | true =>
    rw [hnull, if_pos rfl] at hc'
    obtain rfl := Except.ok.inj hc'
    exact ⟨m, exec_choice_none hcondition (by simp [hnull, Value.holds]), h⟩
  | false =>
    rw [hnull, if_neg (by simp)] at hc'
    obtain ⟨a, ha, hc'⟩ := exists_of_bind_eq_ok hc'
    obtain rfl := Except.ok.inj hc'
    obtain ⟨m₁, hready, hm₁, hsupplied⟩ := exec_sortOperand separator h₀ h.continues
      (hargument.member hoperator.1) (isBracedPath_child hbraced hoperator.1)
      (show isSchemaName "sortKeyValue" = true by decide) (by decide) hk ha
    obtain ⟨m₂, hadded, h₂, hbindings₂⟩ := exec_addCondition separator
      (h.rebind hm₁ (by decide) (by decide)) hoperator.2 hsort
    obtain ⟨m₃, hbound, h₃, -⟩ := exec_bindValue h₂
      (hsupplied.keep (congrArg (Entries.get? · _) hbindings₂))
      (show '$' ∉ ":sortKey".toList by decide)
    refine ⟨m₃, ?_, h₃⟩
    rw [operatorStmt, exec_choice_true hcondition (by simp [hnull, Value.holds]),
      execBranch_eq_execAll _ _ fun kind heq => by
        simpa [addCondition] using congrArg List.length heq]
    have hbinds := (execAll_singleton _).trans hbound
    exact (execAll_append_ok ((execAll_append_ok hready).trans hadded)).trans hbinds

/-- The operators with one operand add what they ask for, one after the other. -/
lemma exec_operatorStmts (separator : String) {operators : List (String × String)}
    {c' : KeyCondition} (h₀ : m₀.Holds l sc) (hk : k.Plain o) (hargument : sc.Leads argument d)
    (hbraced : isBracedPath argument.toList = true) (hsort : '$' ∉ sortName.toList)
    (hoperators : ∀ operator ∈ operators, isSchemaName operator.1 = true ∧ '$' ∉ operator.2.toList)
    (h : m₀.Drafts m w c) (hc' : operators.foldlM (addOperator k o sortName d) c = .ok c') :
    (execAll separator (operators.map (operatorStmt k argument sortName o))).Reaches m fun m' =>
      m₀.Drafts m' w c' := by
  induction operators generalizing m c with
  | nil =>
    obtain rfl := Except.ok.inj hc'
    exact ⟨m, execAll_nil, h⟩
  | cons operator operators ih =>
    rw [List.foldlM_cons] at hc'
    obtain ⟨c₁, hc₁, hc'⟩ := exists_of_bind_eq_ok hc'
    exact execAll_cons (exec_operatorStmt separator h₀ hk hargument hbraced hsort
      (hoperators operator (by simp)) h hc₁) fun _ h₁ =>
        ih (fun other hother => hoperators other (by simp [hother])) h₁ hc'

/-- The operands of `between` stand in a list. -/
lemma leads_between (hargument : sc.Leads argument d) (i : Nat) (index : String)
    (hstep : Segment.ofChars ("between" ++ index).toList =
      .ok { name := "between", index := some i })
    (hdot : '.' ∉ ("between" ++ index).toList) :
    sc.Leads (child argument "between" ++ index) ((d.member "between").item i) := by
  rw [child, String.append_assoc]
  exact hargument.item hdot hstep

lemma isBracedPath_between (hbraced : isBracedPath argument.toList = true) {index : String}
    (hindex : index.toList.all isBracedPathChar = true) :
    isBracedPath (child argument "between" ++ index).toList = true :=
  isBracedPath_append (isBracedPath_child hbraced (by decide)) (List.all_eq_true.mp hindex)

/-- The two operands of `between` are made ready. The second one has a variable of its own, so the
first one stays. -/
lemma exec_betweenOperands (separator : String) {low high : AttributeValue} (h₀ : m₀.Holds l sc)
    (hk : k.Plain o) (hargument : sc.Leads argument d)
    (hbraced : isBracedPath argument.toList = true) (h : m₀.Drafts m w c)
    (hlow : storedSortValue k o ((d.member "between").item 0) = .ok low)
    (hhigh : storedSortValue k o ((d.member "between").item 1) = .ok high) :
    (execAll separator
      ((sortOperand k (child argument "between" ++ "[0]") "sortKeyValue0" o).1 ++
        (sortOperand k (child argument "between" ++ "[1]") "sortKeyValue1" o).1)).Reaches m
      fun m' => m₀.Drafts m' w c ∧
        Supplies separator m₀ m' "sortKeyValue0"
          (sortOperand k (child argument "between" ++ "[0]") "sortKeyValue0" o).2 low ∧
        Supplies separator m₀ m' "sortKeyValue1"
          (sortOperand k (child argument "between" ++ "[1]") "sortKeyValue1" o).2 high := by
  refine execAll_append_reaches (exec_sortOperand separator h₀ h.continues
    (leads_between hargument 0 "[0]" (by rfl) (by decide))
    (isBracedPath_between hbraced (by decide))
    (show isSchemaName "sortKeyValue0" = true by decide) (by decide) hk hlow) ?_
  rintro m₁ ⟨hm₁, hsupplied⟩
  have h₁ := h.rebind hm₁ (by decide) (by decide)
  refine (exec_sortOperand separator h₀ h₁.continues
    (leads_between hargument 1 "[1]" (by rfl) (by decide))
    (isBracedPath_between hbraced (by decide))
    (show isSchemaName "sortKeyValue1" = true by decide) (by decide) hk hhigh).mono ?_
  rintro m₂ ⟨hm₂, hsupplied'⟩
  exact ⟨h₁.rebind hm₂ (by decide) (by decide), hsupplied.keep (hm₂.others _ (by decide)),
    hsupplied'⟩

/-- The operator with two operands adds what it asks for. -/
lemma exec_betweenConditions (separator : String) {c' : KeyCondition} (h₀ : m₀.Holds l sc)
    (hk : k.Plain o) (hargument : sc.Leads argument d)
    (hbraced : isBracedPath argument.toList = true) (hsort : '$' ∉ sortName.toList)
    (h : m₀.Drafts m w c) (hc' : addBetween k o sortName d c = .ok c') :
    ((betweenConditions k modelQueryExpression argument sortName o).exec separator).Reaches m
      fun m' => m₀.Drafts m' w c' := by
  have hcondition := h₀.eval_operatorUsed separator h.continues hargument
    (show isSchemaName "between" = true by decide)
  unfold addBetween at hc'
  cases hnull : (d.member "between").isNull with
  | true =>
    rw [hnull, if_pos rfl] at hc'
    obtain rfl := Except.ok.inj hc'
    exact ⟨m, exec_choice_none hcondition (by simp [hnull, Value.holds]), h⟩
  | false =>
    rw [hnull, if_neg (by simp)] at hc'
    obtain ⟨low, hlow, hc'⟩ := exists_of_bind_eq_ok hc'
    obtain ⟨high, hhigh, hc'⟩ := exists_of_bind_eq_ok hc'
    obtain rfl := Except.ok.inj hc'
    obtain ⟨m₂, hready, h₂, hlow₂, hhigh₂⟩ :=
      exec_betweenOperands separator h₀ hk hargument hbraced h hlow hhigh
    obtain ⟨m₃, hadded, h₃, hbindings₃⟩ := exec_addCondition separator h₂
      (show '$' ∉ betweenCondition.toList by decide) hsort
    obtain ⟨m₄, hbound₄, h₄, hbindings₄⟩ := exec_bindValue h₃
      (hlow₂.keep (congrArg (Entries.get? · _) hbindings₃))
      (show '$' ∉ ":sortKey0".toList by decide)
    have hhigh₄ := (hhigh₂.keep (congrArg (Entries.get? · _) hbindings₃)).keep
      (congrArg (Entries.get? · _) hbindings₄)
    obtain ⟨m₅, hbound₅, h₅, -⟩ := exec_bindValue h₄ hhigh₄
      (show '$' ∉ ":sortKey1".toList by decide)
    refine ⟨m₅, ?_, h₅⟩
    rw [betweenConditions, exec_choice_true hcondition (by simp [hnull, Value.holds]),
      execBranch_eq_execAll _ _ fun kind heq => by
        have hlength := congrArg List.length heq
        simp [addCondition] at hlength
        omega]
    have hbinds := (execAll_cons_ok hbound₄).trans ((execAll_singleton _).trans hbound₅)
    exact (execAll_append_ok ((execAll_append_ok hready).trans hadded)).trans hbinds

/-- The sort argument adds what it asks for. -/
lemma exec_sortKeyConditions (separator : String) {c' : KeyCondition} (h₀ : m₀.Holds l sc)
    (hk : k.Plain o) (h : m₀.Drafts m w c)
    (hc' : addSortConditions k o (.map sc.arguments) c = .ok c') :
    (execAll separator (sortKeyConditions k modelQueryExpression o)).Reaches m fun m' =>
      m₀.Drafts m' w c' := by
  unfold addSortConditions at hc'
  unfold sortKeyConditions
  cases hargument : k.sortArgument? with
  | none =>
    rw [hargument] at hc'
    obtain rfl := Except.ok.inj hc'
    exact ⟨m, execAll_nil, h⟩
  | some argument =>
    cases hsort : k.sortName? o with
    | none =>
      rw [hargument, hsort] at hc'
      obtain rfl := Except.ok.inj hc'
      exact ⟨m, execAll_nil, h⟩
    | some sortName =>
      rw [hargument, hsort] at hc'
      obtain ⟨c₁, hc₁, hc'⟩ := exists_of_bind_eq_ok hc'
      have hname := hk.sortArgument hargument
      have hleads := sc.leads_argument hname
      have hbraced := isBracedPath_argument hname
      simp only [oneOperandConditions_eq]
      refine execAll_append_reaches (exec_operatorStmts separator h₀ hk hleads hbraced
        (hk.sortName hsort) (by decide) h hc₁) fun m₁ h₁ => ?_
      rw [Run.Reaches, execAll_singleton]
      exact exec_betweenConditions separator h₀ hk hleads hbraced (hk.sortName hsort) h₁ hc'

/-! ## Key conditions -/

variable {q : Address}

lemma resolve_queryExpression (h : m.bindings.get? modelQueryExpression = some (.ref q)) :
    resolve m.store m.bindings modelQueryExpression = .ok (.ref q) := by
  rw [resolve_variable m.store m.bindings (by decide), h]
  rfl

/-- A new map comes under a key of the map that the variable names; no other cell changes. -/
lemma exec_set_object {key : String} {fs : Entries MapKey Value} {es : List (String × Expr)}
    {ds : List (String × Data)} (hm : m₀.Continues m) (hq : m₀.store.New q)
    (hbound : m.bindings.get? modelQueryExpression = some (.ref q))
    (hc : m.store.get? q = some (.map fs)) (hkey : '.' ∉ key.toList)
    (hrow : RowOf (Yields separator m) es ds) :
    ((Stmt.set (.ref (child modelQueryExpression key)) (.object es)).exec separator).Reaches m
      fun m' => m₀.Continues m' ∧ m'.bindings = m.bindings ∧
        (∀ b, b < m.store.cells.size → b ≠ q → m'.store.get? b = m.store.get? b) ∧
        ∃ a ws, m.store.New a ∧ m'.store.get? q = some (.map (fs.put (.text key) (.ref a))) ∧
          m'.store.get? a = some (.map ws) ∧
          RowOf (Shows m'.store fun b => m.store.New b ∧ b ≠ a) (Entries.ofList (Entries.texts ds))
            ws := by
  obtain ⟨a, ws, m₁, heval, hm₁, ha, hcell, row⟩ := eval_object hrow
  have hqlt := Store.lt_of_get? hc
  have hqa : q ≠ a := Nat.ne_of_lt (hqlt.trans_le ha)
  have hc₁ : m₁.store.get? q = some (.map fs) := (hm₁.store.get?_eq q hqlt).trans hc
  have hbound₁ : m₁.bindings.get? modelQueryExpression = some (.ref q) := by
    rw [hm₁.bindings, hbound]
  refine ⟨_, exec_set_child (resolve_queryExpression hbound₁) (by decide) hc₁ heval hkey,
    (hm.extend hm₁).setMap hq _, hm₁.bindings, fun b hb hbq => ?_, a, ws, ha, ?_, ?_, ?_⟩
  · exact (Store.get?_set_of_ne hbq.symm _).trans (hm₁.store.get?_eq b hb)
  · exact Store.get?_set_self hc₁
  · exact (Store.get?_set_of_ne hqa _).trans hcell
  · refine row.imp fun _ _ hd => ⟨hd.1, hd.2.mono (fun _ hb _ => hb) fun b hb _ => ?_⟩
    exact Store.get?_set_of_ne (Nat.ne_of_lt (hqlt.trans_le hb.1)) _

/-- The expression and the names of the condition on the partition come into the map that the
variable names. -/
lemma exec_partitionNames (separator : String) {partition : String} (hm : m₀.Continues m)
    (hq : m₀.store.New q) (hbound : m.bindings.get? modelQueryExpression = some (.ref q))
    (hc : m.store.get? q = some (.map [])) (hname : isSchemaName partition = true) :
    (execAll separator [
      .set (.ref (child modelQueryExpression "expression"))
        (.text ("#" ++ partition ++ " = :" ++ partition)),
      .set (.ref (child modelQueryExpression "expressionNames"))
        (.object [("#" ++ partition, .text partition)])]).Reaches m
      fun m' => m₀.Continues m' ∧ m'.bindings.get? modelQueryExpression = some (.ref q) ∧
        ∃ n ns, q < n ∧
          m'.store.get? q = some (.map [
            (.text "expression", .text ("#" ++ partition ++ " = :" ++ partition)),
            (.text "expressionNames", .ref n)]) ∧
          m'.store.get? n = some (.map ns) ∧ RowOf (Shows m'.store fun b => q < b ∧ b ≠ n)
            (Entries.ofList (Entries.texts [("#" ++ partition, Data.text partition)])) ns := by
  have hdollar := notMem_of_isSchemaName hname (show isSchemaChar '$' = false by decide)
  set expression := "#" ++ partition ++ " = :" ++ partition with hexpression
  have htext : (Expr.text expression).eval separator m = .ok (.text expression) m :=
    eval_text_plain (by simp [hexpression, String.toList_append, hdollar])
  have hset := exec_set_child (resolve_queryExpression hbound) (by decide) hc htext
    (show '.' ∉ "expression".toList by decide)
  set m₁ := m.setMap q (Entries.put [] (.text "expression") (.text expression)) with hm₁
  have hc₁ : m₁.store.get? q = some (.map [(.text "expression", .text expression)]) := by
    rw [hm₁, Machine.setMap, Store.get?_set_self hc]
    rfl
  have hrow : RowOf (Yields separator m₁) [("#" ++ partition, Expr.text partition)]
      [("#" ++ partition, .text partition)] := .cons ⟨rfl, yields_text hdollar⟩ .nil
  obtain ⟨m₂, hexec, hcont, hbindings, -, n, ns, hn, hc₂, hns, names⟩ :=
    exec_set_object (hm.setMap hq _) hq hbound hc₁ (show '.' ∉ "expressionNames".toList by decide)
      hrow
  have hqlt := Store.lt_of_get? hc₁
  refine ⟨m₂, ?_, hcont, ?_, n, ns, hqlt.trans_le hn, hc₂, hns, ?_⟩
  · rw [execAll_cons_ok hset, execAll_singleton, hexec]
  · rw [hbindings]
    exact hbound
  · exact names.imp fun _ _ hd =>
      ⟨hd.1, hd.2.mono (fun b hb _ => ⟨hqlt.trans_le hb.1, hb.2⟩) fun _ _ _ => rfl⟩

/-- An argument with a stored form gives it. -/
lemma yields_argument {name : String} {a : AttributeValue} (h₀ : m₀.Holds l sc)
    (hm : m₀.Continues m) (hname : isSchemaName name = true)
    (ha : (sc.arguments.field name).stored = .ok a) :
    Yields separator m (.toAttribute (.ref ("ctx.args." ++ name))) a.data := by
  intro m' hm'
  obtain ⟨v, hv, hshows⟩ := h₀.eval_leads separator (hm.extend hm') (sc.leads_argument hname)
  obtain ⟨u, s, heval, hs, hdata⟩ := eval_toAttribute hv (by rw [hshows.read_eq, ha])
  exact ⟨u, _, heval, .of_store hs, hdata⟩

/-- The map that the variable names becomes the condition on the partition. -/
lemma exec_ofPartition (separator : String) {partition : String} {a : AttributeValue}
    (h₀ : m₀.Holds l sc) (hm : m₀.Continues m) (hq : m₀.store.New q)
    (hbound : m.bindings.get? modelQueryExpression = some (.ref q))
    (hc : m.store.get? q = some (.map [])) (hname : isSchemaName partition = true)
    (ha : (sc.arguments.field partition).stored = .ok a) :
    (execAll separator [
      .set (.ref (child modelQueryExpression "expression"))
        (.text ("#" ++ partition ++ " = :" ++ partition)),
      .set (.ref (child modelQueryExpression "expressionNames"))
        (.object [("#" ++ partition, .text partition)]),
      .set (.ref (child modelQueryExpression "expressionValues"))
        (.object [(":" ++ partition, .toAttribute (.ref ("ctx.args." ++ partition)))])]).Reaches m
      fun m' => ∃ w : Draft, w.query = q ∧ m₀.Drafts m' w (.ofPartition partition a) := by
  obtain ⟨m₁, hexec₁, hcont₁, hbound₁, n, ns, hqn, hc₁, hns, names⟩ :=
    exec_partitionNames separator hm hq hbound hc hname
  have hrow : RowOf (Yields separator m₁)
      [(":" ++ partition, Expr.toAttribute (.ref ("ctx.args." ++ partition)))]
      [(":" ++ partition, a.data)] := .cons ⟨rfl, yields_argument h₀ hcont₁ hname ha⟩ .nil
  obtain ⟨m₂, hexec₂, hcont₂, hbindings₂, hold, v, vs, hv, hc₂, hvs, values⟩ :=
    exec_set_object hcont₁ hq hbound₁ hc₁ (show '.' ∉ "expressionValues".toList by decide) hrow
  have hnlt := Store.lt_of_get? hns
  have hnv : n < v := hnlt.trans_le hv
  refine ⟨m₂, ?_, ⟨q, n, v⟩, rfl, hcont₂, Draft.fresh_of_lt hq hqn hnv, ?_, hc₂, ⟨ns, ?_, ?_⟩,
    vs, hvs, ?_⟩
  · exact (execAll_append_ok hexec₁).trans (by rw [execAll_singleton, hexec₂])
  · rw [hbindings₂, hbound₁]
  · rw [hold n hnlt hqn.ne', hns]
  · refine names.imp fun _ _ hd => ⟨hd.1, hd.2.mono (fun b hb hlt => ?_) fun b hb hlt => ?_⟩
    · exact Draft.beside_of_lt hq hb.1 hb.2 (Nat.ne_of_lt (hlt.trans_le hv))
    · exact hold b hlt hb.1.ne'
  · refine values.imp fun _ _ hd => ⟨hd.1, hd.2.mono (fun b hb _ => ?_) fun _ _ _ => rfl⟩
    have hnb : n < b := hnlt.trans_le hb.1
    exact Draft.beside_of_lt hq (hqn.trans hnb) hnb.ne' hb.2

/-- **The key condition is the one that the arguments ask for**; without a partition argument the
map stays empty. -/
theorem exec_keyCondition (separator : String) {c? : Option KeyCondition} (h₀ : m₀.Holds l sc)
    (hk : k.Plain o) (hm : m₀.Continues m) (hq : m₀.store.New q)
    (hbound : m.bindings.get? modelQueryExpression = some (.ref q))
    (hc : m.store.get? q = some (.map []))
    (hc? : keyConditionOf k o (.map sc.arguments) = .ok c?) :
    ((keyCondition k modelQueryExpression o).exec separator).Reaches m fun m' =>
      m₀.Continues m' ∧ m'.bindings.get? modelQueryExpression = some (.ref q) ∧
        Shows m'.store m₀.store.New (keyConditionData c?) (.ref q) := by
  have hcondition := h₀.eval_present separator hm (sc.leads_argument hk.partition)
  have hmember : (Data.map sc.arguments).member k.partition.name =
      sc.arguments.field k.partition.name := rfl
  rw [keyConditionOf, hmember] at hc?
  cases hnull : (sc.arguments.field k.partition.name).isNull with
  | true =>
    rw [hnull, if_pos rfl] at hc?
    obtain rfl := Except.ok.inj hc?
    exact ⟨m, exec_choice_none hcondition (by simp [hnull, Value.holds]), hm, hbound,
      shows_map.mpr ⟨q, [], rfl, hq, hc, .nil⟩⟩
  | false =>
    rw [hnull, if_neg (by simp)] at hc?
    obtain ⟨a, ha, hc?⟩ := exists_of_bind_eq_ok hc?
    obtain ⟨c, hc', hc?⟩ := exists_of_bind_eq_ok hc?
    obtain rfl := Except.ok.inj hc?
    obtain ⟨m', hexec, hm'⟩ := execAll_append_reaches
      (exec_ofPartition separator h₀ hm hq hbound hc hk.partition ha) fun m₁ hm₁ => by
        obtain ⟨w, hw, h₁⟩ := hm₁
        exact (exec_sortKeyConditions separator h₀ hk h₁ hc').mono fun m₂ h₂ =>
          show ∃ w : Draft, w.query = q ∧ m₀.Drafts m₂ w c from ⟨w, hw, h₂⟩
    obtain ⟨w, rfl, h⟩ := hm'
    refine ⟨m', ?_, h.continues, h.bound, h.shows⟩
    rw [keyCondition, exec_choice_true hcondition (by simp [hnull, Value.holds]),
      execBranch_eq_execAll _ _ fun kind heq => by simpa using congrArg List.length heq]
    exact hexec

end Statements

end TableKeys.Template
