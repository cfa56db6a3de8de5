/-
# Filters that a schema allows

The input type of a filter says what a filter may hold (`IsFilter`): fields with operators that
exist, operands of the right shape, and further filters under `and`, `or` and `not`; anything may
be null. Such a filter always has an expression (`IsFilter.exists_expression`). A field may have
any name without a percent sign inside square brackets: there it would become a piece of the
layout that the placeholders fill.
-/
import TableKeys.Filter.Expression
import TableKeys.Proofs.Accepted

namespace TableKeys.Filter

open Text

/-! ## What a filter may hold -/

/-- The name of a field has no percent sign inside square brackets. -/
def IsFieldName (name : String) : Prop :=
  PathPiece.kept '%' ∉ pathPieces name

/-- The operators that compare a field with one value. -/
def comparisonNames : List String :=
  ["eq", "ne", "le", "lt", "ge", "gt", "contains", "beginsWith", "attributeType"]

/-- An operator with an operand of its kind. -/
inductive IsOperation : MapKey → Data → Prop
  | nothing (operator : MapKey) : IsOperation operator .null
  | compare {name : String} {operand : Data} (hname : name ∈ comparisonNames)
      (h : operand.Accepted) : IsOperation (.text name) operand
  | notContains {operand : Data} (h : operand.Accepted) : IsOperation (.text "notContains") operand
  | between {low high : Data} (hlow : low.Accepted) (hhigh : high.Accepted) :
      IsOperation (.text "between") (.list [low, high])
  | oneOf {operands : List Data} (h : ∀ d ∈ operands, d.Accepted) :
      IsOperation (.text "in") (.list operands)
  | attributeExists (operand : Data) : IsOperation (.text "attributeExists") operand

mutual

/-- A filter, as the input type of filters has it. -/
inductive IsFilter : Data → Prop
  | map {es : Entries MapKey Data} (h : ∀ e ∈ es, IsEntry e.1 e.2) : IsFilter (.map es)

/-- An entry of a filter. -/
inductive IsEntry : MapKey → Data → Prop
  | nothing (key : MapKey) : IsEntry key .null
  | members {name : String} {filters : List Data} (hname : name = "and" ∨ name = "or")
      (h : ∀ d ∈ filters, IsFilter d) : IsEntry (.text name) (.list filters)
  | negated {filter : Data} (h : IsFilter filter) : IsEntry (.text "not") filter
  | field {name : String} {operators : Entries MapKey Data} (hname : IsFieldName name)
      (hword : name ∉ ["and", "or", "not"]) (h : ∀ e ∈ operators, IsOperation e.1 e.2) :
      IsEntry (.text name) (.map operators)

end

/-! ## Conditions that can be written -/

/-- The names of fields can be written, and operands can be stored. -/
def Condition.Writable : Condition → Prop
  | .compare _ field operand => (∃ name, field = .text name ∧ IsFieldName name) ∧
      operand.Accepted
  | .between field low high => (∃ name, field = .text name ∧ IsFieldName name) ∧
      low.Accepted ∧ high.Accepted
  | .oneOf field operands => (∃ name, field = .text name ∧ IsFieldName name) ∧
      ∃ ds, operands = .list ds ∧ ∀ d ∈ ds, d.Accepted
  | .present field | .absent field => ∃ name, field = .text name ∧ IsFieldName name
  | .both a b | .either a b => a.Writable ∧ b.Writable
  | .negation a => a.Writable

/-- The place of a part takes one text. -/
lemma faultFrom?_part (supply position : Nat) (cs : List Char) :
    Layout.faultFrom? 0 (supply + 1) position ('%' :: 's' :: cs) =
      Layout.faultFrom? 0 supply (position + 2) cs := by
  have hdirective : Layout.readDirective (supply + 1) ('s' :: cs) = .ok ('s', cs) := rfl
  have hlength : ('s' :: cs).length - cs.length = 1 := by simp
  rw [Layout.faultFrom?, if_neg (by decide), if_neg (by simp), hdirective]
  simp only [hlength]
  rfl

/-- The layout of a path is filled with its parts, if what it keeps has no percent sign. -/
lemma faultFrom?_layout {pieces : List PathPiece} (h : PathPiece.kept '%' ∉ pieces)
    (position : Nat) :
    Layout.faultFrom? 0 (partCount pieces) position (layout pieces) = none := by
  induction pieces generalizing position with
  | nil => rfl
  | cons piece pieces ih =>
    rw [List.mem_cons, not_or] at h
    obtain ⟨hpiece, hpieces⟩ := h
    cases piece with
    | part cs =>
      have hcount : partCount (.part cs :: pieces) = partCount pieces + 1 :=
        List.countP_cons_of_pos rfl
      have hlayout : layout (.part cs :: pieces) = '%' :: 's' :: layout pieces := rfl
      rw [hcount, hlayout, faultFrom?_part, ih hpieces]
    | kept c =>
      have hcount : partCount (.kept c :: pieces) = partCount pieces :=
        List.countP_cons_of_neg (by simp)
      have hlayout : layout (.kept c :: pieces) = c :: layout pieces := rfl
      have hc : (c != '%') = true := bne_iff_ne.mpr fun heq => hpiece (by rw [heq])
      rw [hcount, hlayout, Layout.faultFrom?, if_pos hc, ih hpieces]

lemma writePieces_values (n : Nat) (pieces : List PathPiece) :
    (writePieces n pieces).values = [] := by
  fun_induction writePieces n pieces with
  | case1 => rfl
  | case2 _ _ _ ih => exact ih
  | case3 _ _ _ _ _ ih => exact ih
  | case4 _ _ _ _ ih => exact ih

/-- The name of a field can be written. -/
lemma writeField_text {name : String} (h : IsFieldName name) (n : Nat) :
    ∃ w, writeField n (.text name) = .ok w ∧ w.values = [] := by
  have hlayout : Layout.fault? (partCount (pathPieces name)) (layout (pathPieces name)) = none :=
    faultFrom?_layout h 0
  exact ⟨_, by rw [writeField, writePath, hlayout], writePieces_values _ _⟩

/-- **A condition about such fields can be written**, with values that can be stored. -/
theorem Condition.exists_write {c : Condition} (h : c.Writable) (n v : Nat) :
    ∃ w, c.write n v = .ok w ∧ ∀ d ∈ w.values, d.Accepted := by
  induction c generalizing n v with
  | compare op field operand =>
    obtain ⟨⟨name, rfl, hname⟩, hoperand⟩ := h
    obtain ⟨w, hw, -⟩ := writeField_text hname n
    exact ⟨_, by rw [write, hw]; rfl, by simpa using hoperand⟩
  | between field low high =>
    obtain ⟨⟨name, rfl, hname⟩, hlow, hhigh⟩ := h
    obtain ⟨w, hw, -⟩ := writeField_text hname n
    exact ⟨_, by rw [write, hw]; rfl, by simpa using ⟨hlow, hhigh⟩⟩
  | oneOf field operands =>
    obtain ⟨⟨name, rfl, hname⟩, ds, rfl, hds⟩ := h
    obtain ⟨w, hw, -⟩ := writeField_text hname n
    exact ⟨_, by rw [write, hw]; rfl, hds⟩
  | present field =>
    obtain ⟨name, rfl, hname⟩ := h
    obtain ⟨w, hw, hvalues⟩ := writeField_text hname n
    exact ⟨_, by rw [write, hw]; rfl, by simp [hvalues]⟩
  | absent field =>
    obtain ⟨name, rfl, hname⟩ := h
    obtain ⟨w, hw, hvalues⟩ := writeField_text hname n
    exact ⟨_, by rw [write, hw]; rfl, by simp [hvalues]⟩
  | both a b iha ihb =>
    obtain ⟨wa, hwa, ha⟩ := iha h.1 n v
    obtain ⟨wb, hwb, hb⟩ := ihb h.2 (n + wa.names.length) (v + wa.values.length)
    refine ⟨_, by rw [write, hwa]; simp only [bind, Except.bind, hwb]; rfl, ?_⟩
    exact List.forall_mem_append.mpr ⟨ha, hb⟩
  | either a b iha ihb =>
    obtain ⟨wa, hwa, ha⟩ := iha h.1 n v
    obtain ⟨wb, hwb, hb⟩ := ihb h.2 (n + wa.names.length) (v + wa.values.length)
    refine ⟨_, by rw [write, hwa]; simp only [bind, Except.bind, hwb]; rfl, ?_⟩
    exact List.forall_mem_append.mpr ⟨ha, hb⟩
  | negation a ih =>
    obtain ⟨w, hw, ha⟩ := ih h n v
    refine ⟨_, by rw [write, hw]; rfl, ?_⟩
    exact ha

lemma storeValues_ok {values : List (String × Data)} (h : ∀ p ∈ values, p.2.Accepted) :
    ∃ stored, storeValues values = .ok stored := by
  induction values with
  | nil => exact ⟨[], rfl⟩
  | cons p values ih =>
    obtain ⟨placeholder, d⟩ := p
    obtain ⟨a, ha⟩ := (h (placeholder, d) (by simp)).stored
    obtain ⟨as, has⟩ := ih fun q hq => h q (by simp [hq])
    exact ⟨(placeholder, a) :: as, by rw [storeValues, ha, has]; rfl⟩

lemma Condition.exists_expression {c : Condition} (h : c.Writable) :
    ∃ e, c.expression = .ok e := by
  obtain ⟨w, hw, hvalues⟩ := exists_write h 0 0
  have hnumbered : ∀ p ∈ numbered valuePlaceholder w.values, p.2.Accepted := by
    intro p hp
    obtain ⟨i, hi, rfl⟩ := List.mem_mapIdx.mp hp
    exact hvalues _ (List.getElem_mem hi)
  obtain ⟨stored, hstored⟩ := storeValues_ok hnumbered
  exact ⟨_, by rw [expression, hw]; simp only [bind, Except.bind, hstored]; rfl⟩

/-! ## Filters have conditions -/

/-- The computation yields conditions that can be written. -/
def YieldsWritable (x : Except Failure (List Condition)) : Prop :=
  ∃ cs, x = .ok cs ∧ ∀ c ∈ cs, c.Writable

namespace YieldsWritable

lemma nil : YieldsWritable (.ok []) :=
  ⟨[], rfl, by simp⟩

lemma append {x y : Except Failure (List Condition)} (hx : YieldsWritable x)
    (hy : YieldsWritable y) : YieldsWritable (do
      let as ← x
      let bs ← y
      return as ++ bs) := by
  obtain ⟨as, rfl, has⟩ := hx
  obtain ⟨bs, rfl, hbs⟩ := hy
  exact ⟨as ++ bs, rfl, List.forall_mem_append.mpr ⟨has, hbs⟩⟩

end YieldsWritable

/-- Conditions that can be written are joined to one that can. -/
lemma joined?_writable (join : Condition → Condition → Condition)
    (hjoin : ∀ a b : Condition, a.Writable → b.Writable → (join a b).Writable)
    {cs : List Condition} (h : ∀ c ∈ cs, c.Writable) :
    ∀ c ∈ (joined? join cs).toList, c.Writable := by
  cases cs with
  | nil => simp [joined?]
  | cons c cs =>
    have hfold : ∀ (ds : List Condition) (a : Condition), a.Writable →
        (∀ d ∈ ds, d.Writable) → (ds.foldl join a).Writable := by
      intro ds
      induction ds with
      | nil => exact fun _ ha _ => ha
      | cons d ds ih =>
        exact fun a ha hds => ih _ (hjoin a d ha (hds d (by simp))) fun e he => hds e (by simp [he])
    have hall := hfold cs c (h c (by simp)) fun d hd => h d (by simp [hd])
    simpa [joined?] using hall

/-- There is a comparison for each of these operators. -/
lemma exists_comparison {name : String} (h : name ∈ comparisonNames) :
    ∃ op, Comparison.ofOperator? name = some op := by
  simp only [comparisonNames, List.mem_cons, List.not_mem_nil, or_false] at h
  rcases h with rfl | rfl | rfl | rfl | rfl | rfl | rfl | rfl | rfl <;> exact ⟨_, rfl⟩

lemma operatorCondition_compare {name : String} {op : Comparison} (field : MapKey) (operand : Data)
    (h : Comparison.ofOperator? name = some op) :
    operatorCondition field (.text name) operand = .ok (.compare op field operand) := by
  -- the names of comparisons are not those of the other operators
  unfold Comparison.ofOperator? at h
  split at h <;> cases h <;> rfl

lemma operatorConditions_cons {field operator : MapKey} {operand : Data} (h : operand ≠ .null)
    (rest : Entries MapKey Data) :
    operatorConditions field ((operator, operand) :: rest) = (do
      let condition ← operatorCondition field operator operand.withDecimals
      let conditions ← operatorConditions field rest
      return condition :: conditions) := by
  rw [operatorConditions]
  exact h

lemma operatorCondition_ok {name : String} (hname : IsFieldName name) {operator : MapKey}
    {operand : Data} (h : IsOperation operator operand) (hnull : operand ≠ .null) :
    ∃ c, operatorCondition (.text name) operator operand.withDecimals = .ok c ∧ c.Writable := by
  have hfield : ∃ name', MapKey.text name = .text name' ∧ IsFieldName name' :=
    ⟨name, rfl, hname⟩
  cases h with
  | nothing => exact absurd rfl hnull
  | compare hoperator haccepted =>
    obtain ⟨op, hop⟩ := exists_comparison hoperator
    exact ⟨_, operatorCondition_compare _ _ hop, hfield, haccepted.withDecimals⟩
  | notContains haccepted => exact ⟨_, rfl, hfield, haccepted.withDecimals⟩
  | between hlow hhigh => exact ⟨_, rfl, hfield, hlow.withDecimals, hhigh.withDecimals⟩
  | @oneOf operands haccepted =>
    refine ⟨_, rfl, hfield, _, rfl, ?_⟩
    rw [Data.withDecimalsItems_eq]
    exact List.forall_mem_map.mpr fun d hd => (haccepted d hd).withDecimals
  | attributeExists =>
    rw [operatorCondition]
    split
    · exact ⟨_, rfl, hfield⟩
    · exact ⟨_, rfl, hfield⟩

lemma operatorConditions_ok {name : String} (hname : IsFieldName name)
    {operators : Entries MapKey Data} (h : ∀ e ∈ operators, IsOperation e.1 e.2) :
    YieldsWritable (operatorConditions (.text name) operators) := by
  induction operators with
  | nil => exact .nil
  | cons e rest ih =>
    obtain ⟨operator, operand⟩ := e
    have hrest := ih fun e he => h e (by simp [he])
    by_cases hnull : operand = .null
    · rw [hnull, operatorConditions]
      exact hrest
    · obtain ⟨c, hc, hwritable⟩ :=
        operatorCondition_ok hname (h (operator, operand) (by simp)) hnull
      obtain ⟨cs, hcs, hall⟩ := hrest
      refine ⟨c :: cs, ?_, List.forall_mem_cons.mpr ⟨hwritable, hall⟩⟩
      rw [operatorConditions_cons hnull, hc, hcs]
      rfl

/-- The conditions of one entry of a filter. -/
def ownConditions (key : MapKey) (value : Data) : Except Failure (List Condition) :=
  if key == .text "and" then
    (fun members => (joined? .both members).toList) <$> memberConditions value
  else if key == .text "or" then
    (fun members => (joined? .either members).toList) <$> memberConditions value
  else if key == .text "not" then
    (fun negated => negated.toList.map .negation) <$> condition? value
  else fieldConditions key value

lemma entryConditions_cons {key : MapKey} {value : Data} (h : value ≠ .null)
    (rest : Entries MapKey Data) : entryConditions ((key, value) :: rest) = (do
      let conditions ← ownConditions key value
      let others ← entryConditions rest
      return conditions ++ others) := by
  rw [entryConditions, ownConditions]
  · split_ifs <;> rfl
  · exact h

mutual

/-- **A filter that a schema allows has conditions that can be written.** -/
theorem condition?_ok : ∀ d, IsFilter d →
    ∃ c?, condition? d = .ok c? ∧ ∀ c ∈ c?.toList, c.Writable
  | .map es, h => by
    have hentries : ∀ e ∈ es, IsEntry e.1 e.2 := by
      cases h with
      | map h => exact h
    obtain ⟨cs, hcs, hall⟩ := entryConditions_ok es hentries
    refine ⟨joined? .both cs, ?_, joined?_writable .both (fun _ _ ha hb => ⟨ha, hb⟩) hall⟩
    rw [condition?, hcs]
    rfl
  | .scalar a, h => by cases h
  | .list ds, h => by cases h
  | .record kind fs, h => by cases h
  | .pair name d, h => by cases h

theorem entryConditions_ok : ∀ es : Entries MapKey Data, (∀ e ∈ es, IsEntry e.1 e.2) →
    YieldsWritable (entryConditions es)
  | [], _ => .nil
  | (key, d) :: es, h => by
    have hrest := entryConditions_ok es fun e he => h e (by simp [he])
    by_cases hnull : d = .null
    · rw [hnull, entryConditions]
      exact hrest
    rw [entryConditions_cons hnull]
    refine .append ?_ hrest
    have hentry : IsEntry key d := h (key, d) (by simp)
    match key, d, hentry with
    | _, _, .nothing _ => exact absurd rfl hnull
    | _, .list filters, .members hname hfilters =>
      obtain ⟨cs, hcs, hall⟩ := listConditions_ok filters hfilters
      rcases hname with rfl | rfl
      · refine ⟨(joined? .both cs).toList, ?_,
          joined?_writable .both (fun _ _ ha hb => ⟨ha, hb⟩) hall⟩
        simp [ownConditions, memberConditions, hcs]
      · refine ⟨(joined? .either cs).toList, ?_,
          joined?_writable .either (fun _ _ ha hb => ⟨ha, hb⟩) hall⟩
        simp [ownConditions, memberConditions, hcs]
    | _, d, .negated hfilter =>
      obtain ⟨c?, hc, hwritable⟩ := condition?_ok d hfilter
      refine ⟨c?.toList.map .negation, ?_, List.forall_mem_map.mpr hwritable⟩
      simp [ownConditions, hc]
    | _, .map operators, .field hname hword hoperators =>
      simp only [List.mem_cons, List.not_mem_nil, or_false, not_or] at hword
      simpa [ownConditions, fieldConditions, hword] using operatorConditions_ok hname hoperators

theorem listConditions_ok : ∀ ds : List Data, (∀ d ∈ ds, IsFilter d) →
    YieldsWritable (listConditions ds)
  | [], _ => .nil
  | d :: ds, h => by
    obtain ⟨c?, hc, hwritable⟩ := condition?_ok d (h d (by simp))
    obtain ⟨cs, hcs, hall⟩ := listConditions_ok ds fun e he => h e (by simp [he])
    refine ⟨c?.toList ++ cs, ?_, List.forall_mem_append.mpr ⟨hwritable, hall⟩⟩
    rw [listConditions, hc, hcs]
    rfl

end

/-- **A filter that a schema allows has an expression**, unless it asks for nothing. -/
theorem IsFilter.exists_expression {d : Data} (h : IsFilter d) : ∃ e?, expression? d = .ok e? := by
  obtain ⟨c?, hc, hwritable⟩ := condition?_ok d h
  rw [expression?]
  split
  · exact ⟨none, rfl⟩
  · rw [hc]
    cases c? with
    | none => exact ⟨none, rfl⟩
    | some c =>
      obtain ⟨e, he⟩ := Condition.exists_expression (hwritable c (by simp))
      exact ⟨some e, by simp only [he]⟩

end TableKeys.Filter
