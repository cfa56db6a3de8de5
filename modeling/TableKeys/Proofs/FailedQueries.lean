/-
# Queries that cannot be made

An operand that has no stored form, or a component that cannot be a text, ends the template for a
query with its fault (`Run.Faults`). So where the arguments have no key condition, the template does
not end well (`keyCondition_faults`), and from a run that ends well there is one
(`exists_keyConditionOf_of_run`).
-/
import TableKeys.Proofs.Queries

namespace TableKeys.Template

open Snippet

/-! ## Operands -/

section Operands

variable {separator keySeparator operand name : String} {m₀ m : Machine} {l : Layout} {sc : Scene}
  {d : Data} {done fields : List String} {e : Fault} {k : KeyDecl} {o : Options} {w : Draft}
  {c : KeyCondition}

/-- The operand of a composite sort key is not made ready if a component cannot be a text. -/
lemma sortOperand_faults (hcomposite : k.isComposite = true) (h₀ : m₀.Holds l sc)
    (hm : m₀.Continues m) (hoperand : sc.Leads operand d)
    (hbraced : isBracedPath operand.toList = true) (hname : isSchemaName name = true)
    (hctx : name ≠ "ctx") (hk : k.Plain o) (ha : storedSortValue k o d = .error e) :
    (execAll separator (sortOperand k operand name o).1).Faults e m := by
  have htexts : leadingTexts d k.sortFields = .error e := by
    rw [storedSortValue, sortValue, if_pos hcomposite] at ha
    rcases error_of_bind_eq_error ha with ha | ⟨joined, hjoined, ha⟩
    · exact error_of_map_eq_error ha
    · obtain ⟨texts, -, rfl⟩ := exists_of_map_eq_ok hjoined
      cases ha
  have hassembled := exec_assembleComposite separator h₀ hm hoperand hbraced hname hctx
    hk.keySeparator hk.sortFields
  rw [htexts] at hassembled
  rw [sortOperand, if_pos hcomposite]
  exact faults_cons hassembled

/-- Any other operand is used as it is. -/
lemma sortOperand_of_single (hcomposite : k.isComposite = false) (operand name : String) :
    sortOperand k operand name o = ([], .ref operand) := by
  rw [sortOperand, if_neg (by simp [hcomposite])]

lemma storedSortValue_of_single (hcomposite : k.isComposite = false) (d : Data) :
    storedSortValue k o d = d.stored := by
  rw [storedSortValue, sortValue, if_neg (by simp [hcomposite])]
  rfl

/-- A placeholder cannot get an operand without a stored form. -/
lemma bindValue_faults (placeholder : String) (h₀ : m₀.Holds l sc) (hoperand : sc.Leads operand d)
    (hstored : d.stored = .error e) (h : m₀.Drafts m w c) :
    ((bindValue modelQueryExpression placeholder (.ref operand)).exec separator).Faults e m := by
  obtain ⟨v, hv, hshows⟩ := h₀.eval_leads separator h.continues hoperand
  obtain ⟨ws, hc, -⟩ := h.values
  exact ⟨m, exec_mapPut_error h.resolve_values hc
    (eval_toAttribute_fails hv (by rw [hshows.read_eq, hstored]))⟩

/-- An operator whose operand cannot be made ready ends the run. -/
lemma operatorStmt_faults {operator : String × String} {argument sortName : String}
    (h₀ : m₀.Holds l sc) (hk : k.Plain o) (hargument : sc.Leads argument d)
    (hbraced : isBracedPath argument.toList = true) (hsort : '$' ∉ sortName.toList)
    (hoperator : isSchemaName operator.1 = true ∧ '$' ∉ operator.2.toList)
    (h : m₀.Drafts m w c) (he : addOperator k o sortName d c operator = .error e) :
    ((operatorStmt k argument sortName o operator).exec separator).Faults e m := by
  have hcondition := h₀.eval_operatorUsed separator h.continues hargument hoperator.1
  have hoperand := hargument.member hoperator.1
  have hbraced' := isBracedPath_child hbraced hoperator.1
  unfold addOperator at he
  cases hnull : (d.member operator.1).isNull with
  | true =>
    rw [hnull, if_pos rfl] at he
    cases he
  | false =>
    rw [hnull, if_neg (by simp)] at he
    have ha : storedSortValue k o (d.member operator.1) = .error e := by
      rcases error_of_bind_eq_error he with ha | ⟨a, -, hok⟩
      · exact ha
      · cases hok
    rw [operatorStmt]
    refine faults_choice hcondition (by simp [hnull, Value.holds])
      (fun kind heq => by simpa [addCondition] using congrArg List.length heq) ?_
    cases hcomposite : k.isComposite with
    | true =>
      exact faults_append (faults_append (sortOperand_faults hcomposite h₀ h.continues hoperand
        hbraced' (show isSchemaName "sortKeyValue" = true by decide) (by decide) hk ha))
    | false =>
      rw [storedSortValue_of_single hcomposite] at ha
      rw [sortOperand_of_single hcomposite, List.nil_append]
      refine faults_after (exec_addCondition separator h hoperator.2 hsort) ?_
      rintro m₁ ⟨h₁, -⟩
      exact faults_cons (bindValue_faults ":sortKey" h₀ hoperand ha h₁)

lemma operatorStmts_faults {operators : List (String × String)} {argument sortName : String}
    (h₀ : m₀.Holds l sc) (hk : k.Plain o) (hargument : sc.Leads argument d)
    (hbraced : isBracedPath argument.toList = true) (hsort : '$' ∉ sortName.toList)
    (hoperators : ∀ operator ∈ operators, isSchemaName operator.1 = true ∧ '$' ∉ operator.2.toList)
    (h : m₀.Drafts m w c) (he : operators.foldlM (addOperator k o sortName d) c = .error e) :
    (execAll separator (operators.map (operatorStmt k argument sortName o))).Faults e m := by
  induction operators generalizing m c with
  | nil => cases he
  | cons operator operators ih =>
    have hoperator := hoperators operator (by simp)
    rw [List.foldlM_cons] at he
    rw [List.map_cons]
    rcases error_of_bind_eq_error he with he | ⟨c₁, hc₁, he⟩
    · exact faults_cons (operatorStmt_faults h₀ hk hargument hbraced hsort hoperator h he)
    · exact faults_cons_after (exec_operatorStmt separator h₀ hk hargument hbraced hsort hoperator h
        hc₁) fun _ h₁ => ih (fun other hother => hoperators other (by simp [hother])) h₁ he

/-- The statements for the operator with two operands. -/
def betweenBody (k : KeyDecl) (argument sortName : String) (o : Options) : List Stmt :=
  let low := sortOperand k (child argument "between" ++ "[0]") "sortKeyValue0" o
  let high := sortOperand k (child argument "between" ++ "[1]") "sortKeyValue1" o
  low.1 ++ high.1 ++ addCondition modelQueryExpression sortName betweenCondition ++
    [bindValue modelQueryExpression ":sortKey0" low.2,
      bindValue modelQueryExpression ":sortKey1" high.2]

lemma betweenConditions_eq (k : KeyDecl) (argument sortName : String) (o : Options) :
    betweenConditions k modelQueryExpression argument sortName o =
      .choice (operatorUsed argument "between") (betweenBody k argument sortName o) none := rfl

lemma betweenBody_of_single (hcomposite : k.isComposite = false) (argument sortName : String) :
    betweenBody k argument sortName o =
      addCondition modelQueryExpression sortName betweenCondition ++ [
        bindValue modelQueryExpression ":sortKey0" (.ref (child argument "between" ++ "[0]")),
        bindValue modelQueryExpression ":sortKey1" (.ref (child argument "between" ++ "[1]"))] := by
  rw [betweenBody, sortOperand_of_single hcomposite, sortOperand_of_single hcomposite]
  rfl

section Between

variable {argument sortName : String} {low : AttributeValue}

lemma betweenBody_faults_low (h₀ : m₀.Holds l sc) (hk : k.Plain o)
    (hargument : sc.Leads argument d) (hbraced : isBracedPath argument.toList = true)
    (hsort : '$' ∉ sortName.toList) (h : m₀.Drafts m w c)
    (hlow : storedSortValue k o ((d.member "between").item 0) = .error e) :
    (execAll separator (betweenBody k argument sortName o)).Faults e m := by
  have hlead := leads_between hargument 0 "[0]" (by rfl) (by decide)
  cases hcomposite : k.isComposite with
  | true =>
    exact faults_append (faults_append (faults_append (sortOperand_faults hcomposite h₀ h.continues
      hlead (isBracedPath_between hbraced (by decide))
      (show isSchemaName "sortKeyValue0" = true by decide) (by decide) hk hlow)))
  | false =>
    rw [storedSortValue_of_single hcomposite] at hlow
    rw [betweenBody_of_single hcomposite]
    refine faults_after (exec_addCondition separator h (by decide) hsort) ?_
    rintro m₁ ⟨h₁, -⟩
    exact faults_cons (bindValue_faults ":sortKey0" h₀ hlead hlow h₁)

lemma betweenBody_faults_high (h₀ : m₀.Holds l sc) (hk : k.Plain o)
    (hargument : sc.Leads argument d) (hbraced : isBracedPath argument.toList = true)
    (hsort : '$' ∉ sortName.toList) (h : m₀.Drafts m w c)
    (hlow : storedSortValue k o ((d.member "between").item 0) = .ok low)
    (hhigh : storedSortValue k o ((d.member "between").item 1) = .error e) :
    (execAll separator (betweenBody k argument sortName o)).Faults e m := by
  have hlead := leads_between hargument 0 "[0]" (by rfl) (by decide)
  have hlead' := leads_between hargument 1 "[1]" (by rfl) (by decide)
  cases hcomposite : k.isComposite with
  | true =>
    refine faults_append (faults_append (faults_after (exec_sortOperand separator h₀ h.continues
      hlead (isBracedPath_between hbraced (by decide))
      (show isSchemaName "sortKeyValue0" = true by decide) (by decide) hk hlow) ?_))
    rintro m₁ ⟨hm₁, -⟩
    have h₁ := h.rebind hm₁ (by decide) (by decide)
    exact sortOperand_faults hcomposite h₀ h₁.continues hlead'
      (isBracedPath_between hbraced (by decide))
      (show isSchemaName "sortKeyValue1" = true by decide) (by decide) hk hhigh
  | false =>
    rw [storedSortValue_of_single hcomposite] at hlow hhigh
    rw [betweenBody_of_single hcomposite]
    refine faults_after (exec_addCondition separator h (by decide) hsort) ?_
    rintro m₁ ⟨h₁, -⟩
    have hsupplied : Supplies separator m₀ m₁ "sortKeyValue0" _ low :=
      supplies_operand h₀ hlead hlow
    refine faults_cons_after (exec_bindValue h₁ hsupplied (by decide)) ?_
    rintro m₂ ⟨h₂, -⟩
    exact faults_cons (bindValue_faults ":sortKey1" h₀ hlead' hhigh h₂)

/-- The operator with two operands ends the run if one of them cannot be made ready. -/
lemma betweenConditions_faults (h₀ : m₀.Holds l sc) (hk : k.Plain o)
    (hargument : sc.Leads argument d) (hbraced : isBracedPath argument.toList = true)
    (hsort : '$' ∉ sortName.toList) (h : m₀.Drafts m w c)
    (he : addBetween k o sortName d c = .error e) :
    ((betweenConditions k modelQueryExpression argument sortName o).exec separator).Faults e m := by
  have hcondition := h₀.eval_operatorUsed separator h.continues hargument
    (show isSchemaName "between" = true by decide)
  unfold addBetween at he
  cases hnull : (d.member "between").isNull with
  | true =>
    rw [hnull, if_pos rfl] at he
    cases he
  | false =>
    rw [hnull, if_neg (by simp)] at he
    rw [betweenConditions_eq]
    refine faults_choice hcondition (by simp [hnull, Value.holds]) (fun kind heq => ?_) ?_
    · have hlength := congrArg List.length heq
      simp [betweenBody, addCondition] at hlength
      omega
    · rcases error_of_bind_eq_error he with hlow | ⟨low, hlow, he⟩
      · exact betweenBody_faults_low h₀ hk hargument hbraced hsort h hlow
      · rcases error_of_bind_eq_error he with hhigh | ⟨high, -, hok⟩
        · exact betweenBody_faults_high h₀ hk hargument hbraced hsort h hlow hhigh
        · cases hok

end Between

/-- The sort argument ends the run if one of its operands cannot be made ready. -/
lemma sortKeyConditions_faults (h₀ : m₀.Holds l sc) (hk : k.Plain o) (h : m₀.Drafts m w c)
    (he : addSortConditions k o (.map sc.arguments) c = .error e) :
    (execAll separator (sortKeyConditions k modelQueryExpression o)).Faults e m := by
  unfold addSortConditions at he
  unfold sortKeyConditions
  cases hargument : k.sortArgument? with
  | none =>
    rw [hargument] at he
    cases he
  | some argument =>
    cases hsort : k.sortName? o with
    | none =>
      rw [hargument, hsort] at he
      cases he
    | some sortName =>
      rw [hargument, hsort] at he
      have hname := hk.sortArgument hargument
      have hleads := sc.leads_argument hname
      have hbraced := isBracedPath_argument hname
      simp only [oneOperandConditions_eq]
      rcases error_of_bind_eq_error he with he | ⟨c₁, hc₁, he⟩
      · exact faults_append (operatorStmts_faults h₀ hk hleads hbraced (hk.sortName hsort)
          (by decide) h he)
      · refine faults_after (exec_operatorStmts separator h₀ hk hleads hbraced (hk.sortName hsort)
          (by decide) h hc₁) fun m₁ h₁ => faults_cons ?_
        exact betweenConditions_faults h₀ hk hleads hbraced (hk.sortName hsort) h₁ he

/-! ## Key conditions -/

variable {q : Address}

/-- The condition on the partition ends the run if its argument has no stored form. -/
lemma ofPartition_faults {partition : String} (rest : List Stmt) (h₀ : m₀.Holds l sc)
    (hm : m₀.Continues m) (hq : m₀.store.New q)
    (hbound : m.bindings.get? modelQueryExpression = some (.ref q))
    (hc : m.store.get? q = some (.map [])) (hname : isSchemaName partition = true)
    (he : (sc.arguments.field partition).stored = .error e) :
    (execAll separator ([
      .set (.ref (child modelQueryExpression "expression"))
        (.text ("#" ++ partition ++ " = :" ++ partition)),
      .set (.ref (child modelQueryExpression "expressionNames"))
        (.object [("#" ++ partition, .text partition)]),
      .set (.ref (child modelQueryExpression "expressionValues"))
        (.object [(":" ++ partition, .toAttribute (.ref ("ctx.args." ++ partition)))])] ++
      rest)).Faults e m := by
  refine faults_append (faults_after (exec_partitionNames separator hm hq hbound hc hname) ?_)
  rintro m₁ ⟨hm₁, -⟩
  have hfails : Fails separator m₁ (.toAttribute (.ref ("ctx.args." ++ partition))) e := by
    intro m₂ hm₂
    obtain ⟨v, hv, hshows⟩ := h₀.eval_leads separator (hm₁.extend hm₂) (sc.leads_argument hname)
    exact ⟨m₂, eval_toAttribute_fails hv (by rw [hshows.read_eq, he])⟩
  exact faults_cons (set_faults (eval_object_fails .nil hfails))

/-- **Arguments without a key condition end the run with a fault.** -/
theorem keyCondition_faults (separator : String) (h₀ : m₀.Holds l sc) (hk : k.Plain o)
    (hm : m₀.Continues m) (hq : m₀.store.New q)
    (hbound : m.bindings.get? modelQueryExpression = some (.ref q))
    (hc : m.store.get? q = some (.map []))
    (he : keyConditionOf k o (.map sc.arguments) = .error e) :
    ((keyCondition k modelQueryExpression o).exec separator).Faults e m := by
  have hcondition := h₀.eval_present separator hm (sc.leads_argument hk.partition)
  have hmember : (Data.map sc.arguments).member k.partition.name =
      sc.arguments.field k.partition.name := rfl
  rw [keyConditionOf, hmember] at he
  cases hnull : (sc.arguments.field k.partition.name).isNull with
  | true =>
    rw [hnull, if_pos rfl] at he
    cases he
  | false =>
    rw [hnull, if_neg (by simp)] at he
    refine faults_choice hcondition (by simp [hnull, Value.holds])
      (fun kind heq => by simpa using congrArg List.length heq) ?_
    rcases error_of_bind_eq_error he with he | ⟨a, ha, he⟩
    · exact ofPartition_faults _ h₀ hm hq hbound hc hk.partition he
    · have hconditions : addSortConditions k o (.map sc.arguments)
          (.ofPartition k.partition.name a) = .error e := by
        rcases error_of_bind_eq_error he with he | ⟨c, -, hok⟩
        · exact he
        · cases hok
      refine faults_after (exec_ofPartition separator h₀ hm hq hbound hc hk.partition ha) ?_
      rintro m₁ ⟨w, -, h₁⟩
      exact sortKeyConditions_faults h₀ hk h₁ hconditions

/-- **Where a query ends well, its arguments have a key condition**, and its direction is not
refused. -/
theorem exists_keyConditionOf_of_run {list : Bool} {m' : Machine} (h : m.Holds l sc)
    (hk : k.Plain o) (hrun : (queryExpression k list o).exec separator m = .ok () m') :
    refusesDirection k list (.map sc.arguments) = false ∧
      ∃ c?, keyConditionOf k o (.map sc.arguments) = .ok c? := by
  have haccepts : refusesDirection k list (.map sc.arguments) = false := by
    cases hrefuses : refusesDirection k list (.map sc.arguments) with
    | false => rfl
    | true =>
      rw [exec_queryExpression_refused separator h hk hrefuses] at hrun
      cases hrun
  refine ⟨haccepts, ?_⟩
  cases hc? : keyConditionOf k o (.map sc.arguments) with
  | ok c? => exact ⟨c?, rfl⟩
  | error e =>
    exfalso
    have hcheck := exec_checkDirection separator h (.refl m) hk list
    rw [haccepts, if_neg (by simp)] at hcheck
    obtain ⟨q, m₁, heval, hm₁, hq, hc⟩ := eval_emptyObject separator m
    have hset := exec_set_variable (show '.' ∉ modelQueryExpression.toList by decide) heval
    have hrebinds := Machine.Rebinds.put m₁ modelQueryExpression (.ref q) m₁.log
    obtain ⟨m₂, hfault⟩ := keyCondition_faults separator h hk
      (((Machine.Continues.refl m).extend hm₁).rebind hrebinds (by decide)) hq
      (Entries.get?_put_self _ _ _) hc hc?
    rw [queryExpression, Stmt.exec, execAll_append_ok hcheck, execAll_cons_ok hset,
      execAll_singleton, hfault] at hrun
    cases hrun

end Operands

end TableKeys.Template
