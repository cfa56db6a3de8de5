/-
# Key conditions by their clauses

A key condition is the condition on the partition, followed by one clause for each operator of the
sort argument that is used, in the order of the operators (`keyConditionOf_eq`). A clause is what
its operator asks of the sort attribute, with the operands that its placeholders stand for.

The placeholders of the expression are the ones that stand for something: this is so for the
condition on the partition, and every clause keeps it (`closed_keyCondition`).
-/
import TableKeys.Proofs.KeyCondition
import TableKeys.Proofs.Placeholders

namespace TableKeys

open Snippet

/-- A condition on the sort attribute, and what the placeholders of its operands stand for. -/
structure Clause where
  condition : String
  operands : List (String × AttributeValue)

/-- The sort attribute; a key without sort fields has none. -/
def KeyDecl.sortAttribute (k : KeyDecl) (o : Options) : String :=
  (k.sortName? o).getD ""

namespace KeyCondition

/-- Adds a clause. -/
def add (sortName : String) (c : KeyCondition) (clause : Clause) : KeyCondition where
  expression := c.expression ++ " AND " ++ clause.condition
  names := c.names.put "#sortKey" sortName
  values := c.values.putAll clause.operands

/-- The condition on a partition with clauses. -/
def ofClauses (partition : String) (a : AttributeValue) (sortName : String)
    (clauses : List Clause) : KeyCondition where
  expression := "#" ++ partition ++ " = :" ++ partition ++
    String.join (clauses.map fun clause => " AND " ++ clause.condition)
  names := .ofList (("#" ++ partition, partition) :: clauses.map fun _ => ("#sortKey", sortName))
  values := .ofList ((":" ++ partition, a) :: clauses.flatMap Clause.operands)

end KeyCondition

/-- All operators of the sort argument in the order of their clauses, and what each asks of the
sort attribute. -/
def sortOperators : List (String × String) := [
  ("eq", "#sortKey = :sortKey"),
  ("lt", "#sortKey < :sortKey"),
  ("le", "#sortKey <= :sortKey"),
  ("gt", "#sortKey > :sortKey"),
  ("ge", "#sortKey >= :sortKey"),
  ("beginsWith", "begins_with(#sortKey, :sortKey)"),
  ("between", "#sortKey BETWEEN :sortKey0 AND :sortKey1")]

/-- The statements of a query have these operators, those with one operand first. -/
lemma sortOperators_eq : sortOperators = sortKeyOperators ++ [("between", betweenCondition)] := by
  decide

/-- The operator has an operand. -/
def usesOperator (argument : Data) (operator : String × String) : Bool :=
  !(argument.member operator.1).isNull

/-- The clause of an operator. -/
def clauseOf (k : KeyDecl) (o : Options) (argument : Data) (operator : String × String) :
    Except Fault Clause :=
  if operator.1 = "between" then do
    let low ← storedSortValue k o ((argument.member "between").item 0)
    let high ← storedSortValue k o ((argument.member "between").item 1)
    return ⟨operator.2, [(":sortKey0", low), (":sortKey1", high)]⟩
  else do
    let a ← storedSortValue k o (argument.member operator.1)
    return ⟨operator.2, [(":sortKey", a)]⟩

/-- The operators that are used in the arguments of a query; none without a sort key. -/
def usedOperators (k : KeyDecl) (arguments : Data) : List (String × String) :=
  match k.sortArgument? with
  | some argument => sortOperators.filter (usesOperator (arguments.member argument))
  | none => []

/-- The argument for the sort key. -/
def sortArgument (k : KeyDecl) (arguments : Data) : Data :=
  (k.sortArgument?.map arguments.member).getD .null

/-- The clauses for the arguments of a query. -/
def clausesOf (k : KeyDecl) (o : Options) (arguments : Data) : Except Fault (List Clause) :=
  (usedOperators k arguments).mapM (clauseOf k o (sortArgument k arguments))

/-! ## The clauses of a key condition -/

section Clauses

variable {k : KeyDecl} {o : Options} {sortName : String} {argument arguments : Data}
  {operators : List (String × String)}

lemma addOperator_eq (c : KeyCondition) {operator : String × String}
    (hoperator : operator.1 ≠ "between") (huses : usesOperator argument operator = true) :
    addOperator k o sortName argument c operator =
      c.add sortName <$> clauseOf k o argument operator := by
  have hnull : (argument.member operator.1).isNull = false := by
    simpa [usesOperator] using huses
  rw [addOperator, if_neg (by simp [hnull]), clauseOf, if_neg hoperator]
  cases storedSortValue k o (argument.member operator.1) <;> rfl

lemma addBetween_eq (c : KeyCondition) :
    addBetween k o sortName argument c = (·.foldl (KeyCondition.add sortName) c) <$>
      ([("between", betweenCondition)].filter (usesOperator argument)).mapM
        (clauseOf k o argument) := by
  rw [addBetween, List.filter_cons, usesOperator]
  cases (argument.member "between").isNull with
  | true => rfl
  | false =>
    rw [if_neg (by simp), Bool.not_false, if_pos rfl, List.filter_nil, List.mapM_cons,
      List.mapM_nil, clauseOf, if_pos rfl]
    cases storedSortValue k o ((argument.member "between").item 0) with
    | error f => rfl
    | ok low => cases storedSortValue k o ((argument.member "between").item 1) <;> rfl

/-- The operators with one operand add a clause each, as far as they are used. -/
lemma foldlM_addOperator (hoperators : ∀ operator ∈ operators, operator.1 ≠ "between")
    (c : KeyCondition) :
    operators.foldlM (addOperator k o sortName argument) c =
      (·.foldl (KeyCondition.add sortName) c) <$>
        (operators.filter (usesOperator argument)).mapM (clauseOf k o argument) := by
  induction operators generalizing c with
  | nil => rfl
  | cons operator operators ih =>
    have ih := ih fun other hother => hoperators other (by simp [hother])
    rw [List.foldlM_cons, List.filter_cons]
    cases huses : usesOperator argument operator with
    | false =>
      have hnull : (argument.member operator.1).isNull = true := by
        simpa [usesOperator] using huses
      rw [if_neg (by simp), addOperator, if_pos hnull]
      exact ih c
    | true =>
      rw [if_pos rfl, List.mapM_cons, addOperator_eq c (hoperators operator (by simp)) huses]
      cases clauseOf k o argument operator with
      | error f => rfl
      | ok clause =>
        refine (ih (c.add sortName clause)).trans ?_
        cases (operators.filter (usesOperator argument)).mapM (clauseOf k o argument) <;> rfl

lemma sortName?_isSome (k : KeyDecl) (o : Options) :
    (k.sortName? o).isSome = k.sortArgument?.isSome := by
  unfold KeyDecl.sortName? KeyDecl.sortArgument?
  split <;> rfl

lemma addSortConditions_eq (k : KeyDecl) (o : Options) (arguments : Data) (c : KeyCondition) :
    addSortConditions k o arguments c =
      (·.foldl (KeyCondition.add (k.sortAttribute o)) c) <$> clausesOf k o arguments := by
  have hsome := sortName?_isSome k o
  unfold addSortConditions clausesOf usedOperators sortArgument KeyDecl.sortAttribute
  cases hargument : k.sortArgument? with
  | none => rfl
  | some argument =>
    rw [hargument] at hsome
    obtain ⟨sortName, hsort⟩ := Option.isSome_iff_exists.mp hsome
    rw [hsort]
    simp only [Option.map_some, Option.getD_some]
    rw [foldlM_addOperator (by decide), sortOperators_eq, List.filter_append, List.mapM_append]
    cases (sortKeyOperators.filter (usesOperator (arguments.member argument))).mapM
        (clauseOf k o (arguments.member argument)) with
    | error f => rfl
    | ok clauses =>
      refine (addBetween_eq _).trans ?_
      cases ([("between", betweenCondition)].filter (usesOperator (arguments.member argument))).mapM
          (clauseOf k o (arguments.member argument)) with
      | error f => rfl
      | ok clauses' =>
        show Except.ok (clauses'.foldl _ (clauses.foldl _ c)) =
          Except.ok ((clauses ++ clauses').foldl _ c)
        rw [List.foldl_append]

/-- Clauses that are added one after the other. -/
lemma foldl_add (sortName : String) (clauses : List Clause) (c : KeyCondition) :
    clauses.foldl (KeyCondition.add sortName) c = {
      expression := c.expression ++
        String.join (clauses.map fun clause => " AND " ++ clause.condition)
      names := c.names.putAll (clauses.map fun _ => ("#sortKey", sortName))
      values := c.values.putAll (clauses.flatMap Clause.operands) } := by
  induction clauses generalizing c with
  | nil => simp [Entries.putAll_nil]
  | cons clause clauses ih =>
    rw [List.foldl_cons, ih, KeyCondition.add]
    congr 1
    · rw [List.map_cons, String.join_cons, String.append_assoc, String.append_assoc,
        String.append_assoc]
    · exact (List.foldl_append).symm

/-- **The key condition is the condition on the partition with the clauses.** -/
theorem keyConditionOf_eq (hpresent : (arguments.member k.partition.name).isNull = false) :
    keyConditionOf k o arguments = do
      let a ← (arguments.member k.partition.name).stored
      let clauses ← clausesOf k o arguments
      return some (.ofClauses k.partition.name a (k.sortAttribute o) clauses) := by
  rw [keyConditionOf, if_neg (by simp [hpresent])]
  cases (arguments.member k.partition.name).stored with
  | error f => rfl
  | ok a =>
    simp only [addSortConditions_eq]
    cases clausesOf k o arguments with
    | error f => rfl
    | ok clauses =>
      show Except.ok (some (clauses.foldl _ _)) = Except.ok (some _)
      rw [foldl_add]
      rfl

end Clauses

/-! ## Placeholders of a key condition -/

/-- The placeholders of the condition stand for the sort attribute and the operands. -/
structure Clause.Closed (clause : Clause) : Prop where
  names : namePlaceholders clause.condition = ["#sortKey"]
  values : valuePlaceholders clause.condition = clause.operands.map Prod.fst

section Placeholders

variable {k : KeyDecl} {o : Options} {argument arguments : Data} {operator : String × String}
  {clause : Clause} {clauses : List Clause} {partition sortName t : String} {a : AttributeValue}

lemma condition_of_clauseOf (h : clauseOf k o argument operator = .ok clause) :
    clause.condition = operator.2 := by
  unfold clauseOf at h
  split at h
  · obtain ⟨low, -, h⟩ := exists_of_bind_eq_ok h
    obtain ⟨high, -, h⟩ := exists_of_bind_eq_ok h
    rw [← Except.ok.inj h]
  · obtain ⟨a, -, h⟩ := exists_of_bind_eq_ok h
    rw [← Except.ok.inj h]

lemma closed_of_clauseOf (hoperator : operator ∈ sortOperators)
    (h : clauseOf k o argument operator = .ok clause) : clause.Closed := by
  have hsingle : ∀ operator ∈ sortKeyOperators,
      namePlaceholders operator.2 = ["#sortKey"] ∧ valuePlaceholders operator.2 = [":sortKey"] := by
    decide +kernel
  have hbetween : namePlaceholders betweenCondition = ["#sortKey"] ∧
      valuePlaceholders betweenCondition = [":sortKey0", ":sortKey1"] := by
    decide +kernel
  rw [sortOperators_eq, List.mem_append, List.mem_singleton] at hoperator
  unfold clauseOf at h
  rcases hoperator with hoperator | rfl
  · have hname : operator.1 ≠ "between" :=
      (show ∀ operator ∈ sortKeyOperators, operator.1 ≠ "between" by decide) _ hoperator
    rw [if_neg hname] at h
    obtain ⟨a, -, h⟩ := exists_of_bind_eq_ok h
    rw [← Except.ok.inj h]
    exact ⟨(hsingle _ hoperator).1, (hsingle _ hoperator).2⟩
  · rw [if_pos rfl] at h
    obtain ⟨low, -, h⟩ := exists_of_bind_eq_ok h
    obtain ⟨high, -, h⟩ := exists_of_bind_eq_ok h
    rw [← Except.ok.inj h]
    exact ⟨hbetween.1, hbetween.2⟩

/-- The clauses are those of the operators that are used, in their order. -/
lemma forall₂_of_clausesOf (h : clausesOf k o arguments = .ok clauses) :
    List.Forall₂ (fun operator clause =>
      clauseOf k o (sortArgument k arguments) operator = .ok clause)
      (usedOperators k arguments) clauses :=
  forall₂_of_mapM_ok h

lemma mem_sortOperators_of_used (h : operator ∈ usedOperators k arguments) :
    operator ∈ sortOperators := by
  unfold usedOperators at h
  split at h
  · exact List.mem_of_mem_filter h
  · cases h

lemma closed_of_clausesOf (h : clausesOf k o arguments = .ok clauses) :
    ∀ clause ∈ clauses, clause.Closed := by
  intro clause hclause
  obtain ⟨operator, hoperator, hof⟩ := mem_of_mapM_ok h clause hclause
  exact closed_of_clauseOf (mem_sortOperators_of_used hoperator) hof

/-- A key condition asks for what the operators ask for. -/
lemma expression_ofClauses (h : clausesOf k o arguments = .ok clauses) :
    (KeyCondition.ofClauses partition a sortName clauses).expression =
      "#" ++ partition ++ " = :" ++ partition ++
        String.join ((usedOperators k arguments).map fun operator => " AND " ++ operator.2) := by
  have hconditions : clauses.map (fun clause => " AND " ++ clause.condition) =
      (usedOperators k arguments).map fun operator => " AND " ++ operator.2 := by
    have hof := forall₂_of_clausesOf h
    clear h
    generalize usedOperators k arguments = operators at hof
    induction hof with
    | nil => rfl
    | cons hclause _ ih => rw [List.map_cons, List.map_cons, ih, condition_of_clauseOf hclause]
  rw [KeyCondition.ofClauses, hconditions]

/-- The conditions of clauses, each joined on, and cut into their parts. -/
lemma tokens_conditions (clauses : List Clause) :
    EndsWord (String.join (clauses.map fun clause => " AND " ++ clause.condition)).toList ∧
      tokens (String.join (clauses.map fun clause => " AND " ++ clause.condition)) =
        clauses.flatMap fun clause => literalTokens " AND " ++ tokens clause.condition := by
  induction clauses with
  | nil => exact ⟨endsWord_nil, rfl⟩
  | cons clause clauses ih =>
    rw [List.map_cons, String.join_cons]
    constructor
    · rw [String.append_assoc, String.toList_append]
      exact endsWord_cons (by decide) _
    · rw [tokens_append _ ih.1, tokens_plain_append (by decide) (by decide), ih.2]
      rfl

/-- **The expression of a key condition, cut into its parts.** -/
theorem tokens_ofClauses (hpartition : isSchemaName partition = true) :
    tokens (KeyCondition.ofClauses partition a sortName clauses).expression =
      .name ("#" ++ partition) :: (literalTokens " = " ++ .value (":" ++ partition) ::
        clauses.flatMap fun clause => literalTokens " AND " ++ tokens clause.condition) := by
  have hequal : "#" ++ partition ++ " = :" ++ partition =
      "#" ++ partition ++ (" = " ++ (":" ++ partition)) := by
    rw [show " = :" = " = " ++ ":" from rfl, String.append_assoc, String.append_assoc,
      String.append_assoc, String.append_assoc]
  have hends : EndsWord (" = " ++ (":" ++ partition)).toList := by
    rw [String.toList_append]
    exact endsWord_cons (by decide) _
  obtain ⟨hclauses, hcut⟩ := tokens_conditions clauses
  rw [KeyCondition.ofClauses, tokens_append _ hclauses, hcut, hequal, tokens_append _ hends,
    tokens_name hpartition, tokens_plain_append (by decide) (by decide), tokens_value hpartition]
  simp

lemma namePlaceholders_ofClauses (hpartition : isSchemaName partition = true)
    (hclauses : ∀ clause ∈ clauses, clause.Closed) :
    namePlaceholders (KeyCondition.ofClauses partition a sortName clauses).expression =
      ("#" ++ partition) :: clauses.map fun _ => "#sortKey" := by
  have hliteral := filterMap_literalTokens (f := Token.name?) fun _ => rfl
  have hconditions : (clauses.flatMap fun clause =>
      literalTokens " AND " ++ tokens clause.condition).filterMap Token.name? =
        clauses.map fun _ => "#sortKey" := by
    rw [List.filterMap_flatMap, List.map_eq_flatMap]
    refine List.flatMap_congr fun clause hclause => ?_
    rw [List.filterMap_append, hliteral]
    exact (hclauses clause hclause).names
  rw [namePlaceholders, tokens_ofClauses hpartition, List.filterMap_cons, List.filterMap_append,
    hliteral, List.filterMap_cons, hconditions]
  rfl

lemma valuePlaceholders_ofClauses (hpartition : isSchemaName partition = true)
    (hclauses : ∀ clause ∈ clauses, clause.Closed) :
    valuePlaceholders (KeyCondition.ofClauses partition a sortName clauses).expression =
      (":" ++ partition) :: (clauses.flatMap Clause.operands).map Prod.fst := by
  have hliteral := filterMap_literalTokens (f := Token.value?) fun _ => rfl
  have hconditions : (clauses.flatMap fun clause =>
      literalTokens " AND " ++ tokens clause.condition).filterMap Token.value? =
        clauses.flatMap fun clause => clause.operands.map Prod.fst := by
    rw [List.filterMap_flatMap]
    refine List.flatMap_congr fun clause hclause => ?_
    rw [List.filterMap_append, hliteral]
    exact (hclauses clause hclause).values
  rw [valuePlaceholders, tokens_ofClauses hpartition, List.filterMap_cons, List.filterMap_append,
    hliteral, List.filterMap_cons, hconditions, List.map_flatMap]
  rfl

/-- **The placeholders of the expression are the ones that stand for something.** -/
theorem placeholders_ofClauses (hpartition : isSchemaName partition = true)
    (hclauses : ∀ clause ∈ clauses, clause.Closed) (t : String) :
    let c := KeyCondition.ofClauses partition a sortName clauses
    (t ∈ namePlaceholders c.expression ↔ t ∈ c.names.keys) ∧
      (t ∈ valuePlaceholders c.expression ↔ t ∈ c.values.keys) := by
  intro c
  have hnames : t ∈ c.names.keys ↔ _ := Entries.mem_keys_ofList
  have hvalues : t ∈ c.values.keys ↔ _ := Entries.mem_keys_ofList
  rw [hnames, hvalues, namePlaceholders_ofClauses hpartition hclauses,
    valuePlaceholders_ofClauses hpartition hclauses, List.map_cons, List.map_cons, List.map_map]
  exact ⟨Iff.rfl, Iff.rfl⟩

end Placeholders

end TableKeys
