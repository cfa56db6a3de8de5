/-
# What the snippets for queries do

A direction is refused where there is nothing to order (`refusesDirection`): the template raises
an error and has changed nothing by then. Otherwise the key condition of the arguments is built, and
a list leaves it in the metadata (`exec_listQuery`).
-/
import TableKeys.Proofs.Drafts

namespace TableKeys

open Template Snippet

/-- What is said when a direction is refused. -/
def directionRefusal (k : KeyDecl) : String :=
  if k.sortFields.isEmpty then
    "sortDirection is not supported for List operations without a Sort key defined."
  else
    "When providing argument 'sortDirection' you must also provide argument '" ++
      k.partition.name ++ "'."

namespace Template

section Directions

variable {separator : String} {m₀ m : Machine} {l : Layout} {sc : Scene} {k : KeyDecl}
  {o : Options}

/-- An error with a plain text is raised on a condition. -/
lemma exec_refuse {condition : Expr} {b : Bool} {message type : String}
    (hcondition : condition.eval separator m = .ok (.bool b) m) (hmessage : '$' ∉ message.toList)
    (htype : '$' ∉ type.toList) :
    (Stmt.choice condition [.error (.text message) (some (.text type))] none).exec separator m =
      if b then .error (.raised message (.text type)) m else .ok () m := by
  cases b with
  | false => exact exec_choice_none hcondition rfl
  | true =>
    rw [exec_choice_true hcondition rfl, execBranch_singleton (by simp), Stmt.exec,
      Run.bind_ok (eval_text_plain hmessage)]
    simp only
    rw [Run.bind_ok (eval_text_plain htype), Run.bind_ok (Run.read_apply _),
      Run.bind_ok (Run.read_apply _)]
    rfl

lemma Scene.leads_direction (sc : Scene) :
    sc.Leads sortDirectionPath ((Data.map sc.arguments).member "sortDirection") :=
  sc.leads_argument (show isSchemaName "sortDirection" = true by decide)

/-- **A direction is checked**: it is refused with an error, or nothing happens. -/
theorem exec_checkDirection (separator : String) (h₀ : m₀.Holds l sc) (hm : m₀.Continues m)
    (hk : k.Plain o) (list : Bool) :
    execAll separator (checkDirection k list) m =
      if refusesDirection k list (.map sc.arguments) then
        .error (.raised (directionRefusal k) (.text invalidArguments)) m
      else .ok () m := by
  have hdirection := h₀.eval_present separator hm sc.leads_direction
  have htype : '$' ∉ invalidArguments.toList := by decide
  unfold checkDirection refusesDirection directionRefusal
  dsimp only
  cases hsort : k.sortFields.isEmpty with
  | true =>
    simp only [if_true, Bool.true_or, Bool.and_true]
    rw [execAll_singleton, exec_refuse hdirection (by decide) htype]
  | false =>
    cases list with
    | false => simp [execAll_nil]
    | true =>
      have hpartition : (Expr.isNull (.ref ("ctx.args." ++ k.partition.name))).eval separator m =
          .ok (.bool ((Data.map sc.arguments).member k.partition.name).isNull) m := by
        obtain ⟨v, hv, hshows⟩ :=
          h₀.eval_leads separator hm (sc.leads_argument hk.partition)
        rw [Expr.eval, Run.bind_ok hv, Machine.Holds.isNull_of_shows hshows]
        rfl
      have hname := notMem_of_isSchemaName hk.partition (show isSchemaChar '$' = false by decide)
      simp only [Bool.false_eq_true, if_false, if_true, Bool.false_or, Bool.true_and]
      rw [execAll_singleton, exec_refuse (eval_and hpartition fun _ => hdirection) _ htype,
        Bool.and_comm]
      simp only [String.toList_append, List.mem_append, not_or]
      exact ⟨⟨by decide, hname⟩, by decide⟩

end Directions

section Lists

variable {separator : String} {m : Machine} {l : Layout} {sc : Scene} {k : KeyDecl} {o : Options}
  {c? : Option KeyCondition}

/-- The map of the key condition is made, and the variable names it. -/
theorem exec_queryExpression (separator : String) (h : m.Holds l sc) (hk : k.Plain o) {list : Bool}
    (haccepts : refusesDirection k list (.map sc.arguments) = false)
    (hc? : keyConditionOf k o (.map sc.arguments) = .ok c?) :
    ((queryExpression k list o).exec separator).Reaches m fun m' => m.Continues m' ∧
      ∃ q, m'.bindings.get? modelQueryExpression = some (.ref q) ∧
        Shows m'.store m.store.New (keyConditionData c?) (.ref q) := by
  have hcheck := exec_checkDirection separator h (.refl m) hk list
  rw [haccepts, if_neg (by simp)] at hcheck
  obtain ⟨q, m₁, heval, hm₁, hq, hc⟩ := eval_emptyObject separator m
  have hset := exec_set_variable (show '.' ∉ modelQueryExpression.toList by decide) heval
  have hrebinds := Machine.Rebinds.put m₁ modelQueryExpression (.ref q) m₁.log
  obtain ⟨m₂, hexec, hm₂, hbound, hshows⟩ := exec_keyCondition separator h hk
    (((Machine.Continues.refl m).extend hm₁).rebind hrebinds (by decide)) hq
    (Entries.get?_put_self _ _ _) hc hc?
  refine ⟨m₂, ?_, hm₂, q, hbound, hshows⟩
  rw [queryExpression, Stmt.exec, execAll_append_ok hcheck, execAll_cons_ok hset,
    execAll_singleton, hexec]

/-- A refused direction is an error, and nothing was changed. -/
theorem exec_queryExpression_refused (separator : String) (h : m.Holds l sc) (hk : k.Plain o)
    {list : Bool} (hrefuses : refusesDirection k list (.map sc.arguments) = true) :
    (queryExpression k list o).exec separator m =
      .error (.raised (directionRefusal k) (.text invalidArguments)) m := by
  have hcheck := exec_checkDirection separator h (.refl m) hk list
  rw [hrefuses, if_pos rfl] at hcheck
  rw [queryExpression, Stmt.exec, execAll_append, Run.bind_error hcheck]

/-- **A list leaves its key condition in the metadata.** -/
theorem exec_listQuery (separator : String) (h : m.Stages sc) (hk : k.Plain o)
    (haccepts : refusesDirection k true (.map sc.arguments) = false)
    (hc? : keyConditionOf k o (.map sc.arguments) = .ok c?) :
    ((listQuery k o).exec separator).Reaches m fun m' =>
      m'.Stages (sc.asked (keyConditionData c?)) := by
  obtain ⟨l, hl⟩ := h
  obtain ⟨m₁, hexec, hm₁, q, hbound, hshows⟩ :=
    exec_queryExpression separator hl hk haccepts hc?
  have h₁ := hl.continue hm₁
  obtain ⟨fields, hfields, hstore⟩ := h₁.store.setQuery
    (hshows.mono (fun a ha _ => hl.store.not_named ha) fun _ _ _ => rfl)
  have hvalue : (Expr.ref modelQueryExpression).eval separator m₁ = .ok (.ref q) m₁ :=
    eval_ref (resolve_queryExpression hbound)
  have hput := exec_metadataPut h₁ (show RecordKind.metadata.field? modelQueryExpression =
    some .queryExpression by decide) hvalue hfields
  have hrun : (listQuery k o).exec separator m = .ok () { m₁ with
      store := m₁.store.set (l.cell .metadata)
        (.record .metadata (fields.put .queryExpression (.ref q))) } := by
    rw [listQuery, Stmt.exec, execAll_cons_ok hexec, execAll_singleton]
    exact hput
  exact ⟨_, hrun, l, hstore, h₁.context, h₁.bound, h₁.output⟩

/-- **A list with a direction that is refused raises an error** and changes nothing. -/
theorem exec_listQuery_refused (separator : String) (h : m.Stages sc) (hk : k.Plain o)
    (hrefuses : refusesDirection k true (.map sc.arguments) = true) :
    (listQuery k o).exec separator m =
      .error (.raised (directionRefusal k) (.text invalidArguments)) m := by
  obtain ⟨l, hl⟩ := h
  rw [listQuery, Stmt.exec,
    execAll_cons_error (exec_queryExpression_refused separator hl hk hrefuses)]

end Lists

end Template

end TableKeys
