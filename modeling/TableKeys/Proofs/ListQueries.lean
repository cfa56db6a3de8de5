/-
# What a list leaves behind

The template for a list is evaluated on a request. It refuses a direction where there is nothing
to order, and then the context of the request is as it was. Otherwise the metadata get the key
condition: nothing without a partition argument, and else an expression with a clause for each
operator that is used, whose placeholders are the ones that stand for something
(`listQuery_publishes`).
-/
import TableKeys.Proofs.Clauses
import TableKeys.Proofs.Queries
import TableKeys.Proofs.QueryOperands

namespace TableKeys

open Template Snippet

/-! ## Operands that can be sent -/

/-- A query can send the operand: the components for a composite sort key can be texts, and any
other operand has a stored form. -/
def Serializable (k : KeyDecl) (d : Data) : Prop :=
  if k.isComposite then ∀ f ∈ k.sortFields, ∃ t, (d.member f).interpolated = .ok t
  else ∃ a, d.stored = .ok a

/-- The operands of an operator of the sort argument. -/
def operandsOf (argument : Data) (operator : String × String) : List Data :=
  if operator.1 = "between" then
    [(argument.member "between").item 0, (argument.member "between").item 1]
  else [argument.member operator.1]

/-- A query can send all operands that the arguments have. -/
structure SerializableArguments (k : KeyDecl) (arguments : Data) : Prop where
  partition : ∃ a, (arguments.member k.partition.name).stored = .ok a
  sort : ∀ operator ∈ usedOperators k arguments,
    ∀ d ∈ operandsOf (sortArgument k arguments) operator, Serializable k d

section Serializable

variable {k : KeyDecl} {o : Options} {d arguments : Data}

lemma Serializable.storedSortValue (h : Serializable k d) (o : Options) :
    ∃ a, TableKeys.storedSortValue k o d = .ok a := by
  unfold Serializable at h
  unfold TableKeys.storedSortValue sortValue
  cases hcomposite : k.isComposite with
  | false =>
    rw [hcomposite] at h
    exact h
  | true =>
    rw [hcomposite, if_pos rfl] at h
    obtain ⟨texts, htexts⟩ : ∃ texts, leadingTexts d k.sortFields = .ok texts := by
      refine exists_mapM_ok fun e he => ?_
      obtain ⟨f, hf, rfl⟩ := List.mem_map.mp ((List.takeWhile_sublist _).subset he)
      exact h f hf
    rw [if_pos rfl, htexts]
    exact ⟨_, rfl⟩

/-- An operator has a clause if its operands can be sent. -/
lemma exists_clauseOf (o : Options) {argument : Data} {operator : String × String}
    (h : ∀ d ∈ operandsOf argument operator, Serializable k d) :
    ∃ clause, clauseOf k o argument operator = .ok clause := by
  unfold operandsOf at h
  unfold clauseOf
  split at h
  · rename_i hbetween
    obtain ⟨low, hlow⟩ := (h ((argument.member "between").item 0) (by simp)).storedSortValue o
    obtain ⟨high, hhigh⟩ := (h ((argument.member "between").item 1) (by simp)).storedSortValue o
    rw [if_pos hbetween, hlow, hhigh]
    exact ⟨_, rfl⟩
  · rename_i hbetween
    obtain ⟨a, ha⟩ := (h (argument.member operator.1) (by simp)).storedSortValue o
    rw [if_neg hbetween, ha]
    exact ⟨_, rfl⟩

/-- **Arguments that can be sent have a key condition** if they have the partition. -/
theorem exists_keyConditionOf_present (o : Options) (h : SerializableArguments k arguments)
    (hpresent : (arguments.member k.partition.name).isNull = false) :
    ∃ a clauses, clausesOf k o arguments = .ok clauses ∧ keyConditionOf k o arguments =
      .ok (some (.ofClauses k.partition.name a (k.sortAttribute o) clauses)) := by
  obtain ⟨a, ha⟩ := h.partition
  obtain ⟨clauses, hclauses⟩ : ∃ clauses, clausesOf k o arguments = .ok clauses :=
    exists_mapM_ok fun operator hoperator => exists_clauseOf o (h.sort operator hoperator)
  refine ⟨a, clauses, hclauses, ?_⟩
  rw [keyConditionOf_eq hpresent, ha, hclauses]
  rfl

end Serializable

namespace Template

/-! ## Statements evaluated on a request -/

section Evaluation

variable {separator : String} {request : Request} {sc : Scene} {s : Stmt}

lemma Machine.Stages.restart {m : Machine} (h : m.Stages sc) : m.restart.Stages sc := by
  obtain ⟨l, hl⟩ := h
  exact ⟨l, hl.store, hl.context, congrArg some hl.context, rfl⟩

/-- A statement leaves what its machine holds at the end, and puts out a value. -/
lemma evaluate_reaches {context output : Data} (h : ∀ m : Machine, m.Stages request.scene →
      (s.exec separator).Reaches m fun m' =>
        m'.store.read m'.context = context ∧ m'.store.read m'.output = output) :
    (evaluate request (s.run separator)).result = .ok output ∧
      (evaluate request (s.run separator)).context = context := by
  obtain ⟨m', hexec, hcontext, houtput⟩ := h _ (Machine.start_stages request).restart
  have hwithin : Run.within none (s.exec separator) (Machine.start request).restart =
      .ok () m' := by
    rw [Run.within, hexec]
  have hrun : s.run separator (Machine.start request) = .ok m'.output m' := by
    rw [Stmt.run]
    exact Run.bind_ok (x := Run.within _ _) (m := (Machine.start request).restart) hwithin
  rw [evaluate, hrun]
  exact ⟨congrArg Except.ok houtput, hcontext⟩

/-- A statement leaves the scene to which it leads. -/
lemma evaluate_statement (h : ∀ m : Machine, m.Stages request.scene →
      (s.exec separator).Reaches m fun m' => m'.Stages sc) :
    (evaluate request (s.run separator)).result = .ok .null ∧
      (evaluate request (s.run separator)).context = sc.data := by
  refine evaluate_reaches fun m hm => ?_
  obtain ⟨m', hexec, l, hl⟩ := h m hm
  refine ⟨m', hexec, hl.read_context, ?_⟩
  rw [hl.output]
  rfl

/-- A statement that fails before it changes anything leaves the context as it was. -/
lemma evaluate_statement_error {e : Failure} (h : ∀ m : Machine, m.Stages request.scene →
      s.exec separator m = .error e m) :
    (evaluate request (s.run separator)).result = .error (e.within none) ∧
      (evaluate request (s.run separator)).context = request.data := by
  have hstart := (Machine.start_stages request).restart
  have hwithin : Run.within none (s.exec separator) (Machine.start request).restart =
      .error (e.within none) (Machine.start request).restart := by
    rw [Run.within, h _ hstart]
  have hrun : s.run separator (Machine.start request) =
      .error (e.within none) (Machine.start request).restart := by
    rw [Stmt.run]
    exact Run.bind_error (x := Run.within _ _) (m := (Machine.start request).restart) hwithin
  obtain ⟨l, hl⟩ := hstart
  rw [evaluate, hrun]
  exact ⟨rfl, hl.read_context.trans request.scene_data⟩

end Evaluation

/-- **What a list leaves behind.** A direction is refused if there is no sort field or no partition
argument; then the context is as it was. Otherwise the metadata get the key condition, and nothing
else changes: the empty map without a partition argument, else an expression with what each operator
that is used asks for, in the order of the operators. The placeholders in the expression are the
keys of the two maps. -/
theorem listQuery_publishes {k : KeyDecl} {o : Options} {request : Request} (separator : String)
    (hk : k.Plain o) (hsend : SerializableArguments k (.map request.arguments.texts)) :
    let arguments := Data.map request.arguments.texts
    let partition := k.partition.name
    let outcome := evaluate request ((listQuery k o).run separator)
    let refused := (arguments.member "sortDirection").isNull = false ∧
      (k.sortFields = [] ∨ (arguments.member partition).isNull = true)
    ((∃ message, outcome.result = .error (.raised message (.text "InvalidArgumentsError"))) ↔
        refused) ∧
      (refused → outcome.context = request.data) ∧
      (¬ refused → outcome.result = .ok .null ∧ ∃ query,
        outcome.context = (request.scene.asked query).data ∧
        ((arguments.member partition).isNull = true → query = .map []) ∧
        ((arguments.member partition).isNull = false → ∃ c : KeyCondition, query = c.data ∧
          c.expression = "#" ++ partition ++ " = :" ++ partition ++ String.join
            ((usedOperators k arguments).map fun operator => " AND " ++ operator.2) ∧
          ∀ t, (t ∈ namePlaceholders c.expression ↔ t ∈ c.names.keys) ∧
            (t ∈ valuePlaceholders c.expression ↔ t ∈ c.values.keys))) := by
  intro arguments partition outcome refused
  have hrefused : refused ↔ refusesDirection k true arguments = true := by
    simp [refused, refusesDirection, partition]
  have hscene : Data.map request.scene.arguments = arguments := by
    rw [Request.scene_arguments]
  by_cases hr : refused
  · have hraises : ∀ m : Machine, m.Stages request.scene → (listQuery k o).exec separator m =
        .error (.raised (directionRefusal k) (.text invalidArguments)) m :=
      fun m hm => exec_listQuery_refused separator hm hk (by rw [hscene]; exact hrefused.mp hr)
    obtain ⟨hresult, hcontext⟩ := evaluate_statement_error hraises
    exact ⟨iff_of_true ⟨_, hresult⟩ hr, fun _ => hcontext, fun hnot => absurd hr hnot⟩
  · have haccepts : refusesDirection k true (.map request.scene.arguments) = false := by
      rw [hscene, ← Bool.not_eq_true]
      exact mt hrefused.mpr hr
    have hleaves : ∀ c?, keyConditionOf k o arguments = .ok c? →
        outcome.result = .ok .null ∧
          outcome.context = (request.scene.asked (keyConditionData c?)).data := by
      intro c? hc?
      exact evaluate_statement fun m hm =>
        exec_listQuery separator hm hk haccepts (by rw [hscene, hc?])
    cases hnull : (arguments.member partition).isNull with
    | true =>
      obtain ⟨hresult, hcontext⟩ := hleaves none (by rw [keyConditionOf, if_pos hnull])
      refine ⟨iff_of_false (by simp [hresult]) hr, fun hyes => absurd hyes hr, fun _ => ?_⟩
      exact ⟨hresult, _, hcontext, fun _ => rfl, fun hfalse => absurd hfalse (by simp)⟩
    | false =>
      obtain ⟨a, clauses, hclauses, hc⟩ := exists_keyConditionOf_present o hsend hnull
      obtain ⟨hresult, hcontext⟩ := hleaves _ hc
      refine ⟨iff_of_false (by simp [hresult]) hr, fun hyes => absurd hyes hr, fun _ => ?_⟩
      exact ⟨hresult, _, hcontext, fun htrue => absurd htrue (by simp), fun _ => ⟨_, rfl,
        expression_ofClauses hclauses,
        placeholders_ofClauses hk.partition (closed_of_clausesOf hclauses)⟩⟩

/-- A request for the pages of a journal since some year that lie between two dates. -/
def pagesWanted : Request where
  arguments := [("owner", .text "ana"), ("yearMonthDay", .object [
    ("ge", .object [("year", .scalar (.int 2023))]),
    ("between", .list [.object [("year", .scalar (.int 2024))],
      .object [("year", .scalar (.int 2024)), ("month", .scalar (.int 5))]])])]

theorem listQuery_publishes_pages : ∃ c : KeyCondition,
    (evaluate pagesWanted ((listQuery journalKey {}).run "#")).result = .ok .null ∧
      (evaluate pagesWanted ((listQuery journalKey {}).run "#")).context =
        (pagesWanted.scene.asked c.data).data ∧
      c.expression = "#owner = :owner AND #sortKey >= :sortKey AND " ++
        "#sortKey BETWEEN :sortKey0 AND :sortKey1" := by
  have hused : usedOperators journalKey (.map pagesWanted.arguments.texts) =
      [("ge", "#sortKey >= :sortKey"), ("between", betweenCondition)] := rfl
  have hsend : SerializableArguments journalKey (.map pagesWanted.arguments.texts) := by
    refine ⟨⟨_, rfl⟩, fun operator hoperator d hd => ?_⟩
    -- a missing component can be a text as well as one that is there
    have hcomponents : ∀ d : Data, (∃ t, (d.member "year").interpolated = .ok t) →
        (∃ t, (d.member "month").interpolated = .ok t) →
          (∃ t, (d.member "day").interpolated = .ok t) → Serializable journalKey d := by
      intro d hyear hmonth hday
      rw [Serializable, if_pos (show journalKey.isComposite = true from rfl)]
      simp [journalKey, KeyDecl.sortFields, hyear, hmonth, hday]
    rw [hused, List.mem_pair] at hoperator
    rcases hoperator with rfl | rfl
    · obtain rfl := List.mem_singleton.mp hd
      exact hcomponents _ ⟨_, rfl⟩ ⟨_, rfl⟩ ⟨_, rfl⟩
    · rcases List.mem_pair.mp hd with rfl | rfl <;>
        exact hcomponents _ ⟨_, rfl⟩ ⟨_, rfl⟩ ⟨_, rfl⟩
  obtain ⟨-, -, hpublishes⟩ := listQuery_publishes "#"
    (show journalKey.Plain {} from ⟨by decide, by decide, by decide⟩) hsend
  obtain ⟨hresult, query, hcontext, -, hcondition⟩ := hpublishes (by
    rintro ⟨hdirection, -⟩
    exact absurd hdirection (by decide))
  obtain ⟨c, rfl, hexpression, -⟩ := hcondition rfl
  refine ⟨c, hresult, hcontext, ?_⟩
  rw [hexpression, hused]
  decide

end Template

end TableKeys
