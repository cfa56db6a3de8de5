/-
# What the templates of keys note

The snippets for keys are local, but for the one that notes the schema name of a composite key. So
of each template that comes into a slot it is known which name it notes: that of the composite key
it keeps up (`noting_primary`, `noting_index`), and no other (`Noting.unique`).
-/
import TableKeys.Proofs.NotedNames

namespace TableKeys.Template

open Snippet Session

variable {k : KeyDecl} {i : IndexDecl} {o : Options}

attribute [local simp] Stmt.Local AllLocal Expr.Local Expr.paths entryPaths allPaths

/-! ## Paths -/

lemma localPath_argument (name : String) : LocalPath ("ctx.args." ++ name) :=
  LocalPath.arguments.child name

lemma localName_mergedValues : LocalName mergedValues :=
  ⟨by decide, by decide, by decide⟩

lemma localName_hasSeenSomeKeyArg : LocalName hasSeenSomeKeyArg :=
  ⟨by decide, by decide, by decide⟩

lemma localName_keyFieldNames : LocalName "keyFieldNames" :=
  ⟨by decide, by decide, by decide⟩

lemma localName_modelQueryExpression : LocalName modelQueryExpression :=
  ⟨by decide, by decide, by decide⟩

lemma localPath_input : LocalPath inputPath :=
  localPath_argument "input"

lemma localPath_keyPath (mutation : Bool) (name : String) :
    LocalPath (keyPath mutation ++ "." ++ name) := by
  cases mutation with
  | false => exact LocalPath.arguments.child name
  | true => exact (LocalPath.own localName_mergedValues).child name

/-! ## Writing items -/

lemma local_mergeInputsAndDefaults : mergeInputsAndDefaults.Local := by
  simp [mergeInputsAndDefaults, Assignable.own localName_mergedValues,
    LocalPath.own localName_mergedValues, LocalPath.defaults, localPath_input]

lemma local_object {es : List (String × Expr)} (h : ∀ e ∈ es, e.2.Local) :
    (Expr.object es).Local := by
  induction es with
  | nil => simp
  | cons e es ih =>
    obtain ⟨he, hes⟩ := List.forall_mem_cons.mp h
    intro path hpath
    rcases List.mem_append.mp hpath with hpath | hpath
    · exact he path hpath
    · exact ih hes path hpath

lemma local_sortEntry (mutation : Bool) : ∀ e ∈ sortEntry k (keyPath mutation) o, e.2.Local := by
  unfold sortEntry
  split
  · simp
  · simp [localPath_keyPath]
  · simp

lemma local_setPrimaryKey (mutation : Bool) : (setPrimaryKey k mutation o).Local := by
  have hkey : (modelObjectKey k mutation o).Local := by
    refine local_object (Entries.forall_mem_putAll (P := Expr.Local) ?_ (local_sortEntry mutation))
    simp [localPath_keyPath]
  simpa [setPrimaryKey] using ⟨by decide, hkey⟩

lemma local_writeComposite (synthetic template : String) (conditionally : Bool) :
    (writeComposite synthetic template conditionally).Local := by
  cases conditionally <;>
    simp [writeComposite, localPath_input, LocalPath.own localName_hasSeenSomeKeyArg]

lemma allPaths_texts (fields : List String) : allPaths (fields.map .text) = [] := by
  induction fields with
  | nil => rfl
  | cons f fields ih => simp [ih]

lemma local_validateIndexArgument {mutation : KeyMutation} {s : Stmt}
    (h : validateIndexArgument i mutation = some s) : s.Local := by
  rw [validateIndexArgument] at h
  split at h
  · obtain rfl := Option.some.inj h
    have hne : keyFieldName ≠ "ctx" := by decide
    simp [inputHasField, allPaths_texts, hne, localPath_input,
      LocalPath.own localName_hasSeenSomeKeyArg, LocalPath.own localName_keyFieldNames,
      Assignable.own localName_hasSeenSomeKeyArg, Assignable.own localName_keyFieldNames]
  · cases h

/-! ## Queries -/

lemma allLocal_append {ss ts : List Stmt} :
    AllLocal (ss ++ ts) ↔ AllLocal ss ∧ AllLocal ts := by
  simp only [allLocal_iff, List.forall_mem_append]

section Operands

variable {operand name : String}

lemma allLocal_assembleFrom (hoperand : LocalPath operand) (hname : LocalName name)
    (fields : List String) (first : Bool) :
    AllLocal (assembleFrom operand name o.keySeparator first fields) := by
  induction fields generalizing first with
  | nil => simp [assembleFrom]
  | cons field fields ih =>
    have hfield : LocalPath (child operand field) := hoperand.child field
    simp [assembleFrom, present, ih, hfield, Assignable.own hname]

lemma local_sortOperand (hoperand : LocalPath operand) (hname : LocalName name) :
    AllLocal (sortOperand k operand name o).1 ∧ (sortOperand k operand name o).2.Local := by
  rw [sortOperand]
  split
  · simp [assembleComposite, allLocal_assembleFrom hoperand hname, Assignable.own hname]
  · simp [hoperand]

end Operands

lemma localPath_query (name : String) : LocalPath (child modelQueryExpression name) :=
  (LocalPath.own localName_modelQueryExpression).child name

lemma assignable_query {name : String} (hname : '.' ∉ name.toList) :
    Assignable (child modelQueryExpression name) :=
  .child (.own localName_modelQueryExpression) hname

lemma allLocal_addCondition (sortName condition : String) :
    AllLocal (addCondition modelQueryExpression sortName condition) := by
  simp [addCondition, localPath_query, assignable_query (show '.' ∉ "expression".toList by decide)]

lemma local_bindValue (placeholder : String) {value : Expr} (h : value.Local) :
    (bindValue modelQueryExpression placeholder value).Local := by
  simpa [bindValue, localPath_query] using h

lemma local_operatorUsed {argument : String} (h : LocalPath argument) (operator : String) :
    (operatorUsed argument operator).Local := by
  have hoperator : LocalPath (child argument operator) := h.child operator
  simp [operatorUsed, present, h, hoperator]

lemma local_oneOperandConditions {argument : String} (h : LocalPath argument)
    (sortName : String) :
    AllLocal (oneOperandConditions k modelQueryExpression argument sortName o) := by
  refine allLocal_iff.mpr (List.forall_mem_map.mpr ?_)
  rintro ⟨operator, condition⟩ -
  obtain ⟨hprepare, hvalue⟩ := local_sortOperand (k := k) (o := o)
    (show LocalPath (child argument operator) from h.child operator)
    (show LocalName "sortKeyValue" from ⟨by decide, by decide, by decide⟩)
  exact ⟨local_operatorUsed h operator, allLocal_append.mpr
    ⟨allLocal_append.mpr ⟨hprepare, allLocal_addCondition _ _⟩, local_bindValue _ hvalue, trivial⟩⟩

lemma local_betweenConditions {argument : String} (h : LocalPath argument) (sortName : String) :
    (betweenConditions k modelQueryExpression argument sortName o).Local := by
  have hitem : ∀ position, LocalPath (child argument "between" ++ position) := by
    intro position
    rw [child, String.append_assoc]
    exact h.child _
  obtain ⟨hlow, hlowValue⟩ := local_sortOperand (k := k) (o := o) (hitem "[0]")
    (show LocalName "sortKeyValue0" from ⟨by decide, by decide, by decide⟩)
  obtain ⟨hhigh, hhighValue⟩ := local_sortOperand (k := k) (o := o) (hitem "[1]")
    (show LocalName "sortKeyValue1" from ⟨by decide, by decide, by decide⟩)
  exact ⟨local_operatorUsed h "between", allLocal_append.mpr ⟨allLocal_append.mpr
    ⟨allLocal_append.mpr ⟨hlow, hhigh⟩, allLocal_addCondition _ _⟩,
    local_bindValue _ hlowValue, local_bindValue _ hhighValue, trivial⟩⟩

lemma allLocal_sortKeyConditions : AllLocal (sortKeyConditions k modelQueryExpression o) := by
  unfold sortKeyConditions
  split
  · rename_i argument sortName _ _
    have hargument := localPath_argument argument
    exact allLocal_append.mpr ⟨local_oneOperandConditions hargument sortName,
      local_betweenConditions hargument sortName, trivial⟩
  · trivial

lemma local_keyCondition : (keyCondition k modelQueryExpression o).Local := by
  have hargument := localPath_argument k.partition.name
  have hassignable : ∀ name ∈ ["expression", "expressionNames", "expressionValues"],
      Assignable (child modelQueryExpression name) :=
    fun name hname => assignable_query (by revert name; decide)
  simp [keyCondition, present, hargument, hassignable, allLocal_sortKeyConditions]

lemma allLocal_checkDirection (list : Bool) : AllLocal (checkDirection k list) := by
  have hdirection : LocalPath sortDirectionPath := localPath_argument "sortDirection"
  have hargument := localPath_argument k.partition.name
  unfold checkDirection
  split
  · simp [present, hdirection]
  · split
    · simp [present, hdirection, hargument]
    · trivial

lemma local_listQuery : (listQuery k o).Local := by
  have hname : RecordKind.metadata.field? modelQueryExpression ≠ some .nameOverrides := by decide
  simp [listQuery, queryExpression, allLocal_append, allLocal_checkDirection, local_keyCondition,
    Assignable.own localName_modelQueryExpression, LocalPath.own localName_modelQueryExpression,
    hname]

/-! ## Notes -/

/-- The name of a composite key and its schema name; nothing if the key is not composite. -/
def keyNotes (k : KeyDecl) (o : Options) : List (String × String) :=
  if k.isComposite then [(compositeName o k.sortFields, compositeArgument k.sortFields)] else []

lemma noting_local {ss : List Stmt} (h : AllLocal ss) : Noting ss [] := by
  induction ss with
  | nil => exact .nil
  | cons s ss ih => exact .step h.1 (ih h.2)

/-- A template that ends with the upkeep of a key notes its name. -/
lemma noting_upkeep (snippets : List (Option Stmt)) (conditionally : Bool)
    (hname : '$' ∉ (compositeName o k.sortFields).toList)
    (h : ∀ s, some s ∈ snippets → s.Local) :
    Noting ((snippets ++ [ensureCompositeKey k conditionally o]).filterMap id) (keyNotes k o) := by
  induction snippets with
  | nil =>
    rw [keyNotes, List.nil_append, ensureCompositeKey]
    split
    · exact .note hname (notMem_compositeArgument _) (local_writeComposite _ _ _) .nil
    · exact .nil
  | cons snippet snippets ih =>
    have hrest := ih fun s hs => h s (by simp [hs])
    cases snippet with
    | none => exact hrest
    | some s => exact .step (h s (by simp)) hrest

/-- The names that a primary key notes for an operation. -/
def primaryNotes (k : KeyDecl) (o : Options) : Operation → List (String × String)
  | .create | .update => keyNotes k o
  | _ => []

/-- **What the template of a primary key notes.** -/
theorem noting_primary (hname : '$' ∉ (compositeName o k.sortFields).toList) (op : Operation) :
    Noting ((primarySnippets k o op).filterMap id) (primaryNotes k o op) := by
  have hwrite : Noting ([some mergeInputsAndDefaults, some (setPrimaryKey k true o),
      ensureCompositeKey k false o].filterMap id) (keyNotes k o) :=
    noting_upkeep [some mergeInputsAndDefaults, some (setPrimaryKey k true o)] false hname
      (by simp [local_mergeInputsAndDefaults, local_setPrimaryKey])
  cases op with
  | get => exact noting_local ⟨local_setPrimaryKey false, trivial⟩
  | list => exact noting_local ⟨local_listQuery, trivial⟩
  | create | update => exact hwrite
  | delete => exact noting_local ⟨local_mergeInputsAndDefaults, local_setPrimaryKey true, trivial⟩

/-- **The template of an index notes the name of its key**, whatever the operation. -/
theorem noting_index (hname : '$' ∉ (compositeName o i.sortFields).toList) {op : Operation}
    (hany : (indexSnippets i o op).any Option.isSome = true) :
    Noting ((some mergeInputsAndDefaults :: indexSnippets i o op).filterMap id)
      (keyNotes i.toKeyDecl o) := by
  have hvalidated : ∀ mutation, ∀ s, some s ∈ [some mergeInputsAndDefaults,
      validateIndexArgument i mutation] → s.Local := by
    intro mutation s hs
    rcases List.mem_pair.mp hs with hs | hs
    · obtain rfl := Option.some.inj hs
      exact local_mergeInputsAndDefaults
    · exact local_validateIndexArgument hs.symm
  cases op with
  | get | list => cases hany
  | create => exact noting_upkeep _ true hname (hvalidated .create)
  | update => exact noting_upkeep _ true hname (hvalidated .update)
  | delete =>
    exact noting_upkeep [some mergeInputsAndDefaults] false hname
      (by simp [local_mergeInputsAndDefaults])

/-- A statement that notes a name is not local. -/
lemma not_local_recordOverride (name argument : String) :
    ¬ (recordOverride name argument).Local := by
  have hfield : RecordKind.metadata.field? nameOverridesName = some .nameOverrides := by decide
  simp [recordOverride, hfield]

/-- Statements note one row of names only. -/
theorem Noting.unique {ss : List Stmt} {notes notes' : List (String × String)}
    (h : Noting ss notes) (h' : Noting ss notes') : notes = notes' := by
  induction h generalizing notes' with
  | nil =>
    cases h'
    rfl
  | step hs _ ih =>
    cases h' with
    | step _ h' => exact ih h'
    | note _ _ _ h' => exact absurd hs.1 (not_local_recordOverride _ _)
  | note _ _ _ _ ih =>
    cases h' with
    | step hs h' => exact absurd hs.1 (not_local_recordOverride _ _)
    | note _ _ _ h' => rw [ih h']

end TableKeys.Template
