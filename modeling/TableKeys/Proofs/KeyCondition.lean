/-
# Key conditions

What the templates for queries build, told of the arguments alone. A key condition is an
expression with placeholders, and what the placeholders stand for: names of attributes and stored
values. It asks for the partition argument, and for what the operators of the sort argument ask
for; an operand of a composite sort key is a text made of its leading components.

`keyConditionOf` is the key condition for some arguments. If these are data from outside, there
always is one unless the partition argument is missing (`exists_keyConditionOf`).
-/
import TableKeys.Proofs.Accepted
import TableKeys.Snippet.Query

namespace TableKeys

open Snippet

/-- A condition on the keys of items. -/
structure KeyCondition where
  expression : String
  names : Entries String String
  values : Entries String AttributeValue

namespace KeyCondition

/-- The key condition as a map. -/
def data (c : KeyCondition) : Data :=
  .object [
    ("expression", .text c.expression),
    ("expressionNames", .object (c.names.mapValues .text)),
    ("expressionValues", .object (c.values.mapValues AttributeValue.data))]

/-- Asks for the items of a partition. -/
def ofPartition (field : String) (a : AttributeValue) : KeyCondition where
  expression := "#" ++ field ++ " = :" ++ field
  names := [("#" ++ field, field)]
  values := [(":" ++ field, a)]

/-- Asks for something more, of the sort attribute. -/
def and (c : KeyCondition) (condition sortName : String) : KeyCondition :=
  { c with
    expression := c.expression ++ " AND " ++ condition
    names := c.names.put "#sortKey" sortName }

/-- Says what a placeholder stands for. -/
def bind (c : KeyCondition) (placeholder : String) (a : AttributeValue) : KeyCondition :=
  { c with values := c.values.put placeholder a }

end KeyCondition

/-! ## Operands -/

/-- The leading components of an operand as texts, up to the first that is missing. -/
def leadingTexts (operand : Data) (fields : List String) : Except Fault (List String) :=
  ((fields.map operand.member).takeWhile fun d => !d.isNull).mapM Data.interpolated

/-- The value that an operator compares the sort attribute with. -/
def sortValue (k : KeyDecl) (o : Options) (operand : Data) : Except Fault Data :=
  if k.isComposite then
    (fun texts => .text (o.keySeparator.intercalate texts)) <$> leadingTexts operand k.sortFields
  else .ok operand

/-- The value in stored form. -/
def storedSortValue (k : KeyDecl) (o : Options) (operand : Data) : Except Fault AttributeValue := do
  let d ← sortValue k o operand
  d.stored

/-! ## Operators -/

/-- What an operator with one operand adds. -/
def addOperator (k : KeyDecl) (o : Options) (sortName : String) (argument : Data)
    (c : KeyCondition) (operator : String × String) : Except Fault KeyCondition :=
  if (argument.member operator.1).isNull then .ok c
  else do
    let a ← storedSortValue k o (argument.member operator.1)
    return (c.and operator.2 sortName).bind ":sortKey" a

/-- What the operator with two operands adds. -/
def addBetween (k : KeyDecl) (o : Options) (sortName : String) (argument : Data)
    (c : KeyCondition) : Except Fault KeyCondition :=
  if (argument.member "between").isNull then .ok c
  else do
    let low ← storedSortValue k o ((argument.member "between").item 0)
    let high ← storedSortValue k o ((argument.member "between").item 1)
    return ((c.and betweenCondition sortName).bind ":sortKey0" low).bind ":sortKey1" high

/-- What the sort argument adds; nothing without a sort key. -/
def addSortConditions (k : KeyDecl) (o : Options) (arguments : Data) (c : KeyCondition) :
    Except Fault KeyCondition :=
  match k.sortArgument?, k.sortName? o with
  | some argument, some sortName => do
    let c ← sortKeyOperators.foldlM (addOperator k o sortName (arguments.member argument)) c
    addBetween k o sortName (arguments.member argument) c
  | _, _ => .ok c

/-- The key condition for arguments; none if the partition argument is missing. -/
def keyConditionOf (k : KeyDecl) (o : Options) (arguments : Data) :
    Except Fault (Option KeyCondition) :=
  if (arguments.member k.partition.name).isNull then .ok none
  else do
    let a ← (arguments.member k.partition.name).stored
    let c ← addSortConditions k o arguments (.ofPartition k.partition.name a)
    return some c

/-- What is published as the key condition. -/
def keyConditionData (c? : Option KeyCondition) : Data :=
  (c?.map KeyCondition.data).getD (.map [])

/-- The direction of a query is refused: there is no sort key or, in a list, no partition. -/
def refusesDirection (k : KeyDecl) (list : Bool) (arguments : Data) : Bool :=
  !(arguments.member "sortDirection").isNull &&
    (k.sortFields.isEmpty || (list && (arguments.member k.partition.name).isNull))

/-! ## Data from outside -/

section Accepted

variable {k : KeyDecl} {o : Options} {d : Data}

lemma exists_leadingTexts (h : d.Accepted) (fields : List String) :
    ∃ texts, leadingTexts d fields = .ok texts := by
  refine exists_mapM_ok fun e he => ?_
  obtain ⟨f, -, rfl⟩ := List.mem_map.mp ((List.takeWhile_sublist _).subset he)
  exact (h.member f).interpolated

lemma exists_storedSortValue (k : KeyDecl) (o : Options) (h : d.Accepted) :
    ∃ a, storedSortValue k o d = .ok a := by
  unfold storedSortValue sortValue
  cases k.isComposite with
  | false => exact h.stored
  | true =>
    obtain ⟨texts, htexts⟩ := exists_leadingTexts h k.sortFields
    rw [if_pos rfl, htexts]
    exact ⟨_, rfl⟩

lemma exists_addOperator (k : KeyDecl) (o : Options) (sortName : String) (h : d.Accepted)
    (c : KeyCondition) (operator : String × String) :
    ∃ c', addOperator k o sortName d c operator = .ok c' := by
  unfold addOperator
  split
  · exact ⟨c, rfl⟩
  · obtain ⟨a, ha⟩ := exists_storedSortValue k o (h.member operator.1)
    exact ⟨_, by rw [ha]; rfl⟩

lemma exists_addBetween (k : KeyDecl) (o : Options) (sortName : String) (h : d.Accepted)
    (c : KeyCondition) : ∃ c', addBetween k o sortName d c = .ok c' := by
  unfold addBetween
  split
  · exact ⟨c, rfl⟩
  · obtain ⟨low, hlow⟩ := exists_storedSortValue k o ((h.member "between").item 0)
    obtain ⟨high, hhigh⟩ := exists_storedSortValue k o ((h.member "between").item 1)
    exact ⟨_, by rw [hlow, hhigh]; rfl⟩

/-- **Arguments from outside have a key condition**, or none if the partition argument is
missing. -/
theorem exists_keyConditionOf (k : KeyDecl) (o : Options) (h : d.Accepted) :
    ∃ c?, keyConditionOf k o d = .ok c? := by
  unfold keyConditionOf
  split
  · exact ⟨none, rfl⟩
  · obtain ⟨a, ha⟩ := (h.member k.partition.name).stored
    obtain ⟨c, hc⟩ : ∃ c, addSortConditions k o d (.ofPartition k.partition.name a) = .ok c := by
      unfold addSortConditions
      split
      · rename_i argument sortName _ _
        obtain ⟨c₁, hc₁⟩ := exists_foldlM_ok
          (exists_addOperator k o sortName (h.member argument)) sortKeyOperators
          (.ofPartition k.partition.name a)
        obtain ⟨c, hc⟩ := exists_addBetween k o sortName (h.member argument) c₁
        exact ⟨c, by rw [hc₁]; exact hc⟩
      · exact ⟨_, rfl⟩
    exact ⟨some c, by rw [ha]; simp only [bind, Except.bind, hc]; rfl⟩

end Accepted

end TableKeys
