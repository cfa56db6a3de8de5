/-
# What filters ask for

A filter asks for a formula over atomic conditions (`formula`): a filter is the conjunction of its
entries, and the entry of a field is the conjunction of its operators. Null entries, null operands
and filters without any operator are `nothing`; what is joined with nothing is not changed by it.

Compiling a filter leaves out what asks for nothing and groups the rest from left to right. What
comes out asks for the same (`alike_condition?`): it has the same truth under every assignment, and
the same atoms in the same order. Operands are changed on the way, but not as they are stored
(`SeesStored`).
-/
import TableKeys.Proofs.Filters
import TableKeys.Proofs.Formula
import TableKeys.Proofs.WithDecimals

namespace TableKeys.Filter

/-! ## Atomic conditions -/

/-- What is asked of a field. -/
inductive Test where
  | eq
  | ne
  | le
  | lt
  | ge
  | gt
  | contains
  | beginsWith
  | attributeType
  | between
  | oneOf
  | present
  | absent
deriving DecidableEq, Repr

/-- An atomic condition: a field, what is asked of it, and the operands. -/
structure Atom (α : Type) where
  field : String
  test : Test
  operands : List α
deriving Repr

/-- The atomic condition with its operands as they are stored. -/
def Atom.stored? (a : Atom Data) : Option (Atom AttributeValue) :=
  (a.operands.mapM Data.stored).toOption.map fun operands => ⟨a.field, a.test, operands⟩

/-! ## Formulas of filters -/

/-- What one operator asks of a field. This table of operators is not the compiler's; that both
agree is proved (`operatorFormula_compare`). -/
def operatorFormula (field : String) (operator : MapKey) (operand : Data) :
    Formula (Atom Data) :=
  match operator with
  | .text "eq" => .atom ⟨field, .eq, [operand]⟩
  | .text "ne" => .atom ⟨field, .ne, [operand]⟩
  | .text "le" => .atom ⟨field, .le, [operand]⟩
  | .text "lt" => .atom ⟨field, .lt, [operand]⟩
  | .text "ge" => .atom ⟨field, .ge, [operand]⟩
  | .text "gt" => .atom ⟨field, .gt, [operand]⟩
  | .text "contains" => .atom ⟨field, .contains, [operand]⟩
  | .text "notContains" => .negation (.atom ⟨field, .contains, [operand]⟩)
  | .text "beginsWith" => .atom ⟨field, .beginsWith, [operand]⟩
  | .text "attributeType" => .atom ⟨field, .attributeType, [operand]⟩
  | .text "between" => .atom ⟨field, .between, operand.members?.getD []⟩
  | .text "in" => .atom ⟨field, .oneOf, operand.members?.getD []⟩
  | .text "attributeExists" =>
    .atom ⟨field, if operand.isNothing then .absent else .present, []⟩
  | _ => .nothing

/-- What the operators of a field ask of it. -/
def operatorsFormula (field : String) : List (MapKey × Data) → Formula (Atom Data)
  | [] => .nothing
  | (_, .null) :: rest => operatorsFormula field rest
  | (operator, operand) :: rest =>
    .join .all (operatorFormula field operator operand) (operatorsFormula field rest)

/-- What the entry of a field asks for. -/
def fieldFormula (field : String) : Data → Formula (Atom Data)
  | .map operators => operatorsFormula field operators
  | _ => .nothing

mutual

/-- What a filter asks for. -/
def formula : Data → Formula (Atom Data)
  | .map entries => entriesFormula entries
  | _ => .nothing

/-- What the entries of a filter ask for: everything together. -/
def entriesFormula : List (MapKey × Data) → Formula (Atom Data)
  | [] => .nothing
  | (_, .null) :: rest => entriesFormula rest
  | (key, value) :: rest =>
    .join .all
      (if key == .text "and" then membersFormula .all value
      else if key == .text "or" then membersFormula .any value
      else if key == .text "not" then .negation (formula value)
      else fieldFormula key.plain value)
      (entriesFormula rest)

/-- What the filters that `and` or `or` lists ask for. -/
def membersFormula (k : Connective) : Data → Formula (Atom Data)
  | .list filters => listFormula k filters
  | _ => .nothing

/-- What the filters of a list ask for. -/
def listFormula (k : Connective) : List Data → Formula (Atom Data)
  | [] => .nothing
  | filter :: rest => .join k (formula filter) (listFormula k rest)

end

/-- What a filter asks for, with operands as they are stored, if all of them can be. -/
def asked? (filter : Data) : Option (Formula (Atom AttributeValue)) :=
  ((formula filter).map Atom.stored?).sequence?

/-! ## Formulas of conditions -/

/-- What a comparison asks of its field. -/
def Comparison.test : Comparison → Test
  | eq => .eq
  | ne => .ne
  | le => .le
  | lt => .lt
  | ge => .ge
  | gt => .gt
  | contains => .contains
  | beginsWith => .beginsWith
  | attributeType => .attributeType

/-- What a condition asks for. -/
def Condition.formula : Condition → Formula (Atom Data)
  | compare op field operand => .atom ⟨field.plain, op.test, [operand]⟩
  | between field low high => .atom ⟨field.plain, .between, [low, high]⟩
  | oneOf field operands => .atom ⟨field.plain, .oneOf, operands.members?.getD []⟩
  | present field => .atom ⟨field.plain, .present, []⟩
  | absent field => .atom ⟨field.plain, .absent, []⟩
  | both a b => .join .all a.formula b.formula
  | either a b => .join .any a.formula b.formula
  | negation a => .negation a.formula

/-- What a condition asks for, with atoms as they are seen. -/
def Condition.seen {β : Type} (see : Atom Data → β) (c : Condition) : Formula β :=
  c.formula.map see

/-- The condition that joins two. -/
def Connective.condition : Connective → Condition → Condition → Condition
  | all => .both
  | any => .either

lemma seen_condition {β : Type} (see : Atom Data → β) (k : Connective) (a b : Condition) :
    (k.condition a b).seen see = .join k (a.seen see) (b.seen see) := by
  cases k <;> rfl

/-- A condition asks for something. -/
lemma Condition.atoms_ne_nil (c : Condition) : c.formula.atoms ≠ [] := by
  induction c with
  | both a b iha _ => simp [formula, Formula.atoms, iha]
  | either a b iha _ => simp [formula, Formula.atoms, iha]
  | negation a ih => exact ih
  | _ => simp [formula, Formula.atoms]

open Formula

section Grouping

variable {β : Type} (see : Atom Data → β) (k k' : Connective) (c : Condition)
  (cs : List Condition)

/-- What is grouped from left to right asks for the same as the parts in a row. -/
lemma alike_foldl : ((cs.foldl k.condition c).seen see).Alike
    (.join k (c.seen see) (joinAll k (cs.map (Condition.seen see)))) := by
  induction cs generalizing c with
  | nil => exact (Alike.join_nothing k _).symm
  | cons d cs ih =>
    have hjoin := ih (k.condition c d)
    rw [seen_condition] at hjoin
    exact hjoin.trans (.join_assoc k _ _ _)

lemma alike_joined? : (joinAll k' ((joined? k.condition cs).toList.map (Condition.seen see))).Alike
    (joinAll k (cs.map (Condition.seen see))) := by
  cases cs with
  | nil => exact .refl _
  | cons c cs => exact (Alike.joinAll_singleton k' _).trans (alike_foldl see k c cs)

end Grouping

/-! ## Compiling -/

/-- Operands are seen as they are stored. -/
def SeesStored {β : Type} (see : Atom Data → β) : Prop :=
  ∀ field test {operands operands' : List Data},
    operands.mapM Data.stored = operands'.mapM Data.stored →
      see ⟨field, test, operands⟩ = see ⟨field, test, operands'⟩

lemma seesStored_stored? : SeesStored Atom.stored? := by
  intro field test operands operands' h
  rw [Atom.stored?, Atom.stored?, h]

lemma seesStored_field : SeesStored Atom.field :=
  fun _ _ _ _ _ => rfl

lemma members?_of_bounds {operand low high : Data} (h : bounds operand = .ok (low, high)) :
    operand.members? = some [low, high] := by
  unfold bounds at h
  split at h
  · rename_i hmembers
    rw [hmembers, (Prod.mk.inj (Except.ok.inj h)).1, (Prod.mk.inj (Except.ok.inj h)).2]
  · split at h <;> cases h
  · cases h

/-- The comparison that the compiler has for an operator is what the operator asks for. -/
lemma operatorFormula_compare {name : String} {op : Comparison} (field : String) (operand : Data)
    (h : Comparison.ofOperator? name = some op) :
    operatorFormula field (.text name) operand = .atom ⟨field, op.test, [operand]⟩ := by
  unfold Comparison.ofOperator? at h
  split at h <;> cases h <;> rfl

/-- What one entry of a filter asks for. -/
def ownFormula (key : MapKey) (value : Data) : Formula (Atom Data) :=
  if key == .text "and" then membersFormula .all value
  else if key == .text "or" then membersFormula .any value
  else if key == .text "not" then .negation (formula value)
  else fieldFormula key.plain value

lemma entriesFormula_cons {key : MapKey} {value : Data} (h : value ≠ .null)
    (rest : Entries MapKey Data) : entriesFormula ((key, value) :: rest) =
      .join .all (ownFormula key value) (entriesFormula rest) := by
  rw [entriesFormula, ownFormula]
  exact h

section Compiling

variable {β : Type} {see : Atom Data → β}

/-- The operand of a comparison is stored as it would be without decimal numbers. -/
lemma SeesStored.withDecimals (hsee : SeesStored see) (field : String) (test : Test)
    (operand : Data) :
    see ⟨field, test, [operand.withDecimals]⟩ = see ⟨field, test, [operand]⟩ :=
  hsee field test (by rw [List.mapM_cons, List.mapM_cons, Data.stored_withDecimals])

lemma SeesStored.members (hsee : SeesStored see) (field : String) (test : Test) (operand : Data) :
    see ⟨field, test, operand.withDecimals.members?.getD []⟩ =
      see ⟨field, test, operand.members?.getD []⟩ :=
  hsee field test operand.mapM_stored_members

/-- An operator is compiled to what it asks for. -/
lemma seen_operatorCondition (hsee : SeesStored see) {field operator : MapKey} {operand : Data}
    {c : Condition} (h : operatorCondition field operator operand.withDecimals = .ok c) :
    c.seen see = (operatorFormula field.plain operator operand).map see := by
  unfold operatorCondition at h
  split at h
  · obtain rfl := Except.ok.inj h
    exact congrArg (Formula.negation ∘ Formula.atom) (hsee.withDecimals _ _ operand)
  · split at h
    · rename_i low high hbounds
      obtain rfl := Except.ok.inj h
      have hstored := hsee.members field.plain .between operand
      rw [members?_of_bounds hbounds] at hstored
      exact congrArg Formula.atom hstored
    · cases h
  · obtain rfl := Except.ok.inj h
    exact congrArg Formula.atom (hsee.members _ _ operand)
  · obtain rfl := Except.ok.inj h
    rw [Data.isNothing_withDecimals, operatorFormula]
    split <;> rfl
  · split at h
    · rename_i hop
      obtain rfl := Except.ok.inj h
      rw [operatorFormula_compare _ _ hop]
      exact congrArg Formula.atom (hsee.withDecimals _ _ operand)
    · cases h
  · cases h

/-- The operators of a field are compiled to what they ask for. -/
lemma alike_operatorConditions (hsee : SeesStored see) {field : MapKey}
    {operators : List (MapKey × Data)} {cs : List Condition}
    (h : operatorConditions field operators = .ok cs) :
    (joinAll .all (cs.map (Condition.seen see))).Alike
      ((operatorsFormula field.plain operators).map see) := by
  induction operators generalizing cs with
  | nil =>
    obtain rfl := Except.ok.inj h
    exact .refl _
  | cons e rest ih =>
    obtain ⟨operator, operand⟩ := e
    by_cases hnull : operand = .null
    · rw [hnull, operatorConditions] at h
      rw [hnull, operatorsFormula]
      exact ih h
    · rw [operatorConditions_cons hnull] at h
      obtain ⟨c, hc, h⟩ := exists_of_bind_eq_ok h
      obtain ⟨ds, hds, h⟩ := exists_of_bind_eq_ok h
      obtain rfl := Except.ok.inj h
      rw [operatorsFormula]
      · exact .join (.of_eq (seen_operatorCondition hsee hc)) (ih hds)
      · exact hnull

lemma alike_fieldConditions (hsee : SeesStored see) {field : MapKey} {d : Data}
    {cs : List Condition} (h : fieldConditions field d = .ok cs) :
    (joinAll .all (cs.map (Condition.seen see))).Alike
      ((fieldFormula field.plain d).map see) := by
  cases d with
  | map operators => exact alike_operatorConditions hsee h
  | _ => cases h

mutual

/-- **A filter is compiled to what it asks for.** -/
theorem alike_condition? (hsee : SeesStored see) : ∀ d {c? : Option Condition},
    condition? d = .ok c? →
      (joinAll .all (c?.toList.map (Condition.seen see))).Alike ((formula d).map see)
  | .map entries, c?, h => by
    rw [condition?] at h
    obtain ⟨cs, hcs, h⟩ := exists_of_bind_eq_ok h
    obtain rfl := Except.ok.inj h
    rw [formula]
    exact (alike_joined? see .all .all cs).trans (alike_entryConditions hsee entries hcs)
  | .scalar _, _, h => by cases h
  | .list _, _, h => by cases h
  | .record .., _, h => by cases h
  | .pair .., _, h => by cases h

theorem alike_entryConditions (hsee : SeesStored see) : ∀ (es : Entries MapKey Data)
    {cs : List Condition}, entryConditions es = .ok cs →
      (joinAll .all (cs.map (Condition.seen see))).Alike ((entriesFormula es).map see)
  | [], cs, h => by
    obtain rfl := Except.ok.inj h
    exact .refl _
  | (key, value) :: rest, cs, h => by
    by_cases hnull : value = .null
    · rw [hnull, entryConditions] at h
      rw [hnull, entriesFormula]
      exact alike_entryConditions hsee rest h
    rw [entryConditions_cons hnull] at h
    obtain ⟨own, hown, h⟩ := exists_of_bind_eq_ok h
    obtain ⟨others, hothers, h⟩ := exists_of_bind_eq_ok h
    obtain rfl := Except.ok.inj h
    rw [entriesFormula_cons hnull, List.map_append]
    refine (Alike.joinAll_append .all _ _).trans
      (.join ?_ (alike_entryConditions hsee rest hothers))
    unfold ownConditions at hown
    unfold ownFormula
    split_ifs at hown ⊢
    · obtain ⟨cs, hcs, rfl⟩ := exists_of_map_eq_ok hown
      exact (alike_joined? see .all .all cs).trans (alike_memberConditions hsee .all value hcs)
    · obtain ⟨cs, hcs, rfl⟩ := exists_of_map_eq_ok hown
      exact (alike_joined? see .any .all cs).trans (alike_memberConditions hsee .any value hcs)
    · obtain ⟨c?, hc, rfl⟩ := exists_of_map_eq_ok hown
      have hnegated := (alike_condition? hsee value hc).negation
      cases c? with
      | none => exact .trans (Alike.negation_nothing.symm) hnegated
      | some c =>
        have hsingle := (Alike.joinAll_singleton .all (c.seen see)).negation
        exact (Alike.joinAll_singleton .all _).trans (hsingle.symm.trans hnegated)
    · exact alike_fieldConditions hsee hown

theorem alike_memberConditions (hsee : SeesStored see) (k : Connective) : ∀ d
    {cs : List Condition}, memberConditions d = .ok cs →
      (joinAll k (cs.map (Condition.seen see))).Alike ((membersFormula k d).map see)
  | .list filters, cs, h => by
    rw [memberConditions] at h
    rw [membersFormula]
    exact alike_listConditions hsee k filters h
  | .scalar _, _, h | .map _, _, h | .record .., _, h | .pair .., _, h => by
    -- whatever else has no members asks for nothing
    rw [memberConditions] at h
    · split at h
      · cases h
      · obtain rfl := Except.ok.inj h
        exact .refl _
      · cases h
    · simp

theorem alike_listConditions (hsee : SeesStored see) (k : Connective) : ∀ (ds : List Data)
    {cs : List Condition}, listConditions ds = .ok cs →
      (joinAll k (cs.map (Condition.seen see))).Alike ((listFormula k ds).map see)
  | [], cs, h => by
    obtain rfl := Except.ok.inj h
    exact .refl _
  | d :: ds, cs, h => by
    rw [listConditions] at h
    obtain ⟨c?, hc, h⟩ := exists_of_bind_eq_ok h
    obtain ⟨others, hothers, h⟩ := exists_of_bind_eq_ok h
    obtain rfl := Except.ok.inj h
    rw [listFormula, List.map_append]
    refine (Alike.joinAll_append k _ _).trans (.join ?_ (alike_listConditions hsee k ds hothers))
    have hsingle : (joinAll k (c?.toList.map (Condition.seen see))).Alike
        (joinAll .all (c?.toList.map (Condition.seen see))) := by
      cases c? with
      | none => exact .refl _
      | some c => exact (Alike.joinAll_singleton k _).trans (Alike.joinAll_singleton .all _).symm
    exact hsingle.trans (alike_condition? hsee d hc)

end

end Compiling

end TableKeys.Filter
