/-
# Failures of filters

What is wrong with a filter is a fault or a misuse: no filter raises an error of a template, by
induction on the filter (`unraised_expression?`).
-/
import TableKeys.Filter.Expression
import Mathlib.Tactic.Common

namespace TableKeys

/-- The computation fails, if it does, with something else than an error of a template. -/
def Failure.Unraised {α : Type} (x : Except Failure α) : Prop :=
  ∀ message type, x ≠ .error (.raised message type)

namespace Failure.Unraised

variable {α β : Type}

lemma ok (a : α) : Unraised (.ok a) := fun _ _ h => by cases h

lemma fault (f : Fault) : Unraised (.error (.fault f) : Except Failure α) := fun _ _ h => by cases h

lemma misuse (m : Misuse) : Unraised (.error (.misuse m) : Except Failure α) :=
  fun _ _ h => by cases h

lemma bind {x : Except Failure α} {f : α → Except Failure β} (hx : Unraised x)
    (hf : ∀ a, Unraised (f a)) : Unraised (x >>= f) := by
  cases x with
  | ok a => exact hf a
  | error e =>
    rintro message type h
    exact hx message type (congrArg Except.error (Except.error.inj h))

lemma map {x : Except Failure α} (hx : Unraised x) (f : α → β) : Unraised (f <$> x) := by
  cases x with
  | ok a => exact .ok _
  | error e =>
    rintro message type h
    exact hx message type (congrArg Except.error (Except.error.inj h))

end Failure.Unraised

namespace Filter

open Failure

lemma unraised_unsupported (operator field : MapKey) {α : Type} :
    Unraised (Except.error (unsupported operator field) : Except Failure α) := by
  unfold unsupported
  split
  · exact .misuse _
  · exact .fault _

lemma unraised_operatorCondition (field operator : MapKey) (operand : Data) :
    Unraised (operatorCondition field operator operand) := by
  unfold operatorCondition
  split
  · exact .ok _
  · split
    · exact .ok _
    · exact .fault _
  · exact .ok _
  · exact .ok _
  · split
    · exact .ok _
    · exact unraised_unsupported _ _
  · exact unraised_unsupported _ _

lemma unraised_operatorConditions (field : MapKey) (operators : List (MapKey × Data)) :
    Unraised (operatorConditions field operators) := by
  fun_induction operatorConditions field operators with
  | case1 => exact .ok _
  | case2 _ _ ih => exact ih
  | case3 operator operand rest _ ih =>
    exact .bind (unraised_operatorCondition _ _ _) fun _ => .bind ih fun _ => .ok _

lemma unraised_fieldConditions (field : MapKey) (d : Data) :
    Unraised (fieldConditions field d) := by
  unfold fieldConditions
  split
  · exact unraised_operatorConditions _ _
  · exact .fault _

mutual

lemma unraised_condition? : ∀ d, Unraised (condition? d)
  | .map entries => by
    rw [condition?]
    exact .bind (unraised_entryConditions entries) fun _ => .ok _
  | .scalar _ | .list _ | .record .. | .pair .. => by
    rw [condition?] <;> simp [Unraised]

lemma unraised_entryConditions : ∀ es, Unraised (entryConditions es)
  | [] => .ok _
  | (key, value) :: rest => by
    by_cases hnull : value = .null
    · subst hnull
      rw [entryConditions]
      exact unraised_entryConditions rest
    · have hrest : ∀ cs : List Condition, Unraised (do
          let others ← entryConditions rest
          return cs ++ others) := fun _ => .bind (unraised_entryConditions rest) fun _ => .ok _
      rw [entryConditions]
      · split
        · exact .bind (.map (unraised_memberConditions value) _) hrest
        · split
          · exact .bind (.map (unraised_memberConditions value) _) hrest
          · split
            · exact .bind (.map (unraised_condition? value) _) hrest
            · exact .bind (unraised_fieldConditions key value) hrest
      · exact hnull

lemma unraised_memberConditions : ∀ d, Unraised (memberConditions d)
  | .list filters => by
    rw [memberConditions]
    exact unraised_listConditions filters
  | .scalar _ | .map _ | .record .. | .pair .. => by
    rw [memberConditions]
    · split
      · exact .fault _
      · exact .ok _
      · exact .fault _
    · simp

lemma unraised_listConditions : ∀ ds, Unraised (listConditions ds)
  | [] => .ok _
  | d :: ds => by
    rw [listConditions]
    exact .bind (unraised_condition? d) fun _ =>
      .bind (unraised_listConditions ds) fun _ => .ok _

end

/-- What is wrong with a filter is no error of a template. -/
theorem unraised_expression? (filter : Data) : Unraised (expression? filter) := by
  unfold expression?
  split
  · exact .ok _
  · split
    · rename_i failure hfailure
      intro message type h
      rw [Except.error.inj h] at hfailure
      exact unraised_condition? filter message type hfailure
    · exact .ok _
    · split
      · exact .fault _
      · exact .ok _

end Filter

end TableKeys
