/-
# Filters as conditions

A filter is a map. An entry under a field name holds the operators that the field has to
satisfy; entries `and`, `or` and `not` hold filters. Everything is required together unless
it stands under `or`. Null entries and null operands ask for nothing, and neither does a
filter without any condition (`Filter.condition?` then yields `none`).

Operands are numbers that can be stored: binary ones are replaced by decimal ones before
anything else. The operands of `in` and the names of fields are not looked at before the
condition is written out.
-/
import TableKeys.AttributeValue
import TableKeys.Failure

namespace TableKeys.Filter

/-- Comparisons with one operand. -/
inductive Comparison where
  | eq
  | ne
  | le
  | lt
  | ge
  | gt
  | contains
  | beginsWith
  | attributeType
deriving DecidableEq, Repr

/-- A condition on the attributes of an item. -/
inductive Condition where
  | compare (op : Comparison) (field : MapKey) (operand : Data)
  | between (field : MapKey) (low high : Data)
  | oneOf (field : MapKey) (operands : Data)
  | present (field : MapKey)
  | absent (field : MapKey)
  | both (a b : Condition)
  | either (a b : Condition)
  | negation (a : Condition)
deriving Repr

/-- The comparison that an operator of a filter asks for. -/
def Comparison.ofOperator? : String → Option Comparison
  | "eq" => some .eq
  | "ne" => some .ne
  | "le" => some .le
  | "lt" => some .lt
  | "ge" => some .ge
  | "gt" => some .gt
  | "contains" => some .contains
  | "beginsWith" => some .beginsWith
  | "attributeType" => some .attributeType
  | _ => none

/-- The two bounds that an operand holds. -/
def bounds (operand : Data) : Except Fault (Data × Data) :=
  match operand.members? with
  | some [low, high] => .ok (low, high)
  | some items => if items.length < 2 then .error (.tooFew items.length) else .error .tooMany
  | none => .error (.notUnpackable operand.typeName)

/-- The failure that there is no such operator, if both names can be written. -/
def unsupported (operator field : MapKey) : Failure :=
  if operator.isWritable && field.isWritable then
    .misuse (.unsupportedOperator operator.plain field.plain)
  else .fault .tooLong

/-- The condition that one operator puts on a field. -/
def operatorCondition (field : MapKey) (operator : MapKey) (operand : Data) :
    Except Failure Condition :=
  match operator with
  | .text "notContains" => .ok (.negation (.compare .contains field operand))
  | .text "between" =>
    match bounds operand with
    | .ok (low, high) => .ok (.between field low high)
    | .error fault => .error (.fault fault)
  | .text "in" => .ok (.oneOf field operand)
  | .text "attributeExists" => .ok (if operand.isNothing then .absent field else .present field)
  | .text name =>
    match Comparison.ofOperator? name with
    | some op => .ok (.compare op field operand)
    | none => .error (unsupported (.text name) field)
  | operator => .error (unsupported operator field)

/-- The conditions that the operators of one field put on it, in order. -/
def operatorConditions (field : MapKey) : List (MapKey × Data) → Except Failure (List Condition)
  | [] => .ok []
  | (_, .null) :: rest => operatorConditions field rest
  | (operator, operand) :: rest => do
    let condition ← operatorCondition field operator operand.withDecimals
    let conditions ← operatorConditions field rest
    return condition :: conditions

/-- The conditions on one field. -/
def fieldConditions (field : MapKey) : Data → Except Failure (List Condition)
  | .map operators => operatorConditions field operators
  | d => .error (.fault (.noAttribute d.typeName "items"))

/-- Several conditions joined from left to right; none ask for nothing. -/
def joined? (join : Condition → Condition → Condition) : List Condition → Option Condition
  | [] => none
  | c :: cs => some (cs.foldl join c)

mutual

/-- The condition that a filter stands for, if it asks for anything. -/
def condition? : Data → Except Failure (Option Condition)
  | .map entries => do
    let conditions ← entryConditions entries
    return joined? .both conditions
  | d => .error (.fault (.noAttribute d.typeName "items"))

/-- The conditions of the entries of a filter, in order. -/
def entryConditions : List (MapKey × Data) → Except Failure (List Condition)
  | [] => .ok []
  | (_, .null) :: rest => entryConditions rest
  | (key, value) :: rest => do
    let conditions ←
      if key == .text "and" then
        (fun members => (joined? .both members).toList) <$> memberConditions value
      else if key == .text "or" then
        (fun members => (joined? .either members).toList) <$> memberConditions value
      else if key == .text "not" then
        (fun negated => negated.toList.map .negation) <$> condition? value
      else fieldConditions key value
    let others ← entryConditions rest
    return conditions ++ others

/-- The conditions of the filters that `and` or `or` lists. -/
def memberConditions : Data → Except Failure (List Condition)
  | .list filters => listConditions filters
  | d =>
    match d.members with
    | .error fault => .error (.fault fault)
    | .ok [] => .ok []
    | .ok (first :: _) => .error (.fault (.noAttribute first.typeName "items"))

/-- The conditions of the filters of a list, in order; empty ones add nothing. -/
def listConditions : List Data → Except Failure (List Condition)
  | [] => .ok []
  | filter :: rest => do
    let condition ← condition? filter
    let others ← listConditions rest
    return condition.toList ++ others

end

end TableKeys.Filter
