/-
# Conditions as expressions with placeholders

The database takes a condition as text in which every name and every value is replaced by
a placeholder, with two maps that say what the placeholders stand for. Placeholders are
numbered from left to right, each use getting one of its own: `#n0`, `#n1`, … for names and
`:v0`, `:v1`, … for values.

A field name may be a path. Its parts, separated by points and square brackets, get one
placeholder each; separators and whatever stands inside brackets are kept. What is kept is
part of a layout whose places the placeholders fill, so a percent sign has to be doubled.
-/
import TableKeys.Filter.Condition

namespace TableKeys.Filter

open Text

/-- A piece of a path: a part that is replaced, or text that is kept. -/
inductive PathPiece where
  | part (cs : List Char)
  | kept (c : Char)
deriving DecidableEq, Repr

/-- The character separates the parts of a path. -/
def isPathSeparator (c : Char) : Bool :=
  c == '.' || c == '[' || c == ']'

/-- The next square bracket is a closing one. -/
def insideBrackets (cs : List Char) : Bool :=
  (cs.find? fun c => c == '[' || c == ']') == some ']'

/-- The pieces of a path; `part` collects the characters of a part in reverse. -/
def pathPiecesFrom (part : List Char) : List Char → List PathPiece
  | [] => if part.isEmpty then [] else [.part part.reverse]
  | c :: cs =>
    if isPathSeparator c then
      (if part.isEmpty then [] else [.part part.reverse]) ++ .kept c :: pathPiecesFrom [] cs
    else if insideBrackets cs then .kept c :: pathPiecesFrom [] cs
    else pathPiecesFrom (c :: part) cs

/-- The pieces of a path. -/
def pathPieces (name : String) : List PathPiece :=
  pathPiecesFrom [] name.toList

/-- The placeholder of the name with a number. -/
def namePlaceholder (n : Nat) : String :=
  "#n" ++ toString n

/-- The placeholder of the value with a number. -/
def valuePlaceholder (n : Nat) : String :=
  ":v" ++ toString n

/-- A condition or an operand written out, with the names and the values that its placeholders
stand for, in order. -/
structure Written where
  text : String
  names : List String := []
  values : List Data := []

/-- The layout that the placeholders of a path fill. -/
def layout (pieces : List PathPiece) : List Char :=
  pieces.flatMap fun
    | .part _ => ['%', 's']
    | .kept c => [c]

/-- The number of parts of a path. -/
def partCount (pieces : List PathPiece) : Nat :=
  pieces.countP fun
    | .part _ => true
    | .kept _ => false

/-- A path written out with placeholders from number `n` on; two percent signs become one. -/
def writePieces (n : Nat) : List PathPiece → Written
  | [] => { text := "" }
  | .kept '%' :: .kept '%' :: pieces =>
    let rest := writePieces n pieces
    { rest with text := "%" ++ rest.text }
  | .kept c :: pieces =>
    let rest := writePieces n pieces
    { rest with text := c.toString ++ rest.text }
  | .part cs :: pieces =>
    let rest := writePieces (n + 1) pieces
    { rest with
      text := namePlaceholder n ++ rest.text
      names := String.ofList cs :: rest.names }

/-- A path written out, if its layout can be filled. -/
def writePath (n : Nat) (pieces : List PathPiece) : Except Fault Written :=
  match Layout.fault? (partCount pieces) (layout pieces) with
  | some fault => .error (.layout fault)
  | none => .ok (writePieces n pieces)

/-- A field written out; its name has to be a text. -/
def writeField (n : Nat) : MapKey → Except Fault Written
  | .text name => writePath n (pathPieces name)
  | k => .error (.notText k.typeName)

/-- The placeholders of a row of values from number `v` on. -/
def valuePlaceholders (v : Nat) (count : Nat) : List String :=
  (List.range count).map fun i => valuePlaceholder (v + i)

/-- The sign or function of a comparison. -/
def Comparison.symbol : Comparison → String
  | eq => "="
  | ne => "<>"
  | le => "<="
  | lt => "<"
  | ge => ">="
  | gt => ">"
  | contains => "contains"
  | beginsWith => "begins_with"
  | attributeType => "attribute_type"

/-- The comparison is written as a function. -/
def Comparison.isFunction : Comparison → Bool
  | contains | beginsWith | attributeType => true
  | _ => false

/-- A comparison of two written operands. -/
def Comparison.write (op : Comparison) (field operand : String) : String :=
  if op.isFunction then op.symbol ++ "(" ++ field ++ ", " ++ operand ++ ")"
  else field ++ " " ++ op.symbol ++ " " ++ operand

/-- A condition written out with name placeholders from number `n` on and value placeholders
from number `v` on. -/
def Condition.write (n v : Nat) : Condition → Except Fault Written
  | .compare op field operand => do
    let name ← writeField n field
    return { name with
      text := op.write name.text (valuePlaceholder v)
      values := [operand] }
  | .between field low high => do
    let name ← writeField n field
    return { name with
      text := name.text ++ " BETWEEN " ++ valuePlaceholder v ++ " AND " ++
        valuePlaceholder (v + 1)
      values := [low, high] }
  | .oneOf field operands => do
    let name ← writeField n field
    let items ← operands.members
    return { name with
      text := name.text ++ " IN (" ++
        ", ".intercalate (valuePlaceholders v items.length) ++ ")"
      values := items }
  | .present field => do
    let name ← writeField n field
    return { name with text := "attribute_exists(" ++ name.text ++ ")" }
  | .absent field => do
    let name ← writeField n field
    return { name with text := "attribute_not_exists(" ++ name.text ++ ")" }
  | .both a b => do
    let a ← a.write n v
    let b ← b.write (n + a.names.length) (v + a.values.length)
    return {
      text := "(" ++ a.text ++ " AND " ++ b.text ++ ")"
      names := a.names ++ b.names
      values := a.values ++ b.values }
  | .either a b => do
    let a ← a.write n v
    let b ← b.write (n + a.names.length) (v + a.values.length)
    return {
      text := "(" ++ a.text ++ " OR " ++ b.text ++ ")"
      names := a.names ++ b.names
      values := a.values ++ b.values }
  | .negation a => do
    let a ← a.write n v
    return { a with text := "(NOT " ++ a.text ++ ")" }

/-- An expression with what its placeholders stand for. -/
structure Expression where
  text : String
  names : List (String × String)
  values : List (String × AttributeValue)

/-- The things a row of placeholders stands for. -/
def numbered {α : Type} (placeholder : Nat → String) (items : List α) : List (String × α) :=
  items.mapIdx fun i item => (placeholder i, item)

/-- The stored forms of numbered values. -/
def storeValues : List (String × Data) → Except Fault (List (String × AttributeValue))
  | [] => .ok []
  | (placeholder, value) :: rest => do
    let value ← value.stored
    let rest ← storeValues rest
    return (placeholder, value) :: rest

/-- The expression of a condition. -/
def Condition.expression (c : Condition) : Except Fault Expression := do
  let written ← c.write 0 0
  let values ← storeValues (numbered valuePlaceholder written.values)
  return { text := written.text, names := numbered namePlaceholder written.names, values }

/-- The expression of a filter, if it asks for anything. -/
def expression? (filter : Data) : Except Failure (Option Expression) :=
  if filter.isNothing then .ok none
  else
    match condition? filter with
    | .error failure => .error failure
    | .ok none => .ok none
    | .ok (some condition) =>
      match condition.expression with
      | .error fault => .error (.fault fault)
      | .ok expression => .ok (some expression)

/-- The expression as the map that a request carries. -/
def Expression.data (e : Expression) : Data :=
  .object [("expression", .text e.text),
    ("expressionNames", .object (e.names.map fun (placeholder, name) => (placeholder, .text name))),
    ("expressionValues",
      .object (e.values.map fun (placeholder, value) => (placeholder, value.data)))]

end TableKeys.Filter
