/-
# Running templates

Expressions are evaluated and statements executed on a `Machine`. Evaluating an expression
never changes a map or a record that is already there; it only adds new ones, and events to
the log. Assignments and puts change maps and records in place, wherever they are known
from.
-/
import TableKeys.Filter.Expression
import TableKeys.Template.Expr
import TableKeys.Template.Interpolation
import TableKeys.Template.Machine

namespace TableKeys.Template

open Text

/-! ## Interpolation -/

/-- What interpolation makes of a text: the result, and what came in for paths of several
steps. -/
structure Interpolated where
  text : List Char := []
  components : List String := []

/-- Replaces the references among the pieces of a text. A reference to null stays as it is
written. -/
def interpolatePieces (m : Machine) : List Piece → Except Fault Interpolated
  | [] => .ok {}
  | .literal c :: rest => do
    let rest ← interpolatePieces m rest
    return { rest with text := c :: rest.text }
  | .reference raw path :: rest => do
    let v ← resolve m.store m.bindings (String.ofList path)
    if v.isNull then
      let rest ← interpolatePieces m rest
      return { rest with text := raw ++ rest.text }
    else
      let shown ← (m.store.read v).interpolated
      let rest ← interpolatePieces m rest
      return {
        text := shown.toList ++ rest.text
        components := (if path.contains '.' then [shown] else []) ++ rest.components }

/-- The literal characters among the pieces of a text. -/
def literals (pieces : List Piece) : List Char :=
  pieces.flatMap fun
    | .literal c => [c]
    | .reference .. => []

/-- The literal text consists of separators only: the text is a composite key. -/
def isSeparators (separator : String) (cs : List Char) : Bool :=
  !cs.isEmpty && (replaceAll separator.toList [] cs).isEmpty

/-- The text is a composite key and some component holds the separator. -/
def isAmbiguous (separator : String) (pieces : List Piece) (components : List String) : Bool :=
  1 < components.length && isSeparators separator (literals pieces) &&
    components.any (containsText separator)

/-- The text with its references replaced; an ambiguous composite key is logged. -/
def interpolate (separator s : String) : Run String := do
  let m ← get
  let pieces := pieces s
  let done ← Run.ofExcept (interpolatePieces m pieces)
  let result := String.ofList done.text
  if isAmbiguous separator pieces done.components then
    Run.record (.separatorInComponent separator result)
  return result

/-! ## Expressions -/

/-- What a reference has as its path; no other expression has one. -/
def Expr.pathOf : Expr → Run Scalar
  | .ref path => pure (.text path)
  | .misfit .ref content => pure content
  | e => Run.fault (.noAttribute e.className "path")

/-- A path, from which a part can be taken only if it is a text. -/
def pathText (part : String) : Scalar → Run String
  | .text path => pure path
  | a => Run.fault (.noAttribute a.typeName part)

/-- The value of a leaf with a content of another kind. -/
def misfitValue : Leaf → Scalar → Run Value
  | .ref, content => Run.fault (.noAttribute content.typeName "split")
  | .text, content => Run.fault (.notText content.typeName)
  | _, content => return .scalar content

/-- A new map with texts as keys. -/
def newObject (entries : List (String × Value)) : Run Value :=
  Run.newMap (Entries.ofList (entries.map fun (name, v) => (.text name, v)))

/-- A new map with scalars as keys. -/
def newKeyed (entries : List (Scalar × Value)) : Run Value :=
  Run.newMap (Entries.ofList (entries.map fun (k, v) => (.scalar k, v)))

/-- The value is a map that holds a key. -/
def hasKey (target key : Value) : Run Bool := do
  let m ← get
  let key ← Run.asKey key
  return (m.store.entries? target).any (·.has key)

/-- Equality of values. -/
def equalValues (a b : Value) : Run Bool := do
  let a ← Run.read a
  let b ← Run.read b
  Run.ofExcept (a.equal b)

/-- The stored form of a value, as new maps. -/
def toAttributeValue (v : Value) : Run Value := do
  let d ← Run.read v
  let stored ← Run.ofExcept d.stored
  Run.load stored.data

/-- The condition expression of a filter, as new maps, or null. -/
def toFilterExpression (v : Value) : Run Value := do
  let d ← Run.read v
  match Filter.expression? d with
  | .error failure => throw failure
  | .ok none => return .null
  | .ok (some expression) => Run.load expression.data

mutual

/-- The value of an expression; `separator` is the separator of composite keys. -/
def Expr.eval (separator : String) : Expr → Run Value
  | .ref path => Run.resolve path
  | .text s => do
    let s ← interpolate separator s
    return .text s
  | .bool b => return .bool b
  | .int n => return .scalar (.int n)
  | .misfit leaf content => misfitValue leaf content
  | .object entries => do
    let entries ← evalEntries separator entries
    newObject entries
  | .keyed entries => do
    let entries ← evalKeyed separator entries
    newKeyed entries
  | .list items => do
    let items ← evalAll separator items
    return .list items
  | .isNull e => do
    let v ← e.eval separator
    return .bool v.isNull
  | .not e => do
    let v ← e.eval separator
    return .bool (!v.holds)
  | .and es => do
    let b ← evalAnd separator es
    return .bool b
  | .equals a b => do
    let a ← a.eval separator
    let b ← b.eval separator
    let same ← equalValues a b
    return .bool same
  | .containsKey target key => do
    let target ← target.eval separator
    let m ← get
    if (m.store.entries? target).isSome then
      let key ← key.eval separator
      let b ← hasKey target key
      return .bool b
    else return .bool false
  | .defaultIfNull e default => do
    let v ← e.eval separator
    if v.isNull then default.eval separator else return v
  | .toAttribute e => do
    let v ← e.eval separator
    toAttributeValue v
  | .toFilter e => do
    let v ← e.eval separator
    toFilterExpression v
  | .stray kind => Run.misuse (.notEvaluable kind)
  | .unlisted kind => Run.fault (.notIterable kind)

/-- The values of several expressions, in order. -/
def evalAll (separator : String) : List Expr → Run (List Value)
  | [] => return []
  | e :: es => do
    let v ← e.eval separator
    let vs ← evalAll separator es
    return v :: vs

/-- The values of the entries of a map, in order. -/
def evalEntries (separator : String) : List (String × Expr) → Run (List (String × Value))
  | [] => return []
  | (name, e) :: es => do
    let v ← e.eval separator
    let vs ← evalEntries separator es
    return (name, v) :: vs

/-- The values of the entries of a map with any keys, in order. -/
def evalKeyed (separator : String) : List (Scalar × Expr) → Run (List (Scalar × Value))
  | [] => return []
  | (k, e) :: es => do
    let v ← e.eval separator
    let vs ← evalKeyed separator es
    return (k, v) :: vs

/-- All expressions hold; they are evaluated up to the first that does not. -/
def evalAnd (separator : String) : List Expr → Run Bool
  | [] => return true
  | e :: es => do
    let v ← e.eval separator
    if v.holds then evalAnd separator es else return false

end

/-! ## Assignments and puts -/

/-- Gives a path a value: a variable, the entry of a map or the field of a record. -/
def assign (path : String) (v : Value) : Run Unit := do
  let (parent, name) := splitLast path
  if parent.isEmpty then Run.setVariable name v
  else
    let target ← Run.resolve parent
    let m ← get
    match target, m.store.entries? target, m.store.record? target with
    | .ref address, some _, _ => Run.putEntry address (.text name) v
    | .ref address, none, some (kind, _) =>
      match kind.field? name with
      | some field => Run.putField address field v
      | none => Run.misuse (.unknownField path)
    | _, _, _ => Run.misuse (.parentNotMap path parent)

/-- The address of the map that a path refers to. -/
def mapAt (path : String) : Run Address := do
  let target ← Run.resolve path
  let m ← get
  match target, m.store.entries? target with
  | .ref address, some _ => return address
  | _, _ => Run.misuse (.targetNotMap path)

/-- Key and value of the element at a position of a row that is merged into a map. -/
def pairOf (position : Nat) (element : Value) : Run (Value × Value) := do
  let m ← get
  match m.store.members? element with
  | none => Run.fault (.updateElement position)
  | some [key, value] => return (key, value)
  | some members => Run.fault (.updateLength position members.length)

/-- Merges a row of pairs into a map, one after the other. -/
def mergePairs (address : Address) : Nat → List Value → Run Unit
  | _, [] => return ()
  | position, element :: rest => do
    let (key, value) ← pairOf position element
    let key ← Run.asKey key
    Run.putEntry address key value
    mergePairs address (position + 1) rest

/-- Merges entries into a map, one after the other. -/
def mergeEntries (address : Address) : List (MapKey × Value) → Run Unit
  | [] => return ()
  | (key, value) :: rest => do
    Run.putEntry address key value
    mergeEntries address rest

/-- Merges a value into a map: the entries of a map, or a row of pairs. -/
def merge (address : Address) (source : Value) : Run Unit := do
  let m ← get
  match m.store.entries? source with
  | some entries => mergeEntries address entries
  | none =>
    match m.store.members? source with
    | some elements => mergePairs address 0 elements
    | none => Run.fault (.notIterable (m.store.typeName source))

/-- What stands under a field of a record, which has to be called by its own name. -/
def partOf (v : Value) (field : Field) : Run Value := do
  let m ← get
  match m.store.record? v with
  | some (kind, fields) =>
    if kind.fields.contains field then return (fields.get? field).getD .null
    else Run.fault (.noAttribute (m.store.typeName v) field.name)
  | none => Run.fault (.noAttribute (m.store.typeName v) field.name)

/-- The address of the resolver metadata and the field of theirs that goes by a name. -/
def metadataField (name : String) : Run (Address × Field) := do
  let context := ((← get).bindings.get? "ctx").getD .null
  let stash ← partOf context .stash
  let metadata ← partOf stash .metadata
  let m ← get
  match metadata, m.store.record? metadata with
  | .ref address, some (kind, _) =>
    match kind.field? name with
    | some field => return (address, field)
    | none => Run.misuse (.unknownMetadata name)
  | _, _ => Run.fault (.noKindAttribute (m.store.typeName metadata) "model_fields")

/-- The members that a loop goes through; nothing at all counts as no members. -/
def loopMembers (v : Value) : Run (List Value) := do
  let m ← get
  match v with
  | .scalar a =>
    if a.isNothing then return []
    else
      match m.store.members? v with
      | some members => return members
      | none => Run.fault (.notIterable (m.store.typeName v))
  | v => return (m.store.members? v).getD []

/-! ## Statements -/

/-- Does something for each member, which a variable names meanwhile. -/
def forMembers (name : String) (body : Run Unit) : List Value → Run Unit
  | [] => return ()
  | v :: vs => do
    Run.setVariable name v
    body
    forMembers name body vs

mutual

/-- Executes a statement; `separator` is the separator of composite keys. -/
def Stmt.exec (separator : String) : Stmt → Run Unit
  | .block _ body => execAll separator body
  | .compound body => execAll separator body
  | .set target value => do
    let path ← target.pathOf
    let v ← value.eval separator
    let path ← pathText "rpartition" path
    assign path v
  | .mapPut target key value => do
    let path ← target.pathOf
    let path ← pathText "split" path
    let address ← mapAt path
    let v ← value.eval separator
    let key ← key.eval separator
    let key ← Run.asKey key
    Run.putEntry address key v
  | .putAll target value => do
    let path ← target.pathOf
    let path ← pathText "split" path
    let address ← mapAt path
    let v ← value.eval separator
    if v.isNull then return () else merge address v
  | .metadataPut name value => do
    let (address, field) ← metadataField name
    let v ← value.eval separator
    Run.putField address field v
  | .choice condition body otherwise => do
    let v ← condition.eval separator
    if v.holds then execBranch separator body
    else
      match otherwise with
      | some otherwise => execBranch separator otherwise
      | none => return ()
  | .forEach name items body => do
    let v ← items.eval separator
    let members ← loopMembers v
    forMembers name (execAll separator body) members
  | .error message type => do
    let v ← message.eval separator
    let type ← match type with
      | some type => type.eval separator
      | none => pure .null
    let message ← Run.read v
    let type ← Run.read type
    let message ← Run.ofExcept message.written
    throw (.raised message type)
  | .emit value => do
    let v ← value.eval separator
    Run.setOutput v
  | .stray kind => Run.misuse (.notExecutable kind)
  | .unlisted kind _ => Run.fault (.notIterable kind)

/-- Executes several statements, in order. -/
def execAll (separator : String) : List Stmt → Run Unit
  | [] => return ()
  | s :: ss => do
    s.exec separator
    execAll separator ss

/-- Executes a branch of a choice; nothing in its place counts as no statements. -/
def execBranch (separator : String) : List Stmt → Run Unit
  | [] => return ()
  | [.unlisted _ true] => return ()
  | s :: ss => do
    s.exec separator
    execAll separator ss

end

/-- A branch that holds statements is executed like any other list of them. -/
theorem execBranch_eq_execAll (separator : String) (ss : List Stmt)
    (h : ∀ kind, ss ≠ [.unlisted kind true]) :
    execBranch separator ss = execAll separator ss := by
  cases ss with
  | nil => rw [execBranch, execAll]
  | cons s ss => rw [execBranch, execAll]; simpa using h

end TableKeys.Template
