/-
# Templates as text

An expression is written on one line. A statement takes one or more lines: a choice and a
loop open with a directive and close with `#end`, and what stands between is indented by
two blanks more; a block stands between two comments. A tree with a node of the wrong kind, or
without a list where one is wanted, cannot be written, nor can a whole number with too many
digits.
-/
import TableKeys.Data.Shown
import TableKeys.Template.Expr

namespace TableKeys.Template

open Text

/-- Why a tree cannot be written: something of this kind stands where it should not. -/
inductive PrintError where
  | strayInExpression (kind : String)
  | strayInStatement (kind : String)
  | unlisted (kind : String)
  /-- A value of the tree cannot be written. -/
  | unwritten (cause : Fault)
deriving DecidableEq, Repr

/-- The error in words. -/
def PrintError.text : PrintError → String
  | strayInExpression kind => "Cannot print expression of type " ++ kind
  | strayInStatement kind => "Cannot print statement of type " ++ kind
  | unlisted kind => (Fault.notIterable kind).text
  | unwritten cause => cause.text

namespace Expr

/-- A leaf with a content of another kind, as text. -/
def printMisfit (leaf : Leaf) (content : Scalar) : Except Fault String :=
  match leaf with
  | .ref => ("$" ++ ·) <$> content.written
  | .text => ("\"" ++ · ++ "\"") <$> content.written
  | .int => content.written
  | .bool => .ok (if content.isNothing then "false" else "true")

mutual

/-- The expression as text. -/
def print : Expr → Except PrintError String
  | ref path => .ok ("$" ++ path)
  | text s => .ok ("\"" ++ s ++ "\"")
  | int n => (Scalar.int n).written.mapError .unwritten
  | bool b => .ok (if b then "true" else "false")
  | misfit leaf content => (printMisfit leaf content).mapError .unwritten
  | object [] => .ok "\x7b\x7d"
  | object entries => do
    let entries ← printEntries entries
    return "\x7b " ++ ", ".intercalate entries ++ " \x7d"
  | keyed [] => .ok "\x7b\x7d"
  | keyed entries => do
    let entries ← printKeyed entries
    return "\x7b " ++ ", ".intercalate entries ++ " \x7d"
  | list items => do
    let items ← printAll items
    return "[" ++ ", ".intercalate items ++ "]"
  | isNull e => do
    let e ← print e
    return "$util.isNull(" ++ e ++ ")"
  | not e => do
    let e ← print e
    return "!" ++ e
  | and es => do
    let es ← printAll es
    return " && ".intercalate es
  | equals a b => do
    let a ← print a
    let b ← print b
    return a ++ " == " ++ b
  | containsKey target key => do
    let target ← print target
    let key ← print key
    return target ++ ".containsKey(" ++ key ++ ")"
  | defaultIfNull e default => do
    let e ← print e
    let default ← print default
    return "$util.defaultIfNull(" ++ e ++ ", " ++ default ++ ")"
  | toAttribute e => do
    let e ← print e
    return "$util.dynamodb.toDynamoDB(" ++ e ++ ")"
  | toFilter e => do
    let e ← print e
    return "$util.parseJson(\"$util.transform.toDynamoDBFilterExpression(" ++ e ++ ")\")"
  | stray kind => .error (.strayInExpression kind)
  | unlisted kind => .error (.unlisted kind)

/-- Several expressions as texts. -/
def printAll : List Expr → Except PrintError (List String)
  | [] => .ok []
  | e :: es => do
    let e ← print e
    let es ← printAll es
    return e :: es

/-- The entries of a map as texts. -/
def printEntries : List (String × Expr) → Except PrintError (List String)
  | [] => .ok []
  | (key, e) :: rest => do
    let e ← print e
    let rest ← printEntries rest
    return (jsonQuoted key ++ ": " ++ e) :: rest

/-- The entries of a map with any keys as texts. -/
def printKeyed : List (Scalar × Expr) → Except PrintError (List String)
  | [] => .ok []
  | (key, e) :: rest => do
    let key ← (Data.jsonScalar key).mapError .unwritten
    let e ← print e
    let rest ← printKeyed rest
    return (key ++ ": " ++ e) :: rest

end

end Expr

namespace Stmt

/-- The blanks before a line at a depth. -/
def indent (depth : Nat) : String :=
  String.ofList (List.replicate (2 * depth) ' ')

/-- A line at a depth. -/
def line (depth : Nat) (s : String) : String :=
  indent depth ++ s

mutual

/-- The lines of a statement at a depth. -/
def lines (depth : Nat) : Stmt → Except PrintError (List String)
  | compound body => linesOfAll depth body
  | block name body => do
    let body ← linesOfAll depth body
    return line depth ("## [Start] " ++ name ++ ". **") :: body ++
      [line depth ("## [End] " ++ name ++ ". **")]
  | set target value => do
    let target ← target.print
    let value ← value.print
    return [line depth ("#set( " ++ target ++ " = " ++ value ++ " )")]
  | mapPut target key value => do
    let target ← target.print
    let key ← key.print
    let value ← value.print
    return [line depth ("$util.qr(" ++ target ++ ".put(" ++ key ++ ", " ++ value ++ "))")]
  | putAll target value => do
    let target ← target.print
    let value ← value.print
    return [line depth ("$util.qr(" ++ target ++ ".putAll(" ++ value ++ "))")]
  | metadataPut name value => do
    let value ← value.print
    return [line depth
      ("$util.qr($ctx.stash.metadata.put(\"" ++ name ++ "\", " ++ value ++ "))")]
  | choice condition body otherwise => do
    let condition ← condition.print
    let body ← linesOfAll (depth + 1) body
    let otherwise ← match otherwise with
      | none => .ok []
      | some otherwise => (line depth "#else" :: ·) <$> linesOfAll (depth + 1) otherwise
    return line depth ("#if( " ++ condition ++ " )") :: body ++ otherwise ++
      [line depth "#end"]
  | forEach name items body => do
    let items ← items.print
    let body ← linesOfAll (depth + 1) body
    return line depth ("#foreach( $" ++ name ++ " in " ++ items ++ " )") :: body ++
      [line depth "#end"]
  | error message type => do
    let message ← message.print
    let type ← match type with
      | none => .ok ""
      | some type => (", " ++ ·) <$> type.print
    return [line depth ("$util.error(" ++ message ++ type ++ ")")]
  | emit value => do
    let value ← value.print
    return [line depth ("$util.toJson(" ++ value ++ ")")]
  | stray kind => .error (.strayInStatement kind)
  | unlisted kind _ => .error (.unlisted kind)

/-- The lines of several statements at a depth. -/
def linesOfAll (depth : Nat) : List Stmt → Except PrintError (List String)
  | [] => .ok []
  | s :: ss => do
    let s ← lines depth s
    let ss ← linesOfAll depth ss
    return s ++ ss

end

/-- The statement as text. -/
def print (s : Stmt) : Except PrintError String := do
  let lines ← s.lines 0
  return "\n".intercalate lines

end Stmt

/-- The node as text. -/
def Node.print : Node → Except PrintError String
  | expr e => e.print
  | stmt s => s.print
  | stray kind => .error (.strayInExpression kind)

/-- The node as text between the comments of a block. -/
def Node.printBlock (name : String) (node : Node) : Except PrintError String :=
  (Stmt.block name [node.asStmt]).print

end TableKeys.Template
