/-
# Expressions and statements of templates

A template is a tree of statements over expressions. An expression has a value, a statement
has an effect. Paths, names and texts are kept as they are written; what they refer to is
settled when the template runs.

A tree may be malformed, and what is wrong shows only where it is reached. A node of the
wrong kind, or no node at all, is known by the name of its kind (`stray`); so is something
that is no list where a list of nodes is wanted (`unlisted`). The leaf of an expression may
have another content than it should (`misfit`).
-/
import TableKeys.Data.Scalar

namespace TableKeys.Template

/-- The leaves of expressions. -/
inductive Leaf where
  | ref
  | text
  | int
  | bool
deriving DecidableEq, Repr

/-- The name of a leaf in messages. -/
def Leaf.name : Leaf → String
  | ref => "Ref"
  | text => "Str"
  | int => "Int"
  | bool => "Bool"

/-- An expression. -/
inductive Expr where
  /-- What a path refers to. -/
  | ref (path : String)
  /-- A text; references inside it are replaced by what they refer to. -/
  | text (s : String)
  | int (n : Int)
  | bool (b : Bool)
  /-- A leaf whose content is of another kind. -/
  | misfit (leaf : Leaf) (content : Scalar)
  /-- A new map. -/
  | object (entries : List (String × Expr))
  /-- A new map whose keys are not all texts. -/
  | keyed (entries : List (Scalar × Expr))
  /-- A new list. -/
  | list (items : List Expr)
  | isNull (e : Expr)
  | not (e : Expr)
  /-- All of them hold; looked at from left to right up to the first that does not. -/
  | and (es : List Expr)
  | equals (a b : Expr)
  /-- The target is a map and holds the key. -/
  | containsKey (target key : Expr)
  | defaultIfNull (e default : Expr)
  /-- The stored form of a value. -/
  | toAttribute (e : Expr)
  /-- The condition expression of a filter. -/
  | toFilter (e : Expr)
  /-- Something else in the place of an expression. -/
  | stray (kind : String)
  /-- Something else in the place of a list of expressions, as its only member. -/
  | unlisted (kind : String)
deriving Repr

/-- A statement. The target of an assignment or a put should be a reference. -/
inductive Stmt where
  | set (target value : Expr)
  | mapPut (target key value : Expr)
  /-- Puts every entry of a map into another. -/
  | putAll (target value : Expr)
  /-- Puts a value under a name of the resolver metadata. -/
  | metadataPut (name : String) (value : Expr)
  /-- A choice; without an alternative nothing is done in the other case. -/
  | choice (condition : Expr) (body : List Stmt) (otherwise : Option (List Stmt))
  | forEach (name : String) (items : Expr) (body : List Stmt)
  /-- Raises an error, perhaps of a given type. -/
  | error (message : Expr) (type : Option Expr)
  /-- Makes a value the output. -/
  | emit (value : Expr)
  /-- Statements under a name, which is shown as a comment. -/
  | block (name : String) (body : List Stmt)
  | compound (body : List Stmt)
  /-- Something else in the place of a statement. -/
  | stray (kind : String)
  /-- Something else in the place of a list of statements, as its only member; it may stand for
  nothing. -/
  | unlisted (kind : String) (isNothing : Bool)
deriving Repr

/-- The name of the class of an expression in messages. -/
def Expr.className : Expr → String
  | ref _ => Leaf.ref.name
  | text _ => Leaf.text.name
  | int _ => Leaf.int.name
  | bool _ => Leaf.bool.name
  | misfit leaf _ => leaf.name
  | object _ | keyed _ => "Obj"
  | list _ => "ListLiteral"
  | isNull _ => "IsNull"
  | not _ => "Not"
  | and _ => "And"
  | equals _ _ => "Equals"
  | containsKey _ _ => "ContainsKey"
  | defaultIfNull _ _ => "DefaultIfNull"
  | toAttribute _ => "ToDynamoDB"
  | toFilter _ => "ToDynamoDBFilterExpression"
  | stray kind | unlisted kind => kind

/-- The name of the class of a statement in messages. -/
def Stmt.className : Stmt → String
  | set .. => "Set"
  | mapPut .. => "MapPut"
  | putAll .. => "PutAll"
  | metadataPut .. => "MetadataPut"
  | choice .. => "If"
  | forEach .. => "ForEach"
  | error .. => "Error"
  | emit .. => "Emit"
  | block .. => "Block"
  | compound .. => "Compound"
  | stray kind | unlisted kind _ => kind

/-- A node of a template in a place where both kinds may stand, or something else there. -/
inductive Node where
  | expr (e : Expr)
  | stmt (s : Stmt)
  | stray (kind : String)
deriving Repr

namespace Node

/-- The node in the place of an expression. -/
def asExpr : Node → Expr
  | expr e => e
  | stmt s => .stray s.className
  | stray kind => .stray kind

/-- The node in the place of a statement. -/
def asStmt : Node → Stmt
  | stmt s => s
  | expr e => .stray e.className
  | stray kind => .stray kind

/-- The name of the class of a node in messages. -/
def className : Node → String
  | expr e => e.className
  | stmt s => s.className
  | stray kind => kind

end Node

/-! ## Leaves with any content -/

namespace Expr

/-- The reference with some content. -/
def refOf : Scalar → Expr
  | .text path => ref path
  | a => misfit .ref a

/-- The text with some content. -/
def textOf : Scalar → Expr
  | .text s => text s
  | a => misfit .text a

/-- The whole number with some content. -/
def intOf : Scalar → Expr
  | .int n => int n
  | a => misfit .int a

/-- The truth value with some content. -/
def boolOf : Scalar → Expr
  | .bool b => bool b
  | a => misfit .bool a

/-- The map with some keys. -/
def mapOf (entries : List (Scalar × Expr)) : Expr :=
  if entries.all fun (k, _) => k.text?.isSome then
    object (entries.filterMap fun (k, e) => k.text?.map fun name => (name, e))
  else keyed entries

end Expr

/-- The statements that are there, as one statement. -/
def compoundOf (statements : List (Option Stmt)) : Stmt :=
  .compound (statements.filterMap id)

/-- A reference one step further. -/
def child (path name : String) : String :=
  path ++ "." ++ name

end TableKeys.Template
