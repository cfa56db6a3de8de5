/-
# Snippets by name

A snippet can be asked for by name with what it needs. Any declaration will do for a snippet
that is about the key alone. Where the name of an index is needed, a primary key lacks it.
-/
import TableKeys.Fault
import TableKeys.Snippet.Query

namespace TableKeys.Snippet

open Template

/-- A declaration that snippets are made for. -/
inductive Decl where
  | primary (k : KeyDecl)
  | index (i : IndexDecl)

/-- The key of a declaration. -/
def Decl.key : Decl → KeyDecl
  | primary k => k
  | index i => i.toKeyDecl

/-- The fault that a primary key has no such part. -/
def lacks (part : String) : Fault :=
  .noAttribute "PrimaryKeyConfiguration" part

/-- The fault that there is no declaration to take a part from. -/
def noDeclaration (part : String) : Fault :=
  .noAttribute "NoneType" part

/-- A snippet that is asked for. -/
inductive Request where
  | mergeInputsAndDefaults
  | modelObjectKey (k : KeyDecl) (mutation : Bool)
  | setPrimaryKey (k : KeyDecl) (mutation : Bool)
  | ensureCompositeKey (k : KeyDecl) (conditionally : Bool)
  /-- The mutation is given by name. -/
  | validateIndexArgument (d : Decl) (mutation : Scalar)
  | keyCondition (k : KeyDecl) (query : String)
  | queryExpression (k : KeyDecl) (list : Bool)
  | listQuery (k : KeyDecl)
  | queryRequest (d : Decl)
  | queryResponse

/-- The snippet that is asked for; none if the declaration does not need it. -/
def Request.make (o : Options) : Request → Except Fault (Option Node)
  | mergeInputsAndDefaults => .ok (some (.stmt Snippet.mergeInputsAndDefaults))
  | modelObjectKey k mutation => .ok (some (.expr (Snippet.modelObjectKey k mutation o)))
  | setPrimaryKey k mutation => .ok (some (.stmt (Snippet.setPrimaryKey k mutation o)))
  | ensureCompositeKey k conditionally =>
    .ok ((Snippet.ensureCompositeKey k conditionally o).map .stmt)
  | validateIndexArgument d mutation =>
    if d.key.isComposite then
      match mutation.text?.bind KeyMutation.ofName?, d with
      | none, _ => .error (.missingKey mutation.shown)
      | some m, .index i => .ok ((Snippet.validateIndexArgument i m).map .stmt)
      | some _, .primary _ => .error (lacks "name")
    else .ok none
  | keyCondition k query => .ok (some (.stmt (Snippet.keyCondition k query o)))
  | queryExpression k list => .ok (some (.stmt (Snippet.queryExpression k list o)))
  | listQuery k => .ok (some (.stmt (Snippet.listQuery k o)))
  | queryRequest (.index i) => .ok (some (.stmt (Snippet.queryRequest i o)))
  | queryRequest (.primary _) => .error (lacks "name")
  | queryResponse => .ok (some (.stmt Snippet.queryResponse))

end TableKeys.Snippet
