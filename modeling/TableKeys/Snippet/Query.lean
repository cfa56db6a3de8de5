/-
# Snippets for queries

A query names its items by a key condition: the partition argument, and perhaps conditions
on the sort argument. The condition is built as an expression with placeholders. Where the
sort key is composite, its argument is a map of components, and the operand is put together
from the leading components that are there.
-/
import TableKeys.Snippet.Write

namespace TableKeys.Snippet

open Template

/-- The variable and metadata name for the key condition of a query. -/
def modelQueryExpression : String := "modelQueryExpression"

/-- The path of the argument for the direction of a query. -/
def sortDirectionPath : String := "ctx.args.sortDirection"

/-- The type of an error about arguments. -/
def invalidArguments : String := "InvalidArgumentsError"

/-- The operators of the sort argument with one operand, and what each asks of the sort
attribute. -/
def sortKeyOperators : List (String × String) := [
  ("eq", "#sortKey = :sortKey"),
  ("lt", "#sortKey < :sortKey"),
  ("le", "#sortKey <= :sortKey"),
  ("gt", "#sortKey > :sortKey"),
  ("ge", "#sortKey >= :sortKey"),
  ("beginsWith", "begins_with(#sortKey, :sortKey)")]

/-- What the operator with two operands asks of the sort attribute. -/
def betweenCondition : String := "#sortKey BETWEEN :sortKey0 AND :sortKey1"

/-- The value of a component once those before it are in the variable. -/
def assembledText (operand name separator : String) (first : Bool) (field : String) : String :=
  let component := braced (child operand field)
  if first then component else braced name ++ separator ++ component

/-- Takes up the components from the given ones on, as long as they are there. -/
def assembleFrom (operand name separator : String) (first : Bool) : List String → List Stmt
  | [] => []
  | field :: fields => [
    .choice (present (.ref (child operand field)))
      (.set (.ref name) (.text (assembledText operand name separator first field)) ::
        assembleFrom operand name separator false fields)
      none]

/-- Puts the leading components of an operand together in a variable, stopping at the first
that is missing. -/
def assembleComposite (operand : String) (fields : List String) (name : String)
    (o : Options) : Stmt :=
  .compound (.set (.ref name) (.text "") ::
    assembleFrom operand name o.keySeparator true fields)

/-- What has to be done before an operand is used, and the operand. -/
def sortOperand (k : KeyDecl) (operand name : String) (o : Options) : List Stmt × Expr :=
  if k.isComposite then
    ([assembleComposite operand k.sortFields name o], .text (braced name))
  else ([], .ref operand)

/-- Adds a condition on the sort attribute to the key condition. -/
def addCondition (query sortName condition : String) : List Stmt := [
  .set (.ref (child query "expression"))
    (.text (braced (child query "expression") ++ " AND " ++ condition)),
  .mapPut (.ref (child query "expressionNames")) (.text "#sortKey") (.text sortName)]

/-- Gives a value placeholder of the key condition its value. -/
def bindValue (query placeholder : String) (value : Expr) : Stmt :=
  .mapPut (.ref (child query "expressionValues")) (.text placeholder) (.toAttribute value)

/-- The operator of the sort argument is used. -/
def operatorUsed (argument operator : String) : Expr :=
  .and [present (.ref argument), present (.ref (child argument operator))]

/-- The conditions that the operators with one operand add. -/
def oneOperandConditions (k : KeyDecl) (query argument sortName : String) (o : Options) :
    List Stmt :=
  sortKeyOperators.map fun (operator, condition) =>
    let (prepare, value) := sortOperand k (child argument operator) "sortKeyValue" o
    .choice (operatorUsed argument operator)
      (prepare ++ addCondition query sortName condition ++ [bindValue query ":sortKey" value])
      none

/-- The condition that the operator with two operands adds. -/
def betweenConditions (k : KeyDecl) (query argument sortName : String) (o : Options) : Stmt :=
  let between := child argument "between"
  let (prepareLow, low) := sortOperand k (between ++ "[0]") "sortKeyValue0" o
  let (prepareHigh, high) := sortOperand k (between ++ "[1]") "sortKeyValue1" o
  .choice (operatorUsed argument "between")
    (prepareLow ++ prepareHigh ++ addCondition query sortName betweenCondition ++
      [bindValue query ":sortKey0" low, bindValue query ":sortKey1" high])
    none

/-- The conditions on the sort attribute; none without a sort key. -/
def sortKeyConditions (k : KeyDecl) (query : String) (o : Options) : List Stmt :=
  match k.sortArgument?, k.sortName? o with
  | some argument, some sortName =>
    let argument := "ctx.args." ++ argument
    oneOperandConditions k query argument sortName o ++
      [betweenConditions k query argument sortName o]
  | _, _ => []

/-- Fills a variable with the key condition, if the partition argument is there. -/
def keyCondition (k : KeyDecl) (query : String) (o : Options) : Stmt :=
  let partition := k.partition.name
  let argument : Expr := .ref ("ctx.args." ++ partition)
  .choice (present argument)
    ([.set (.ref (child query "expression")) (.text ("#" ++ partition ++ " = :" ++ partition)),
      .set (.ref (child query "expressionNames")) (.object [("#" ++ partition, .text partition)]),
      .set (.ref (child query "expressionValues"))
        (.object [(":" ++ partition, .toAttribute argument)])] ++
      sortKeyConditions k query o)
    none

/-- Refuses a direction where there is no sort key or, in a list, no partition argument. -/
def checkDirection (k : KeyDecl) (list : Bool) : List Stmt :=
  let direction : Expr := .ref sortDirectionPath
  if k.sortFields.isEmpty then
    [.choice (present direction)
      [.error
        (.text "sortDirection is not supported for List operations without a Sort key defined.")
        (some (.text invalidArguments))]
      none]
  else if list then
    [.choice (.and [.isNull (.ref ("ctx.args." ++ k.partition.name)), present direction])
      [.error
        (.text ("When providing argument 'sortDirection' you must also provide argument '" ++
          k.partition.name ++ "'."))
        (some (.text invalidArguments))]
      none]
  else []

/-- Builds the key condition of a query; `list` for a query of all items of a model. -/
def queryExpression (k : KeyDecl) (list : Bool) (o : Options) : Stmt :=
  .block "Set query expression for key"
    (checkDirection k list ++
      [.set (.ref modelQueryExpression) (.object []), keyCondition k modelQueryExpression o])

/-- Builds the key condition of a list and stores it in the metadata. -/
def listQuery (k : KeyDecl) (o : Options) : Stmt :=
  .compound [
    queryExpression k true o,
    .metadataPut modelQueryExpression (.ref modelQueryExpression)]

/-- The version of requests. -/
def requestVersion : String := "2018-05-29"

/-- The request of an index query. -/
def queryRequest (i : IndexDecl) (o : Options) : Stmt :=
  let request := "QueryRequest"
  let direction : Expr := .ref sortDirectionPath
  let nextToken : Expr := .ref "ctx.args.nextToken"
  let filter : Expr := .ref "ctx.args.filter"
  let setForward (forward : Bool) : List Stmt :=
    [.set (.ref (child request "scanIndexForward")) (.bool forward)]
  .compound [
    queryExpression i.toKeyDecl false o,
    .set (.ref "limit") (.defaultIfNull (.ref "ctx.args.limit") (.intOf o.pageLimit)),
    .set (.ref request) (.object [
      ("version", .text requestVersion),
      ("operation", .text "Query"),
      ("limit", .ref "limit"),
      ("query", .ref modelQueryExpression),
      ("index", .text i.name)]),
    .choice (.and [present direction, .equals direction (.text "DESC")])
      (setForward false) (some (setForward true)),
    .choice nextToken [.set (.ref (child request "nextToken")) nextToken] none,
    .choice filter [.set (.ref (child request "filter")) (.toFilter filter)] none,
    .emit (.ref request)]

/-- The response of an index query. -/
def queryResponse : Stmt :=
  .compound [
    .choice (.ref "ctx.error")
      [.error (.ref "ctx.error.message") (some (.ref "ctx.error.type"))] none,
    .emit (.ref "ctx.result")]

end TableKeys.Snippet
