/-
# Snippets for reading and writing items

The templates of a model that gets, creates, updates or deletes an item need the key of the
item; those that write also have to keep the synthetic attributes of composite keys up to
date. The snippets cooperate through names: `mergedValues` holds the input laid over the
default values, `hasSeenSomeKeyArg` tells whether the input has a field of an index, and
the resolver metadata carry the key and the schema names of synthetic attributes.
-/
import TableKeys.Key.Composite
import TableKeys.Template.Expr

namespace TableKeys.Snippet

open Template

/-- The variable for the input laid over the default values. -/
def mergedValues : String := "mergedValues"

/-- The variable that tells whether the input has a field of an index. -/
def hasSeenSomeKeyArg : String := "hasSeenSomeKeyArg"

/-- The variable for a field of an index while all are gone through. -/
def keyFieldName : String := "keyFieldName"

/-- The metadata name for the key of an item. -/
def modelObjectKeyName : String := "modelObjectKey"

/-- The metadata name for the schema names of synthetic attributes. -/
def nameOverridesName : String := "dynamodbNameOverrideMap"

/-- The path of the input of a mutation. -/
def inputPath : String := "ctx.args.input"

/-- The value is there. -/
def present (e : Expr) : Expr :=
  .not (.isNull e)

/-- Lays the input over the default values. -/
def mergeInputsAndDefaults : Stmt :=
  .block "Merge default values and inputs" [
    .set (.ref mergedValues) (.defaultIfNull (.ref "ctx.stash.defaultValues") (.object [])),
    .putAll (.ref mergedValues) (.defaultIfNull (.ref inputPath) (.object []))]

/-- The path under which the key values of an item are found: writes look at the merged values,
since defaults may fill in fields of the key, reads at the arguments. -/
def keyPath (mutation : Bool) : String :=
  if mutation then mergedValues else "ctx.args"

/-- The entry for the sort attribute of an item. -/
def sortEntry (k : KeyDecl) (path : String) (o : Options) : List (String × Expr) :=
  match k.sortFields with
  | [] => []
  | [field] => [(field, .toAttribute (.ref (path ++ "." ++ field)))]
  | fields => [(compositeName o fields, .toAttribute (.text (compositeTemplate o path fields)))]

/-- The key of an item: its key attributes with their values in stored form. If the sort
attribute has the name of the partition attribute, it takes its place. -/
def modelObjectKey (k : KeyDecl) (mutation : Bool) (o : Options) : Expr :=
  let path := keyPath mutation
  let partition := k.partition.name
  .object (Entries.putAll
    [(partition, .toAttribute (.ref (path ++ "." ++ partition)))] (sortEntry k path o))

/-- Stores the key of an item in the metadata. -/
def setPrimaryKey (k : KeyDecl) (mutation : Bool) (o : Options) : Stmt :=
  .block "Set the primary key" [.metadataPut modelObjectKeyName (modelObjectKey k mutation o)]

/-- The reference to the schema names of synthetic attributes. -/
def nameOverrides : Expr :=
  .ref ("ctx.stash.metadata." ++ nameOverridesName)

/-- Notes the schema name of a synthetic attribute. -/
def recordOverride (synthetic argument : String) : Stmt :=
  .choice (.isNull nameOverrides)
    [.metadataPut nameOverridesName (.object [(synthetic, .text argument)])]
    (some [.mapPut nameOverrides (.text synthetic) (.text argument)])

/-- Writes the value of a composite key into the input. With `conditionally` this is done only
if the input has a field of the key. -/
def writeComposite (synthetic template : String) (conditionally : Bool) : Stmt :=
  let write := Stmt.mapPut (.ref inputPath) (.text synthetic) (.text template)
  if conditionally then .choice (.ref hasSeenSomeKeyArg) [write] none else write

/-- Keeps the synthetic attribute of a composite key up to date; nothing to do for a key with
fewer than two sort fields. -/
def ensureCompositeKey (k : KeyDecl) (conditionally : Bool) (o : Options) : Option Stmt :=
  if k.isComposite then
    some (.compound [
      recordOverride (compositeName o k.sortFields) (compositeArgument k.sortFields),
      writeComposite (compositeName o k.sortFields)
        (compositeTemplate o mergedValues k.sortFields) conditionally])
  else none

/-- The two mutations that may touch a part of a composite key. -/
inductive KeyMutation where
  | create
  | update
deriving DecidableEq, Repr

namespace KeyMutation

/-- The name of a mutation. -/
def name : KeyMutation → String
  | create => "create"
  | update => "update"

/-- The mutation with a name. -/
def ofName? : String → Option KeyMutation
  | "create" => some create
  | "update" => some update
  | _ => none

/-- The mutation as a verb in a message. -/
def verb : KeyMutation → String
  | create => "creating"
  | update => "updating"

end KeyMutation

/-- The message to a caller who left out a field of an index. -/
def missingFieldMessage (index : String) (m : KeyMutation) : String :=
  "When " ++ m.verb ++ " any part of the composite sort key for @index '" ++ index ++
    "', you must provide all fields for the key. Missing key: '$" ++ keyFieldName ++ "'."

/-- The input has the field that is gone through. -/
def inputHasField : Expr :=
  .containsKey (.ref inputPath) (.text ("$" ++ keyFieldName))

/-- Refuses input that has some but not all sort fields of an index with two or more of them,
since its synthetic attribute can only be written from all of them. -/
def validateIndexArgument (i : IndexDecl) (m : KeyMutation) : Option Stmt :=
  if i.isComposite then
    let seen : Expr := .ref hasSeenSomeKeyArg
    let names : Expr := .ref "keyFieldNames"
    some (.block ("Validate " ++ m.name ++ " mutation for @index '" ++ i.name ++ "'") [
      .set seen (.bool false),
      .set names (.list (i.sortFields.map .text)),
      .forEach keyFieldName names [.choice inputHasField [.set seen (.bool true)] none],
      .forEach keyFieldName names [
        .choice (.and [seen, .not inputHasField])
          [.error (.text (missingFieldMessage i.name m)) none] none]])
  else none

end TableKeys.Snippet
