/-
# The log

What happens is recorded as events. An event has a level, a message and details under
names.
-/
import TableKeys.Data.Basic
import TableKeys.Table.Key

namespace TableKeys

/-- How important an event is. -/
inductive Level where
  | debug
  | info
  | warning
deriving DecidableEq, Repr

/-- The name of a level. -/
def Level.name : Level → String
  | debug => "DEBUG"
  | info => "INFO"
  | warning => "WARNING"

/-- What can happen. -/
inductive Event where
  /-- A template is evaluated. -/
  | evaluating (template : String)
  /-- A component of an interpolated key holds the separator of keys. -/
  | separatorInComponent (separator value : String)
  | primaryKeyReplaced (table : String) (schema : List KeyElement)
  | localIndexAdded (table index : String)
  | globalIndexAdded (table index : String)
  /-- The keys of a type are transformed, with its indexes. -/
  | transforming (type : String) (indexes : List String)
  | placedAsLocal (type index key : String)
  | placedAsGlobal (type index key : String)
  /-- The operation of a model has no resolver. -/
  | noResolver (type field operation : String)
  /-- Snippets went into a slot as a template. -/
  | snippetsInjected (type field slot template : String)
  | queryResolverMade (type field index : String)
deriving DecidableEq, Repr

/-- An element of a key schema as a map. -/
def KeyElement.data (e : KeyElement) : Data :=
  .object [("AttributeName", .text e.name), ("KeyType", .text e.role.word)]

namespace Event

/-- The level of an event. -/
def level : Event → Level
  | evaluating _ | transforming .. | noResolver .. | snippetsInjected .. => .debug
  | separatorInComponent .. => .warning
  | _ => .info

/-- The message of an event. -/
def message : Event → String
  | evaluating _ => "Evaluating template"
  | separatorInComponent .. => "Composite key component contains the key separator"
  | primaryKeyReplaced .. => "Replaced primary key"
  | localIndexAdded .. => "Added local secondary index"
  | globalIndexAdded .. => "Added global secondary index"
  | transforming .. => "Transforming keys"
  | placedAsLocal .. => "Index placed as local secondary index"
  | placedAsGlobal .. => "Index placed as global secondary index"
  | noResolver .. => "No resolver to inject into"
  | snippetsInjected .. => "Injected key snippets"
  | queryResolverMade .. => "Generated index query resolver"

/-- The details of an event. -/
def details : Event → Data
  | evaluating template => .object [("template", .text template)]
  | separatorInComponent separator value =>
    .object [("separator", .text separator), ("value", .text value)]
  | primaryKeyReplaced table schema =>
    .object [("table", .text table), ("key_schema", .list (schema.map KeyElement.data))]
  | localIndexAdded table index | globalIndexAdded table index =>
    .object [("table", .text table), ("index", .text index)]
  | transforming type indexes =>
    .object [("type", .text type), ("indexes", .list (indexes.map .text))]
  | placedAsLocal type index key | placedAsGlobal type index key =>
    .object [("type", .text type), ("index", .text index), ("key", .text key)]
  | noResolver type field operation =>
    .object [("type", .text type), ("field", .text field), ("operation", .text operation)]
  | snippetsInjected type field slot template =>
    .object [("type", .text type), ("field", .text field), ("slot", .text slot),
      ("template", .text template)]
  | queryResolverMade type field index =>
    .object [("type", .text type), ("field", .text field), ("index", .text index)]

end Event

/-- A short name of a key: the type with the partition field and, after a comma, the sort
fields joined by a separator. -/
def keyLabel (type partition : String) (sort : List String) (separator : String) : String :=
  match sort with
  | [] => type ++ "(" ++ partition ++ ")"
  | sort => type ++ "(" ++ partition ++ ", " ++ separator.intercalate sort ++ ")"

end TableKeys
