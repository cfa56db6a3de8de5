/-
# Sessions

A session holds what one compilation works on: the schema and the options, the tables of the
model types, the names of the data sources, the resolvers, and the log. Its steps register
tables and resolvers and find them again. A step that fails keeps what it did before.
-/
import TableKeys.Key.Composite
import TableKeys.Resolver
import TableKeys.Table.Basic

namespace TableKeys

open Template

/-- What one compilation works on. -/
structure Session where
  schema : Schema
  options : Options
  tables : Entries String Table := []
  dataSources : List String := []
  resolvers : Registry := []
  log : List Event := []

/-- Why a step of a session fails. -/
inductive SessionError where
  /-- The type has no table. -/
  | noTable (type : String)
  /-- There is no data source of this name. -/
  | noDataSource (name : String)
  | invalidField (e : InvalidKeyField)
  | table (e : TableError)
  | flag (e : NotBoolean)
  | operation (e : UnknownOperation)
  | resolverExists (type field : String)
  /-- The index has no query field. -/
  | noQueryField (index type : String)
  /-- An index names another partition field than its table has. -/
  | otherPrimaryField (index declared tableId actual : String)
  | severalPrimaryKeys (type : String)
  /-- Something is used where it cannot be. -/
  | fault (f : Fault)
deriving Repr

/-- The message about a type without a table. -/
def noTableText (type : String) : String :=
  "Table for type '" ++ type ++ "' not found"

/-- The message about a missing data source. -/
def noDataSourceText (name : String) : String :=
  "Data source '" ++ name ++ "' not found"

/-- The error in words. -/
def SessionError.text : SessionError → String
  | noTable type => noTableText type
  | noDataSource name => noDataSourceText name
  | invalidField e => e.text
  | table e => e.text
  | flag e => e.text
  | operation e => e.text
  | resolverExists type field =>
    "Resolver for '" ++ type ++ "." ++ field ++ "' already exists"
  | noQueryField index type =>
    "Index '" ++ index ++ "' on '" ++ type ++ "' has no query field"
  | otherPrimaryField index declared tableId actual =>
    "Index '" ++ index ++ "' declares primary key field '" ++ declared ++ "' but table '" ++
      tableId ++ "' is keyed on '" ++ actual ++ "'"
  | severalPrimaryKeys type => "Type '" ++ type ++ "' declares more than one primary key"
  | fault f => f.text

/-- A step of a session. -/
abbrev Step (α : Type) := EStateM SessionError Session α

namespace Session

/-- A part that may fail for a reason of its own. -/
def lift {ε α : Type} (wrap : ε → SessionError) : Except ε α → Step α
  | .ok a => return a
  | .error e => throw (wrap e)

/-- Records an event. -/
def record (e : Event) : Step Unit :=
  modify fun s => { s with log := s.log ++ [e] }

/-- The name of the table of a type, and of its data source. -/
def tableId (type : String) : String :=
  type ++ "Table"

/-- A new table with its data source for a type. A table that is keyed on `id` alone is never in
conflict with itself. -/
def addModelTable (type : String) : Step Unit :=
  modify fun s =>
    let table : Table := {
      logicalId := tableId type
      partition := Table.defaultPartition
      attributes := [Table.defaultPartition]
      payPerRequestCondition := s.options.payPerRequestCondition }
    { s with
      tables := s.tables.put type table
      dataSources := (s.dataSources.filter (· != tableId type)) ++ [tableId type] }

/-- The table of a type. -/
def tableOf (type : String) : Step Table := do
  match (← get).tables.get? type with
  | some table => return table
  | none => throw (.noTable type)

/-- Changes the table of a type; the table as far as it got is kept even if the change fails. -/
def changeTable (type : String) (change : TableChange Event) : Step Unit := do
  let table ← tableOf type
  match change.run table with
  | .ok event table =>
    modify fun s => { s with tables := s.tables.put type table }
    record event
  | .error e table =>
    modify fun s => { s with tables := s.tables.put type table }
    throw (.table e)

/-- Forgets the table of a type. -/
def dropTable (type : String) : Step Unit :=
  modify fun s => { s with tables := s.tables.erase type }

/-- Forgets a data source. -/
def dropDataSource (name : String) : Step Unit :=
  modify fun s => { s with dataSources := s.dataSources.filter (· != name) }

/-- Registers a resolver. -/
def addResolver (type field : String) (r : Resolver) : Step Unit := do
  let s ← get
  if s.resolvers.has (type, field) then throw (.resolverExists type field)
  else set { s with resolvers := s.resolvers.put (type, field) r }

/-- Registers resolvers without templates, one after the other. -/
def addResolvers : List (String × String) → Step Unit
  | [] => return ()
  | (type, field) :: rest => do
    addResolver type field { typeName := type, fieldName := field }
    addResolvers rest

/-- The place in the registry of the resolver for an operation on a type, if the operation has
a root field and a root type, and a resolver is there. -/
def resolverFor (type : ObjectType) (op : Operation) : Step (Option (String × String)) := do
  let s ← get
  match type.operationName op, s.schema.rootType op with
  | some field, some root =>
    if field.isEmpty || root.isEmpty then return none
    else if s.resolvers.has (root, field) then return some (root, field)
    else
      record (.noResolver root field op.name)
      return none
  | _, _ => return none

/-- The resolver for an operation given by its own name. -/
def resolverNamed (type : ObjectType) (operation : String) : Step (Option Resolver) := do
  let _ ← lift .operation (type.operationNamed operation)
  match Operation.ofName? operation with
  | none => return none
  | some op =>
    match ← resolverFor type op with
    | some place => return (← get).resolvers.get? place
    | none => return none

/-- Adds snippets as a template to the slot of a resolver that the options name; the value is
the template as it stands there. Nothing happens at a place without resolver. -/
def inject (place : String × String) (snippets : List (Option Node)) : Step (Option String) := do
  let s ← get
  match s.resolvers.get? place with
  | none => return none
  | some r =>
    let slot := s.options.slot
    let template := r.snippetTemplate snippets
    let stored := r.placed slot template
    set { s with resolvers := s.resolvers.put place (r.addToSlot slot template) }
    record (.snippetsInjected r.typeName r.fieldName slot stored.name)
    return some stored.name

/-- Adds a template to a slot of a resolver. -/
def addToSlot (place : String × String) (slot : String) (t : MappingTemplate) :
    Step (Option String) := do
  let s ← get
  match s.resolvers.get? place with
  | none => return none
  | some r =>
    set { s with resolvers := s.resolvers.put place (r.addToSlot slot t) }
    return some (r.placed slot t).name

end Session

end TableKeys
