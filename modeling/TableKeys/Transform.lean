/-
# Transforming tables and resolvers

The keys and indexes that types declare are put into effect: the table of a type gets its
primary key and its indexes, and the resolvers of its operations get the snippets that keep
keys right. An index becomes a local one if it shares the partition attribute of the table
and local indexes are not switched off. Types are taken in the order of their first
declaration, primary keys first; of each type the primary key comes before the indexes.
-/
import TableKeys.Session
import TableKeys.Snippet.Query

namespace TableKeys.Session

open Template Snippet

/-! ## Primary keys -/

/-- Gives the table of a type its declared primary key. -/
def replacePrimaryKey (k : KeyDecl) : Step Unit := do
  let s ← get
  let _ ← tableOf k.object.name
  let attributes ← lift .invalidField (k.attributes s.schema s.options)
  changeTable k.object.name (Table.replacePrimaryKey (k.schema s.options) attributes)

/-- Injects snippets into the resolver of an operation, if there is one. -/
def injectFor (type : ObjectType) (op : Operation) (snippets : List (Option Stmt)) :
    Step Unit := do
  match ← resolverFor type op with
  | some place => do
    let _ ← inject place (snippets.map fun s => s.map Node.stmt)
  | none => return ()

/-- The snippets that the resolver of an operation needs for a primary key. -/
def primarySnippets (k : KeyDecl) (o : Options) : Operation → List (Option Stmt)
  | .get => [some (setPrimaryKey k false o)]
  | .list => [some (listQuery k o)]
  | .create | .update =>
    [some mergeInputsAndDefaults, some (setPrimaryKey k true o), ensureCompositeKey k false o]
  | .delete => [some mergeInputsAndDefaults, some (setPrimaryKey k true o)]

/-- Injects the handling of a primary key into the resolvers of all operations. -/
def injectPrimary (k : KeyDecl) : List Operation → Step Unit
  | [] => return ()
  | op :: ops => do
    let s ← get
    injectFor k.object op (primarySnippets k s.options op)
    injectPrimary k ops

/-- Injects the handling of a primary key. -/
def updateResolvers (k : KeyDecl) : Step Unit :=
  injectPrimary k [.get, .list, .create, .update, .delete]

/-- Puts a primary key into effect. -/
def applyPrimaryKey (k : KeyDecl) : Step Unit := do
  replacePrimaryKey k
  updateResolvers k

/-! ## Indexes -/

/-- Adds an index to the table of its type. -/
def appendIndex (i : IndexDecl) : Step Unit := do
  let s ← get
  let o := s.options
  let type := i.object.name
  let table ← tableOf type
  let attributes ← lift .invalidField (i.attributes s.schema o)
  let partition := Table.typed attributes i.partition.name
  let sort := (i.sortName? o).map (Table.typed attributes)
  let label := keyLabel type i.partition.name i.sortFields o.nameSeparator
  match i.primaryPartition with
  | some field =>
    if field.name != table.partition.name then
      throw (.otherPrimaryField i.name field.name table.logicalId table.partition.name)
  | none => pure ()
  let globalOnly ← lift .flag o.globalOnly
  if !globalOnly && table.partition.name == partition.name then
    changeTable type (Table.addLocalIndex { name := i.name, sort })
    record (.placedAsLocal type i.name label)
  else
    changeTable type (Table.addGlobalIndex {
      name := i.name
      partition
      sort
      readCapacity := .object [("Ref", .scalar o.readCapacityParameter)]
      writeCapacity := .object [("Ref", .scalar o.writeCapacityParameter)] })
    record (.placedAsGlobal type i.name label)

/-- Makes and registers the resolver for the query field of an index. It belongs to the root
type for queries and is registered under the type of the index. -/
def makeQueryResolver (i : IndexDecl) : Step Resolver := do
  let s ← get
  let type := i.object.name
  match i.queryField with
  | none | some "" => throw (.noQueryField i.name type)
  | some field =>
    let _ ← tableOf type
    if !s.dataSources.contains (tableId type) then throw (.noDataSource (tableId type))
    let root := match s.schema.queryType with
      | none | some "" => "Query"
      | some root => root
    let template (kind : String) (stage : Stmt) : MappingTemplate := {
      name := root ++ "." ++ field ++ "." ++ kind ++ ".vtl"
      stages := [.stmt stage] }
    let resolver : Resolver := {
      typeName := root
      fieldName := field
      dataSource := some (tableId type)
      request := some (template "req" (queryRequest i s.options))
      response := some (template "res" queryResponse) }
    addResolver type field resolver
    record (.queryResolverMade root field i.name)
    return resolver

/-- The snippets that the resolver of an operation needs for an index; none if its sort key is
not composite. -/
def indexSnippets (i : IndexDecl) (o : Options) : Operation → List (Option Stmt)
  | .create => [validateIndexArgument i .create, ensureCompositeKey i.toKeyDecl true o]
  | .update => [validateIndexArgument i .update, ensureCompositeKey i.toKeyDecl true o]
  | .delete => [ensureCompositeKey i.toKeyDecl false o]
  | _ => []

/-- Injects the upkeep of the key of an index into the resolvers of some operations. -/
def injectIndex (i : IndexDecl) : List Operation → Step Unit
  | [] => return ()
  | op :: ops => do
    let s ← get
    match ← resolverFor i.object op with
    | some place =>
      let snippets := indexSnippets i s.options op
      if snippets.any Option.isSome then
        let all := some mergeInputsAndDefaults :: snippets
        let _ ← inject place (all.map fun s => s.map Node.stmt)
    | none => pure ()
    injectIndex i ops

/-- Injects the upkeep of the key of an index and makes the resolver of its query field, if it
has one. -/
def updateResolversForIndex (i : IndexDecl) : Step Unit := do
  injectIndex i [.create, .update, .delete]
  match i.queryField with
  | none | some "" => return ()
  | some _ => do
    let _ ← makeQueryResolver i

/-- Puts an index into effect. -/
def applyIndex (i : IndexDecl) : Step Unit := do
  appendIndex i
  updateResolversForIndex i

/-! ## Whole types -/

/-- Puts several indexes into effect, in order. -/
def applyIndexes : List IndexDecl → Step Unit
  | [] => return ()
  | i :: is => do
    applyIndex i
    applyIndexes is

/-- The declarations of one type. -/
structure TypeDecls where
  type : String
  primaryKeys : List KeyDecl
  indexes : List IndexDecl

/-- The types of several declarations, in the order of the first one of each. -/
def declaredTypes (declarations : List KeyDecl) : List String :=
  (declarations.map (·.object.name)).foldl
    (fun types type => if types.contains type then types else types ++ [type]) []

/-- The declarations by type. -/
def byType (primaryKeys : List KeyDecl) (indexes : List IndexDecl) : List TypeDecls :=
  (declaredTypes (primaryKeys ++ indexes.map IndexDecl.toKeyDecl)).map fun type => {
    type
    primaryKeys := primaryKeys.filter (·.object.name == type)
    indexes := indexes.filter (·.object.name == type) }

/-- Puts the declarations of one type into effect. -/
def transformType (d : TypeDecls) : Step Unit := do
  match d.primaryKeys with
  | _ :: _ :: _ => throw (.severalPrimaryKeys d.type)
  | keys =>
    record (.transforming d.type (d.indexes.map IndexDecl.name))
    match keys.head? with
    | some k => applyPrimaryKey k
    | none => pure ()
    applyIndexes d.indexes

/-- Puts the declarations of several types into effect, in order. -/
def transformTypes : List TypeDecls → Step Unit
  | [] => return ()
  | d :: ds => do
    transformType d
    transformTypes ds

/-- Puts declarations into effect. -/
def transform (primaryKeys : List KeyDecl) (indexes : List IndexDecl) : Step Unit :=
  transformTypes (byType primaryKeys indexes)

end TableKeys.Session
