/-
# Tables

A table has a primary key, local indexes, which share its partition attribute, and global
indexes with keys of their own. Its attribute definitions give each key attribute its type.

The primary key can be replaced and indexes can be added. A change yields the event that
records it. A change that fails stops where it fails: what it did before stays done, as the
type of changes shows.
-/
import TableKeys.Data.Shown
import TableKeys.Log

namespace TableKeys

/-- An index that shares the partition attribute of its table. -/
structure LocalIndex where
  name : String
  sort : Option KeyAttribute := none
  projection : String := "ALL"
deriving DecidableEq, Repr

/-- An index with a key of its own; capacities may be any values. -/
structure GlobalIndex where
  name : String
  partition : KeyAttribute
  sort : Option KeyAttribute := none
  projection : String := "ALL"
  readCapacity : Data := .null
  writeCapacity : Data := .null
deriving Repr

/-- A table. -/
structure Table where
  logicalId : String
  partition : KeyAttribute
  sort : Option KeyAttribute := none
  /-- The attribute definitions. -/
  attributes : List KeyAttribute := []
  localIndexes : List LocalIndex := []
  globalIndexes : List GlobalIndex := []
  /-- The condition under which capacities are left out. -/
  payPerRequestCondition : String := "ShouldUsePayPerRequestBilling"
deriving Repr

/-- Why a change of a table fails. -/
inductive TableError where
  /-- A key schema needs one partition element and at most one sort element. -/
  | malformedSchema (table : String) (schema : List KeyElement)
  /-- Attributes of the key schema are not defined. -/
  | undefinedAttributes (table : String) (names : List String)
  /-- An attribute is defined with another type. -/
  | conflictingType (table name : String) (existing new : AttributeType)
  /-- There is an index of this name. -/
  | indexExists (table index : String)
deriving DecidableEq, Repr

/-- The error in words. -/
def TableError.text : TableError → String
  | malformedSchema table schema =>
    "Key schema of '" ++ table ++ "' needs one HASH and at most one RANGE element, got " ++
      (Data.list (schema.map KeyElement.data)).shown
  | undefinedAttributes table names =>
    "Key attributes " ++ (Data.list (names.map .text)).shown ++ " of '" ++ table ++
      "' have no definition"
  | conflictingType table name existing new =>
    "Attribute '" ++ name ++ "' of '" ++ table ++ "' is already defined as '" ++
      existing.letter ++ "', cannot redefine it as '" ++ new.letter ++ "'"
  | indexExists table index => "Index '" ++ index ++ "' already exists on '" ++ table ++ "'"

/-- A change of a table. -/
abbrev TableChange (α : Type) := EStateM TableError Table α

namespace Table

/-- The key schema of the primary key. -/
def keySchema (t : Table) : List KeyElement :=
  keySchemaOf t.partition.name (t.sort.map KeyAttribute.name)

/-- The type with which an attribute is defined. -/
def attributeType? (t : Table) (name : String) : Option AttributeType :=
  (t.attributes.find? (·.name == name)).map KeyAttribute.type

/-- An index of a table. -/
inductive AnyIndex where
  | isLocal (i : LocalIndex)
  | isGlobal (i : GlobalIndex)

/-- The names of all indexes. -/
def indexNames (t : Table) : List String :=
  t.localIndexes.map LocalIndex.name ++ t.globalIndexes.map GlobalIndex.name

/-- The index of a name; local indexes come first. -/
def getIndex? (t : Table) (name : String) : Option AnyIndex :=
  match t.localIndexes.find? (·.name == name) with
  | some i => some (.isLocal i)
  | none => (t.globalIndexes.find? (·.name == name)).map .isGlobal

/-- The key attributes of all indexes. -/
def indexAttributes (t : Table) : List KeyAttribute :=
  t.localIndexes.flatMap (fun i => i.sort.toList) ++
    t.globalIndexes.flatMap fun i => i.partition :: i.sort.toList

/-- The key attributes of the primary key. -/
def primaryAttributes (t : Table) : List KeyAttribute :=
  t.partition :: t.sort.toList

/-- Defines an attribute, unless it is defined with the same type already. -/
def register (a : KeyAttribute) : TableChange Unit := do
  let t ← get
  match t.attributeType? a.name with
  | none => set { t with attributes := t.attributes ++ [a] }
  | some existing =>
    if existing = a.type then return () else
      throw (.conflictingType t.logicalId a.name existing a.type)

/-- Defines several attributes, in order. -/
def registerAll : List KeyAttribute → TableChange Unit
  | [] => return ()
  | a :: as => do
    register a
    registerAll as

/-- The attribute that a table is keyed on where nothing else is said. -/
def defaultPartition : KeyAttribute := { name := "id" }

/-- The planned table with its key attributes defined. -/
def create (plan : Table) : Except TableError Table :=
  match (registerAll plan.primaryAttributes).run plan with
  | .ok _ t => .ok t
  | .error e _ => .error e

/-- The type that definitions give to a name; the last one counts. -/
def definedType? (definitions : List KeyAttribute) (name : String) : Option AttributeType :=
  (definitions.reverse.find? (·.name == name)).map KeyAttribute.type

/-- The names of a key schema that definitions leave out. -/
def undefinedNames (schema : List KeyElement) (definitions : List KeyAttribute) : List String :=
  (schema.map KeyElement.name).filter fun name => (definedType? definitions name).isNone

/-- The elements of a key schema with a role. -/
def elements (schema : List KeyElement) (role : KeyRole) : List KeyElement :=
  schema.filter (·.role == role)

/-- The attribute definitions that stay when the primary key goes: those of other attributes
and those that an index uses. -/
def keptAttributes (t : Table) : List KeyAttribute :=
  let old := t.keySchema.map KeyElement.name
  let used := t.indexAttributes.map KeyAttribute.name
  t.attributes.filter fun a => !old.contains a.name || used.contains a.name

/-- The key attribute of a name with the type that definitions give it, or else a text. -/
def typed (definitions : List KeyAttribute) (name : String) : KeyAttribute :=
  ⟨name, (definedType? definitions name).getD .s⟩

/-- The partition element and the sort element of a key schema that has one partition element
and at most one sort element. -/
def keyElements? (schema : List KeyElement) : Option (KeyElement × Option KeyElement) :=
  match elements schema .hash, elements schema .range with
  | [partition], [] => some (partition, none)
  | [partition], [sort] => some (partition, some sort)
  | _, _ => none

/-- The table with a new primary key and without the definitions that only the old one needed. -/
def rekeyed (t : Table) (partition : KeyAttribute) (sort : Option KeyAttribute) : Table :=
  { t with attributes := t.keptAttributes, partition, sort }

/-- Replaces the primary key. The definitions of the old key attributes go, unless an index
uses them, and the new ones are added. -/
def replacePrimaryKey (schema : List KeyElement) (definitions : List KeyAttribute) :
    TableChange Event := do
  let t ← get
  match keyElements? schema with
  | none => throw (.malformedSchema t.logicalId schema)
  | some (partition, sort) =>
    let missing := undefinedNames schema definitions
    if missing.isEmpty then
      set (t.rekeyed (typed definitions partition.name)
        (sort.map fun e => typed definitions e.name))
      registerAll definitions
      return .primaryKeyReplaced t.logicalId (← get).keySchema
    else throw (.undefinedAttributes t.logicalId missing)

/-- Refuses a name that an index has. -/
def ensureUnusedName (name : String) : TableChange Unit := do
  let t ← get
  if t.indexNames.contains name then throw (.indexExists t.logicalId name) else return ()

/-- Adds a local index. -/
def addLocalIndex (i : LocalIndex) : TableChange Event := do
  ensureUnusedName i.name
  registerAll i.sort.toList
  modify fun t => { t with localIndexes := t.localIndexes ++ [i] }
  return .localIndexAdded (← get).logicalId i.name

/-- Adds a global index. -/
def addGlobalIndex (i : GlobalIndex) : TableChange Event := do
  ensureUnusedName i.name
  registerAll (i.partition :: i.sort.toList)
  modify fun t => { t with globalIndexes := t.globalIndexes ++ [i] }
  return .globalIndexAdded (← get).logicalId i.name

end Table

end TableKeys
