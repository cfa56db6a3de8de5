/-
# Schemas

A schema has object types with typed fields, enumerations, and the names of the root types
for queries and mutations. It says which operations exist for a type and under what names,
and which attribute type stores the values of a field that is part of a key.
-/
import TableKeys.Data.Entries
import TableKeys.Table.Key
import TableKeys.Text.Capital

namespace TableKeys

open Text

/-- A field of an object type. -/
structure FieldDef where
  name : String
  typeName : String
  required : Bool := false
  isList : Bool := false
deriving DecidableEq, Repr

/-- An object type. A query or mutation may be renamed, or switched off by having no name. -/
structure ObjectType where
  name : String
  fields : Entries String FieldDef := []
  queries : Entries String (Option String) := []
  mutations : Entries String (Option String) := []
  pluralName : Option String := none
deriving Repr

/-- The operations of a model. -/
inductive Operation where
  | get
  | list
  | create
  | update
  | delete
deriving DecidableEq, Repr

namespace Operation

/-- The name of an operation. -/
def name : Operation → String
  | get => "get"
  | list => "list"
  | create => "create"
  | update => "update"
  | delete => "delete"

/-- The operation with a name. -/
def ofName? : String → Option Operation
  | "get" => some get
  | "list" => some list
  | "create" => some create
  | "update" => some update
  | "delete" => some delete
  | _ => none

/-- The operation reads and does not write. -/
def isQuery : Operation → Bool
  | get | list => true
  | _ => false

theorem ofName?_name (op : Operation) : ofName? op.name = some op := by
  cases op <;> rfl

end Operation

/-- An operation that models do not have. -/
structure UnknownOperation where
  name : String
deriving DecidableEq, Repr

/-- The error in words. -/
def UnknownOperation.text (e : UnknownOperation) : String :=
  "Unknown model operation '" ++ e.name ++ "'"

/-- A simple English plural. Only the last letters count, and no letter beyond ASCII has one of
the letters looked for as its small form. -/
def pluralize (name : String) : String :=
  let lower := name.toList.map Char.toLower
  match lower.reverse with
  | 'y' :: c :: _ =>
    if "aeiou".toList.contains c then name ++ "s"
    else String.ofList (name.toList.dropLast ++ "ies".toList)
  | 's' :: _ | 'x' :: _ | 'z' :: _ | 'h' :: 'c' :: _ | 'h' :: 's' :: _ => name ++ "es"
  | _ => name ++ "s"

namespace ObjectType

/-- The object type with these fields; of fields with one name the last one counts. -/
def build (name : String) (fields : List FieldDef)
    (queries mutations : Entries String (Option String)) (pluralName : Option String) :
    ObjectType :=
  { name, fields := Entries.ofList (fields.map fun f => (f.name, f)), queries, mutations,
    pluralName }

/-- The plural of the name of a type. -/
def plural (t : ObjectType) : String :=
  match t.pluralName with
  | some plural => if plural.isEmpty then pluralize t.name else plural
  | none => pluralize t.name

/-- The name of the root field for an operation, if there is one. -/
def operationName (t : ObjectType) (op : Operation) : Option String :=
  let overrides := if op.isQuery then t.queries else t.mutations
  match overrides.get? op.name with
  | some name => name
  | none => some (op.name ++ capitalize (if op = .list then t.plural else t.name))

/-- The name of the root field for an operation given by its own name. -/
def operationNamed (t : ObjectType) (name : String) :
    Except UnknownOperation (Option String) :=
  match Operation.ofName? name with
  | some op => .ok (t.operationName op)
  | none => .error ⟨name⟩

end ObjectType

/-- A schema. -/
structure Schema where
  types : Entries String ObjectType := []
  enums : Entries String (List String) := []
  queryType : Option String := some "Query"
  mutationType : Option String := some "Mutation"
deriving Repr

/-- Why a field cannot be part of a key. -/
inductive UnfitReason where
  | listType
  | booleanType
  /-- Neither an enumeration nor a scalar type with an attribute type. -/
  | noAttributeType
deriving DecidableEq, Repr

/-- A field that cannot be part of a key. -/
structure InvalidKeyField where
  field : String
  typeName : String
  reason : UnfitReason
deriving DecidableEq, Repr

/-- The reason in words. -/
def UnfitReason.text : UnfitReason → String
  | listType => "list values cannot be used as keys"
  | booleanType => "Boolean values cannot be used as keys"
  | noAttributeType => "there is no valid DynamoDB attribute type for this type"

/-- The message about a field that cannot be part of a key. -/
def invalidKeyFieldText (field typeName : String) (reason : Option String) : String :=
  "Field '" ++ field ++ "' of type '" ++ typeName ++ "' cannot be used as a key" ++
    match reason with
    | some reason => if reason.isEmpty then "" else ": " ++ reason
    | none => ""

/-- The error in words. -/
def InvalidKeyField.text (e : InvalidKeyField) : String :=
  invalidKeyFieldText e.field e.typeName (some e.reason.text)

/-- The attribute types of scalar types. -/
def scalarAttributeTypes : Entries String AttributeType := [
  ("ID", .s),
  ("String", .s),
  ("Int", .n),
  ("Float", .n),
  ("AWSDate", .s),
  ("AWSTime", .s),
  ("AWSDateTime", .s),
  ("AWSTimestamp", .n),
  ("AWSEmail", .s),
  ("AWSJSON", .s),
  ("AWSURL", .s),
  ("AWSPhone", .s),
  ("AWSIPAddress", .s)]

namespace Schema

/-- The type is an enumeration. -/
def isEnum (s : Schema) (typeName : String) : Bool :=
  s.enums.has typeName

/-- The attribute type that stores the values of a key field. -/
def attributeType (s : Schema) (f : FieldDef) : Except InvalidKeyField AttributeType :=
  if f.isList then .error ⟨f.name, f.typeName, .listType⟩
  else if s.isEnum f.typeName then .ok .s
  else if f.typeName = "Boolean" then .error ⟨f.name, f.typeName, .booleanType⟩
  else
    match scalarAttributeTypes.get? f.typeName with
    | some type => .ok type
    | none => .error ⟨f.name, f.typeName, .noAttributeType⟩

/-- The name of the root type that has an operation. -/
def rootType (s : Schema) (op : Operation) : Option String :=
  if op.isQuery then s.queryType else s.mutationType

end Schema

end TableKeys
