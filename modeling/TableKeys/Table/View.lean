/-
# Views of a table

A table can be described with its keys and indexes (`Table.describe`) and declared for
deployment (`Table.declaration`). In a declaration the key schema of a local index starts
with the partition attribute that the table has then. Capacities of a global index are given
only if there are any, and are left out under the condition of the table.
-/
import TableKeys.Table.Basic

namespace TableKeys

/-- A key attribute as a map. -/
def KeyAttribute.data (a : KeyAttribute) : Data :=
  .object [("name", .text a.name), ("type", .text a.type.letter)]

/-- A key attribute as a map, or null. -/
def KeyAttribute.dataOrNull (a : Option KeyAttribute) : Data :=
  (a.map KeyAttribute.data).getD .null

/-- An index as a map under the names of its fields. -/
def Table.AnyIndex.data : Table.AnyIndex → Data
  | isLocal i => .object [
    ("index_name", .text i.name),
    ("sort_key", KeyAttribute.dataOrNull i.sort),
    ("projection_type", .text i.projection)]
  | isGlobal i => .object [
    ("index_name", .text i.name),
    ("partition_key", i.partition.data),
    ("sort_key", KeyAttribute.dataOrNull i.sort),
    ("projection_type", .text i.projection),
    ("read_capacity", i.readCapacity),
    ("write_capacity", i.writeCapacity)]

/-- The key schema of a local index in a table keyed on the given partition attribute. -/
def LocalIndex.keySchema (i : LocalIndex) (partition : String) : List KeyElement :=
  keySchemaOf partition (i.sort.map KeyAttribute.name)

/-- The key schema of a global index. -/
def GlobalIndex.keySchema (i : GlobalIndex) : List KeyElement :=
  keySchemaOf i.partition.name (i.sort.map KeyAttribute.name)

namespace Table

/-- The keys and indexes of a table, described. -/
def describe (t : Table) : Data :=
  .object [
    ("partitionKey", t.partition.data),
    ("sortKey", KeyAttribute.dataOrNull t.sort),
    ("keySchema", .list (t.keySchema.map fun e =>
      .object [("attributeName", .text e.name), ("keyType", .text e.role.word)])),
    ("attributeDefinitions", .list (t.attributes.map fun a =>
      .object [("attributeName", .text a.name), ("attributeType", .text a.type.letter)])),
    ("localSecondaryIndexes", .list (t.localIndexes.map fun i =>
      .object [
        ("indexName", .text i.name),
        ("sortKey", KeyAttribute.dataOrNull i.sort),
        ("projectionType", .text i.projection)])),
    ("globalSecondaryIndexes", .list (t.globalIndexes.map fun i =>
      .object [
        ("indexName", .text i.name),
        ("partitionKey", i.partition.data),
        ("sortKey", KeyAttribute.dataOrNull i.sort),
        ("projectionType", .text i.projection),
        ("readCapacity", i.readCapacity),
        ("writeCapacity", i.writeCapacity)]))]

/-- A reference to a parameter in a declaration. -/
def reference (name : String) : Data :=
  .object [("Ref", .text name)]

/-- What a declaration says of an index: its name, key schema and projection. -/
def indexDeclaration (name : String) (schema : List KeyElement) (projection : String) :
    List (String × Data) := [
  ("IndexName", .text name),
  ("KeySchema", .list (schema.map KeyElement.data)),
  ("Projection", .object [("ProjectionType", .text projection)])]

/-- The capacities of a global index in a declaration; nothing if there are none. -/
def capacityDeclaration (condition : String) (i : GlobalIndex) : List (String × Data) :=
  match i.readCapacity, i.writeCapacity with
  | .null, .null => []
  | read, write => [
    ("ProvisionedThroughput", .object [
      ("Fn::If", .list [
        .text condition,
        reference "AWS::NoValue",
        .object [("ReadCapacityUnits", read), ("WriteCapacityUnits", write)]])])]

/-- A list under a name, unless it is empty. -/
def listIfAny (name : String) (items : List Data) : List (String × Data) :=
  if items.isEmpty then [] else [(name, .list items)]

/-- The declaration of a table. -/
def declaration (t : Table) : Data :=
  let localDeclarations := t.localIndexes.map fun i =>
    Data.object (indexDeclaration i.name (i.keySchema t.partition.name) i.projection)
  let globalDeclarations := t.globalIndexes.map fun i =>
    Data.object (indexDeclaration i.name i.keySchema i.projection ++
      capacityDeclaration t.payPerRequestCondition i)
  .object [
    ("Type", .text "AWS::DynamoDB::Table"),
    ("Properties", .object (
      [("KeySchema", .list (t.keySchema.map KeyElement.data)),
        ("AttributeDefinitions", .list (t.attributes.map fun a =>
          .object [("AttributeName", .text a.name), ("AttributeType", .text a.type.letter)]))] ++
      listIfAny "LocalSecondaryIndexes" localDeclarations ++
      listIfAny "GlobalSecondaryIndexes" globalDeclarations))]

end Table

end TableKeys
