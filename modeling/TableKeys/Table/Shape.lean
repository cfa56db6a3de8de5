/-
# Tables given as data

The parts of tables and of changes to them can be given as maps. A map is checked against
the shape of the part; key attributes inside it are checked before the rest.
-/
import TableKeys.Request
import TableKeys.Table.Basic

namespace TableKeys

namespace Checked

/-- One of some words. -/
def word {α : Type} (ofWord? : String → Option α) : Data → Checked α
  | .text s =>
    match ofWord? s with
    | some a => .ok a
    | none => flaw .notAllowed
  | _ => flaw .notAllowed

/-- A list. -/
def list {α : Type} (check : Data → Checked α) : Data → Checked (List α)
  | .list items => all (items.mapIdx fun i d => under (.int i) (check d))
  | _ => flaw .notList

end Checked

/-- An element of a key schema. -/
def KeyElement.ofEntries (entries : Entries MapKey Data) : Checked KeyElement :=
  (fun (name, role) => { name, role }) <$> Checked.both
    (Checked.field entries ["AttributeName", "attribute_name"] none Checked.text)
    (Checked.field entries ["KeyType", "key_type"] none (Checked.word KeyRole.ofWord?))

namespace KeyAttribute

/-- A key attribute. -/
def ofEntries (entries : Entries MapKey Data) : Checked KeyAttribute :=
  (fun (name, type) => { name, type }) <$> Checked.both
    (Checked.field entries ["name"] none Checked.text)
    (Checked.field entries ["type"] (some .s) (Checked.word AttributeType.ofLetter?))

/-- An attribute definition. -/
def ofDefinition (entries : Entries MapKey Data) : Checked KeyAttribute :=
  (fun (name, type) => { name, type }) <$> Checked.both
    (Checked.field entries ["AttributeName", "attribute_name"] none Checked.text)
    (Checked.field entries ["AttributeType", "attribute_type"] none
      (Checked.word AttributeType.ofLetter?))

/-- A key attribute under a name, if it is there and not null. -/
def under? (entries : Entries MapKey Data) (name : String) : Checked (Option KeyAttribute) :=
  match (entries.get? (.text name)).getD .null with
  | .null => .ok none
  | d => some <$> Checked.record ofEntries d

end KeyAttribute

/-- A key attribute, or null for none. -/
def KeyAttribute.orNull : Data → Checked (Option KeyAttribute) :=
  Checked.orNull (Checked.record KeyAttribute.ofEntries)

/-- A local index within a table. -/
def LocalIndex.inTable (entries : Entries MapKey Data) : Checked LocalIndex :=
  (fun (name, sort, projection) => { name, sort, projection }) <$> Checked.both
    (Checked.field entries ["index_name"] none Checked.text)
    (Checked.both (Checked.field entries ["sort_key"] (some none) KeyAttribute.orNull)
      (Checked.field entries ["projection_type"] (some "ALL") Checked.text))

/-- A global index within a table. -/
def GlobalIndex.inTable (entries : Entries MapKey Data) : Checked GlobalIndex :=
  (fun (name, partition, sort, projection) => {
    name, partition, sort, projection
    readCapacity := (entries.get? (.text "read_capacity")).getD .null
    writeCapacity := (entries.get? (.text "write_capacity")).getD .null }) <$>
    Checked.both (Checked.field entries ["index_name"] none Checked.text)
      (Checked.both
        (Checked.field entries ["partition_key"] none (Checked.record KeyAttribute.ofEntries))
        (Checked.both (Checked.field entries ["sort_key"] (some none) KeyAttribute.orNull)
          (Checked.field entries ["projection_type"] (some "ALL") Checked.text)))

/-- A local index. -/
def LocalIndex.ofEntries (entries : Entries MapKey Data) : Checked LocalIndex := do
  let sort ← KeyAttribute.under? entries "sort_key"
  (fun (name, projection) => { name, sort, projection }) <$> Checked.both
    (Checked.field entries ["index_name"] none Checked.text)
    (Checked.field entries ["projection_type"] (some "ALL") Checked.text)

/-- A global index. -/
def GlobalIndex.ofEntries (entries : Entries MapKey Data) : Checked GlobalIndex := do
  let sort ← KeyAttribute.under? entries "sort_key"
  let partition ← KeyAttribute.under? entries "partition_key"
  let partition : Checked KeyAttribute := match partition with
    | some a => .ok a
    | none => Checked.under (.text "partition_key")
      (Checked.flaw (if entries.has (.text "partition_key") then .notRecord else .missing))
  (fun (name, partition, projection) => {
    name, partition, sort, projection
    readCapacity := (entries.get? (.text "read_capacity")).getD .null
    writeCapacity := (entries.get? (.text "write_capacity")).getD .null }) <$>
    Checked.both (Checked.field entries ["index_name"] none Checked.text)
      (Checked.both partition
        (Checked.field entries ["projection_type"] (some "ALL") Checked.text))

/-- What a table is made from. -/
structure Table.Plan where
  logicalId : String
  partition : Option KeyAttribute := none
  sort : Option KeyAttribute := none
  attributes : List KeyAttribute := []
  localIndexes : List LocalIndex := []
  globalIndexes : List GlobalIndex := []
  payPerRequestCondition : String := "ShouldUsePayPerRequestBilling"

namespace Table.Plan

/-- A list of records in a field; without the field there are none. -/
def listField {α : Type} (entries : Entries MapKey Data) (name : String)
    (check : Entries MapKey Data → Checked α) : Checked (List α) :=
  Checked.field entries [name] (some []) (Checked.list (Checked.record check))

/-- What a table is made from, given as a map. -/
def ofEntries (entries : Entries MapKey Data) : Checked Table.Plan := do
  let partition ← KeyAttribute.under? entries "partition_key"
  let sort ← KeyAttribute.under? entries "sort_key"
  let logicalId := Checked.field entries ["logical_id"] none Checked.text
  let attributes := listField entries "attribute_definitions" KeyAttribute.ofDefinition
  let locals := listField entries "local_secondary_indexes" LocalIndex.inTable
  let globals := listField entries "global_secondary_indexes" GlobalIndex.inTable
  let condition := Checked.field entries ["pay_per_request_condition"]
    (some "ShouldUsePayPerRequestBilling") Checked.text
  (fun (logicalId, attributes, localIndexes, globalIndexes, payPerRequestCondition) => {
    logicalId, partition, sort, attributes, localIndexes, globalIndexes
    payPerRequestCondition }) <$>
    Checked.both logicalId
      (Checked.both attributes (Checked.both locals (Checked.both globals condition)))

/-- The new table. -/
def create (p : Table.Plan) : Except TableError Table :=
  Table.create {
    logicalId := p.logicalId
    partition := p.partition.getD Table.defaultPartition
    sort := p.sort
    attributes := p.attributes
    localIndexes := p.localIndexes
    globalIndexes := p.globalIndexes
    payPerRequestCondition := p.payPerRequestCondition }

end Table.Plan

end TableKeys
