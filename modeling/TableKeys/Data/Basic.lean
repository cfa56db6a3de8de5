/-
# Data

Data are trees of scalars, lists, maps, records and pairs. A map keeps the order of its
keys. A record is one of the four kinds that make up a request context; its fields have a
name of their own and perhaps a second, outer name. Going through a record yields pairs of
a name and a value.

The equality of trees (`Data.equal`) compares scalars by value, lists in order, maps
without regard to order, and records field by field. It looks no further than the first
difference.
-/
import TableKeys.Data.MapKey

namespace TableKeys

/-- The kinds of records. -/
inductive RecordKind where
  /-- The context of a request. -/
  | request
  /-- What earlier templates leave for later ones. -/
  | stash
  /-- What the key templates leave for the operation. -/
  | metadata
  /-- The error of an operation. -/
  | error
deriving DecidableEq, Repr

/-- The fields of records. -/
inductive Field where
  | arguments
  | stash
  | result
  | error
  | metadata
  | defaultValues
  | modelObjectKey
  | nameOverrides
  | queryExpression
  | message
  | type
deriving DecidableEq, Repr

namespace Field

/-- The field's own name. -/
def name : Field → String
  | arguments => "arguments"
  | stash => "stash"
  | result => "result"
  | error => "error"
  | metadata => "metadata"
  | defaultValues => "default_values"
  | modelObjectKey => "model_object_key"
  | nameOverrides => "dynamodb_name_override_map"
  | queryExpression => "model_query_expression"
  | message => "message"
  | type => "type"

/-- The name under which the field is read and written from outside. -/
def outerName : Field → String
  | arguments => "args"
  | defaultValues => "defaultValues"
  | modelObjectKey => "modelObjectKey"
  | nameOverrides => "dynamodbNameOverrideMap"
  | queryExpression => "modelQueryExpression"
  | field => field.name

/-- The names of a field, the outer one first. -/
def names (field : Field) : List String :=
  [field.outerName, field.name]

/-- The field goes by this name. -/
def isNamed (field : Field) (name : String) : Bool :=
  field.names.contains name

end Field

namespace RecordKind

/-- The fields of a record, in order. -/
def fields : RecordKind → List Field
  | request => [.arguments, .stash, .result, .error]
  | stash => [.metadata, .defaultValues]
  | metadata => [.modelObjectKey, .nameOverrides, .queryExpression]
  | error => [.message, .type]

/-- The field of a record that goes by a name. -/
def field? (kind : RecordKind) (name : String) : Option Field :=
  kind.fields.find? (·.isNamed name)

/-- The name of a kind of record in messages. -/
def typeName : RecordKind → String
  | request => "RequestContext"
  | stash => "StashRecord"
  | metadata => "ResolverMetadata"
  | error => "ErrorInfo"

end RecordKind

/-- A tree of data. -/
inductive Data where
  | scalar (a : Scalar)
  | list (items : List Data)
  | map (entries : List (MapKey × Data))
  | record (kind : RecordKind) (fields : List (Field × Data))
  /-- The name of a field with its value. -/
  | pair (name : String) (value : Data)
deriving Repr

namespace Data

instance : Inhabited Data := ⟨.scalar .null⟩

/-- Null. -/
@[match_pattern] abbrev null : Data := .scalar .null

/-- A truth value. -/
@[match_pattern] abbrev bool (b : Bool) : Data := .scalar (.bool b)

/-- A whole number. -/
@[match_pattern] abbrev int (n : Int) : Data := .scalar (.int n)

/-- A text. -/
@[match_pattern] abbrev text (s : String) : Data := .scalar (.text s)

/-- The map with texts as keys. -/
def object (entries : List (String × Data)) : Data :=
  .map (entries.map fun (name, value) => (.text name, value))

/-- A text, or null. -/
def textOrNull (s : Option String) : Data :=
  (s.map Data.text).getD .null

/-- A key of a map as data. -/
def ofKey : MapKey → Data
  | .scalar a => scalar a
  | .pair name k => pair name (ofKey k)

/-- The name of the kind of a value in messages. -/
def typeName : Data → String
  | scalar a => a.typeName
  | list _ => "list"
  | map _ => "dict"
  | record kind _ => kind.typeName
  | pair .. => "tuple"

/-- The value stands for nothing: null, false, zero, or empty. -/
def isNothing : Data → Bool
  | scalar a => a.isNothing
  | list items => items.isEmpty
  | map entries => entries.isEmpty
  | record .. | pair .. => false

/-- The members that a loop goes through: characters, bytes, items, keys, the fields of a record
with their names, or the two parts of a pair. Null, truth values and numbers have none. -/
def members? : Data → Option (List Data)
  | scalar a => a.members?.map fun items => items.map scalar
  | list items => some items
  | map entries => some (entries.map fun (k, _) => ofKey k)
  | record _ fields => some (fields.map fun (field, value) => pair field.name value)
  | pair name value => some [text name, value]

/-- The members, or the fault that there are none to go through. -/
def members (d : Data) : Except Fault (List Data) :=
  match d.members? with
  | some items => .ok items
  | none => .error (.notIterable d.typeName)

mutual

/-- Sameness as members of a collection: a not-a-number is the same as itself. -/
def same : Data → Data → Except Fault Bool
  | scalar a, scalar b => if a = b then .ok true else a.compared b
  | list as, list bs => if as.length = bs.length then sameItems as bs else .ok false
  | map as, map bs => if as.length = bs.length then sameEntries as bs else .ok false
  | record j as, record k bs => if j = k then sameFields as bs else .ok false
  | pair name a, pair name' b => if name = name' then same a b else .ok false
  | _, _ => .ok false

/-- Sameness of lists, in order. -/
def sameItems : List Data → List Data → Except Fault Bool
  | [], [] => .ok true
  | a :: as, b :: bs => do
    let first ← same a b
    if first then sameItems as bs else return false
  | _, _ => .ok false

/-- Every entry of the first map is in the second. -/
def sameEntries : List (MapKey × Data) → Entries MapKey Data → Except Fault Bool
  | [], _ => .ok true
  | (k, a) :: as, bs =>
    match bs.get? k with
    | some b => do
      let first ← same a b
      if first then sameEntries as bs else return false
    | none => .ok false

/-- Sameness of the fields of two records of one kind. -/
def sameFields : List (Field × Data) → Entries Field Data → Except Fault Bool
  | [], _ => .ok true
  | (f, a) :: as, bs =>
    match bs.get? f with
    | some b => do
      let first ← same a b
      if first then sameFields as bs else return false
    | none => .ok false

end

/-- Equality of values. -/
def equal : Data → Data → Except Fault Bool
  | scalar a, scalar b => a.compared b
  | a, b => same a b

/-- The value as a key of a map: a scalar, or a pair with such a value. -/
def asKey : Data → Except Fault MapKey
  | scalar a => if a.isSignaling then .error .unhashableSignal else .ok (.scalar a)
  | pair name value => do
    let k ← asKey value
    return .pair name k
  | d => .error (.unhashable d.typeName)

end Data

end TableKeys
