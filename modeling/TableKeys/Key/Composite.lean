/-
# Composite keys

A table has one sort attribute. Two or more sort fields are condensed into one synthetic
attribute: its name joins the names of the fields, its value joins their values, each with
a separator. This module gives the names and the values; the value can be written down as a
template for values that come later (`compositeTemplate`) or computed from values that are
there (`encodeComposite`).
-/
import TableKeys.Key.Decl
import TableKeys.Key.Options

namespace TableKeys

open Text

/-- The name of the synthetic attribute. -/
def compositeName (o : Options) (fields : List String) : String :=
  o.nameSeparator.intercalate fields

/-- A character that may stand in the names of a schema. -/
def isSchemaChar (c : Char) : Bool :=
  c.isAlphanum || c == '_'

/-- The name without characters that names of a schema do not have. -/
def schemaName (name : String) : String :=
  String.ofList (name.toList.filter isSchemaChar)

/-- The name of a composite key in the schema: the names of the fields run together, each after
the first with a capital. -/
def compositeArgument (fields : List String) : String :=
  match (fields.map schemaName).filter (· != "") with
  | [] => ""
  | head :: rest => uncapitalize head ++ String.join (rest.map capitalize)

/-- The text `${path}`, which refers to a path. -/
def braced (path : String) : String :=
  "$\x7b" ++ path ++ "\x7d"

/-- A text that stands for the value of a composite key, to be completed with the values found
under a path. -/
def compositeTemplate (o : Options) (path : String) (fields : List String) : String :=
  o.keySeparator.intercalate (fields.map fun field => braced (path ++ "." ++ field))

/-- Why components have no value as a composite key. -/
inductive CompositeError where
  | missingComponent
  /-- A component cannot be written. -/
  | unwritten (cause : Fault)
deriving DecidableEq, Repr

/-- The error in words. -/
def CompositeError.text : CompositeError → String
  | missingComponent => "Composite key components must not be None"
  | unwritten cause => cause.text

/-- A component as text: truth values in small letters. -/
def componentText : Data → Except CompositeError String
  | .null => .error .missingComponent
  | .bool b => .ok (if b then "true" else "false")
  | d => d.written.mapError .unwritten

/-- The components as texts, in order. -/
def componentTexts : List Data → Except CompositeError (List String)
  | [] => .ok []
  | d :: ds => do
    let s ← componentText d
    let ss ← componentTexts ds
    return s :: ss

/-- The value of a composite key with these components. -/
def encodeComposite (o : Options) (components : List Data) : Except CompositeError String := do
  let texts ← componentTexts components
  return o.keySeparator.intercalate texts

namespace KeyDecl

/-- The name of the sort attribute: the field itself if there is one, the synthetic name if
there are more. -/
def sortName? (k : KeyDecl) (o : Options) : Option String :=
  match k.sortFields with
  | [] => none
  | [field] => some field
  | fields => some (compositeName o fields)

/-- The name of the query argument for the sort attribute. -/
def sortArgument? (k : KeyDecl) : Option String :=
  match k.sortFields with
  | [] => none
  | [field] => some field
  | fields => some (compositeArgument fields)

/-- The key schema of the declaration. -/
def schema (k : KeyDecl) (o : Options) : List KeyElement :=
  keySchemaOf k.partition.name (k.sortName? o)

/-- The attribute types of several fields. -/
def attributeTypes (schema : Schema) :
    List FieldDef → Except InvalidKeyField (List AttributeType)
  | [] => .ok []
  | f :: fs => do
    let type ← schema.attributeType f
    let types ← attributeTypes schema fs
    return type :: types

/-- The key attributes of the declaration with their types. A synthetic attribute is a text,
but each of its fields must be able to be part of a key. -/
def attributes (k : KeyDecl) (schema : Schema) (o : Options) :
    Except InvalidKeyField (List KeyAttribute) := do
  let partition ← schema.attributeType k.partition
  let first : KeyAttribute := ⟨k.partition.name, partition⟩
  match k.sort with
  | [] => return [first]
  | [field] =>
    let type ← schema.attributeType field
    return [first, ⟨field.name, type⟩]
  | fields =>
    let _ ← attributeTypes schema fields
    return [first, ⟨compositeName o k.sortFields, .s⟩]

end KeyDecl

end TableKeys
