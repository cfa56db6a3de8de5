/-
# Key attributes of tables

A table and each of its indexes are keyed on one or two attributes: a partition attribute
(`HASH`) and perhaps a sort attribute (`RANGE`). Key attributes have one of three types.
-/

namespace TableKeys

/-- The types of key attributes: text, number, binary. -/
inductive AttributeType where
  | s
  | n
  | b
deriving DecidableEq, Repr

namespace AttributeType

/-- The letter of a type. -/
def letter : AttributeType → String
  | s => "S"
  | n => "N"
  | b => "B"

/-- The type with a letter. -/
def ofLetter? : String → Option AttributeType
  | "S" => some s
  | "N" => some n
  | "B" => some b
  | _ => none

theorem ofLetter?_letter (t : AttributeType) : ofLetter? t.letter = some t := by
  cases t <;> rfl

end AttributeType

/-- The part of a key that an attribute plays. -/
inductive KeyRole where
  | hash
  | range
deriving DecidableEq, Repr

namespace KeyRole

/-- The word for a part of a key. -/
def word : KeyRole → String
  | hash => "HASH"
  | range => "RANGE"

/-- The part of a key with a word. -/
def ofWord? : String → Option KeyRole
  | "HASH" => some hash
  | "RANGE" => some range
  | _ => none

theorem ofWord?_word (role : KeyRole) : ofWord? role.word = some role := by
  cases role <;> rfl

end KeyRole

/-- An element of a key schema. -/
structure KeyElement where
  name : String
  role : KeyRole
deriving DecidableEq, Repr

/-- A key attribute with its type; as an attribute definition of a table it gives the type of
every key attribute of that name. -/
structure KeyAttribute where
  name : String
  type : AttributeType := .s
deriving DecidableEq, Repr

/-- The key schema of a partition attribute and perhaps a sort attribute. -/
def keySchemaOf (partition : String) (sort : Option String) : List KeyElement :=
  ⟨partition, .hash⟩ :: (sort.map fun name => ⟨name, .range⟩).toList

end TableKeys
