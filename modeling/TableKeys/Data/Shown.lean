/-
# Data as text

Two forms: the form of messages, in which texts stand in single quotes and null is `None`
(`Data.shown`), and JSON (`Data.json`), in which a decimal number is a text and a key must
be a text, a whole or binary number, a truth value or null. Both are a fault where a whole number
has too many digits to be written; `Data.shown` and `Data.plain` are the texts without that limit.
-/
import TableKeys.Data.Basic

namespace TableKeys

open Text

namespace Data

mutual

/-- The value as it is shown inside a message, in full. -/
def shown : Data → String
  | scalar a => a.shown
  | list items => "[" ++ ", ".intercalate (shownItems items) ++ "]"
  | map entries => "\x7b" ++ ", ".intercalate (shownEntries entries) ++ "\x7d"
  | record kind fields => kind.typeName ++ "(" ++ ", ".intercalate (shownFields fields) ++ ")"
  | pair name a => "(" ++ quoted name ++ ", " ++ shown a ++ ")"

/-- The items of a list, shown. -/
def shownItems : List Data → List String
  | [] => []
  | a :: as => shown a :: shownItems as

/-- The entries of a map, shown. -/
def shownEntries : List (MapKey × Data) → List String
  | [] => []
  | (k, a) :: as => (k.shown ++ ": " ++ shown a) :: shownEntries as

/-- The fields of a record, shown. -/
def shownFields : List (Field × Data) → List String
  | [] => []
  | (f, a) :: as => (f.name ++ "=" ++ shown a) :: shownFields as

end

/-- The value written out in full: a text is itself, all else is shown. -/
def plain : Data → String
  | scalar a => a.plain
  | record _ fields => " ".intercalate (shownFields fields)
  | d => d.shown

mutual

/-- The value can be written: there is no whole number with too many digits in it. -/
def isWritable : Data → Bool
  | scalar a => a.isWritable
  | list items => areWritable items
  | map entries => entriesWritable entries
  | record _ fields => fieldsWritable fields
  | pair _ a => isWritable a

/-- The items of a list can be written. -/
def areWritable : List Data → Bool
  | [] => true
  | a :: as => isWritable a && areWritable as

/-- The entries of a map can be written. -/
def entriesWritable : List (MapKey × Data) → Bool
  | [] => true
  | (k, a) :: as => k.isWritable && isWritable a && entriesWritable as

/-- The fields of a record can be written. -/
def fieldsWritable : List (Field × Data) → Bool
  | [] => true
  | (_, a) :: as => isWritable a && fieldsWritable as

end

/-- The value as a text of its own, if it can be written. -/
def written (d : Data) : Except Fault String :=
  if d.isWritable then .ok d.plain else .error .tooLong

theorem written_of_isWritable {d : Data} (h : d.isWritable = true) : d.written = .ok d.plain :=
  if_pos h

/-- A binary number in JSON. -/
def jsonFloat : Number.Binary64 → String
  | .infinite negative => if negative then "-Infinity" else "Infinity"
  | .nan _ => "NaN"
  | x => x.text

/-- A scalar in JSON; what JSON does not have is written as a text. -/
def jsonScalar : Scalar → Except Fault String
  | .null => .ok "null"
  | .bool b => .ok (if b then "true" else "false")
  | .int n => (Scalar.int n).written
  | .float x => .ok (jsonFloat x)
  | .text s => .ok (jsonQuoted s)
  | a => .ok (jsonQuoted a.plain)

theorem jsonScalar_ok {a : Scalar} (h : a.isWritable = true) : ∃ t, jsonScalar a = .ok t := by
  cases a with
  | int n => exact ⟨_, Scalar.written_of_isWritable h⟩
  | _ => exact ⟨_, rfl⟩

/-- The key of a JSON object. -/
def jsonKey : MapKey → Except Fault String
  | .text s => .ok (jsonQuoted s)
  | .scalar .null => .ok (jsonQuoted "null")
  | .scalar (.bool b) => .ok (jsonQuoted (if b then "true" else "false"))
  | .int n => jsonQuoted <$> (Scalar.int n).written
  | .scalar (.float x) => .ok (jsonQuoted (jsonFloat x))
  | k => .error (.notJsonKey k.typeName)

mutual

/-- The value in JSON. -/
def json : Data → Except Fault String
  | scalar a => jsonScalar a
  | list items => do
    let items ← jsonItems items
    return "[" ++ ", ".intercalate items ++ "]"
  | map entries => do
    let entries ← jsonEntries entries
    return "\x7b" ++ ", ".intercalate entries ++ "\x7d"
  | record kind fields => jsonQuoted <$> (record kind fields).written
  | pair name a => do
    let a ← json a
    return "[" ++ jsonQuoted name ++ ", " ++ a ++ "]"

/-- The items of a list in JSON. -/
def jsonItems : List Data → Except Fault (List String)
  | [] => .ok []
  | a :: as => do
    let a ← json a
    let as ← jsonItems as
    return a :: as

/-- The entries of a map in JSON. -/
def jsonEntries : List (MapKey × Data) → Except Fault (List String)
  | [] => .ok []
  | (k, a) :: as => do
    let k ← jsonKey k
    let a ← json a
    let as ← jsonEntries as
    return (k ++ ": " ++ a) :: as

end

/-- The value as it enters an interpolated text: truth values in small letters, lists and maps
in JSON, all else as a text of its own. -/
def interpolated : Data → Except Fault String
  | scalar (.bool b) => .ok (if b then "true" else "false")
  | list items => json (list items)
  | map entries => json (map entries)
  | d => d.written

end Data

end TableKeys
