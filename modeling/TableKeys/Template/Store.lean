/-
# Maps and records that are shared

Running templates change maps and records in place, and the same map may be known under
several names: a change through one of them shows through the others. Maps and records
therefore live in numbered cells, and a value refers to a cell by its address. Scalars,
lists and pairs never change and stand for themselves.

`Store.load` puts a tree of data into cells of its own, `Store.read` reads a value back as
a tree.

* `get?_alloc`, `get?_set`: reading a cell after a cell was added or changed.
-/
import TableKeys.Data.Basic

namespace TableKeys.Template

/-- The number of a cell. -/
abbrev Address := Nat

/-- A value of a running template. -/
inductive Value where
  | scalar (a : Scalar)
  | list (items : List Value)
  /-- The map or record in a cell. -/
  | ref (address : Address)
  /-- The name of a field with its value. -/
  | pair (name : String) (value : Value)
deriving Repr

namespace Value

instance : Inhabited Value := ⟨.scalar .null⟩

/-- Null. -/
@[match_pattern] abbrev null : Value := .scalar .null

/-- A truth value. -/
@[match_pattern] abbrev bool (b : Bool) : Value := .scalar (.bool b)

/-- A text. -/
@[match_pattern] abbrev text (s : String) : Value := .scalar (.text s)

/-- A key of a map as a value. -/
def ofKey : MapKey → Value
  | .scalar a => scalar a
  | .pair name k => pair name (ofKey k)

/-- The value is null. -/
def isNull : Value → Bool
  | null => true
  | _ => false

/-- The value holds as a condition: it is neither null nor false. -/
def holds : Value → Bool
  | null | bool false => false
  | _ => true

/-- The item of a list at a position; null if there is none. -/
def item (v : Value) (i : Nat) : Value :=
  match v with
  | list items => items.getD i null
  | _ => null

mutual

/-- The value as data, given what the cells hold. -/
def fill (cell : Address → Data) : Value → Data
  | scalar a => .scalar a
  | list items => .list (fillAll cell items)
  | ref address => cell address
  | pair name v => .pair name (fill cell v)

/-- Several values as data. -/
def fillAll (cell : Address → Data) : List Value → List Data
  | [] => []
  | v :: vs => fill cell v :: fillAll cell vs

end

end Value

/-- What a cell holds. -/
inductive Cell where
  | map (entries : Entries MapKey Value)
  | record (kind : RecordKind) (fields : Entries Field Value)
deriving Repr

/-- The cells, by address. -/
structure Store where
  cells : Array Cell := #[]

namespace Store

/-- What the cell at an address holds. -/
def get? (s : Store) (address : Address) : Option Cell :=
  s.cells[address]?

/-- Adds a cell; the value refers to it. -/
def alloc (s : Store) (c : Cell) : Value × Store :=
  (.ref s.cells.size, ⟨s.cells.push c⟩)

/-- Changes the cell at an address. -/
def set (s : Store) (address : Address) (c : Cell) : Store :=
  ⟨s.cells.setIfInBounds address c⟩

theorem get?_alloc (s : Store) (c : Cell) (a : Address) :
    (s.alloc c).2.get? a = if a = s.cells.size then some c else s.get? a := by
  simp only [alloc, get?, Array.getElem?_push]

theorem get?_set (s : Store) (a b : Address) (c : Cell) :
    (s.set a c).get? b =
      if a = b then (if a < s.cells.size then some c else none) else s.get? b := by
  simp only [set, get?, Array.getElem?_setIfInBounds]

/-- The entries of the map that a value refers to. -/
def entries? (s : Store) : Value → Option (Entries MapKey Value)
  | .ref address =>
    match s.get? address with
    | some (.map entries) => some entries
    | _ => none
  | _ => none

/-- The kind and the fields of the record that a value refers to. -/
def record? (s : Store) : Value → Option (RecordKind × Entries Field Value)
  | .ref address =>
    match s.get? address with
    | some (.record kind fields) => some (kind, fields)
    | _ => none
  | _ => none

/-- The name of the kind of a value in messages. -/
def typeName (s : Store) : Value → String
  | .scalar a => a.typeName
  | .list _ => "list"
  | .pair .. => "tuple"
  | v =>
    match s.record? v with
    | some (kind, _) => kind.typeName
    | none => "dict"

/-- What stands in a value under a name: the entry of a map or the field of a record; null if
there is nothing. -/
def member (s : Store) (v : Value) (name : String) : Value :=
  match s.entries? v with
  | some entries => (entries.get? (.text name)).getD .null
  | none =>
    match s.record? v with
    | some (kind, fields) => ((kind.field? name).bind fields.get?).getD .null
    | none => .null

/-- The members that a loop goes through. -/
def members? (s : Store) : Value → Option (List Value)
  | .scalar a => a.members?.map fun items => items.map .scalar
  | .list items => some items
  | .pair name v => some [.text name, v]
  | v =>
    match s.entries? v with
    | some entries => some (entries.keys.map .ofKey)
    | none => (s.record? v).map fun (_, fields) =>
      fields.map fun (field, value) => .pair field.name value

/-- What a cell holds as data, following references at most so many steps deep. -/
def readCell (s : Store) : Nat → Address → Data
  | 0, _ => .null
  | depth + 1, address =>
    match s.get? address with
    | some (.map entries) => .map (entries.mapValues (·.fill (s.readCell depth)))
    | some (.record kind fields) => .record kind (fields.mapValues (·.fill (s.readCell depth)))
    | none => .null

/-- The value as data. A chain of references without repetition has at most one step for each
cell, so only what contains itself is cut off. -/
def read (s : Store) (v : Value) : Data :=
  v.fill (s.readCell s.cells.size)

mutual

/-- Puts data into new cells. -/
def load (s : Store) : Data → Value × Store
  | .scalar a => (.scalar a, s)
  | .list items =>
    let (items, s) := loadItems s items
    (.list items, s)
  | .map entries =>
    let (entries, s) := loadEntries s entries
    s.alloc (.map entries)
  | .record kind fields =>
    let (fields, s) := loadFields s fields
    s.alloc (.record kind fields)
  | .pair name d =>
    let (v, s) := load s d
    (.pair name v, s)

/-- Puts the items of a list into new cells. -/
def loadItems (s : Store) : List Data → List Value × Store
  | [] => ([], s)
  | d :: ds =>
    let (v, s) := load s d
    let (vs, s) := loadItems s ds
    (v :: vs, s)

/-- Puts the values of a map into new cells. -/
def loadEntries (s : Store) : List (MapKey × Data) → Entries MapKey Value × Store
  | [] => ([], s)
  | (k, d) :: ds =>
    let (v, s) := load s d
    let (vs, s) := loadEntries s ds
    ((k, v) :: vs, s)

/-- Puts the values of a record into new cells. -/
def loadFields (s : Store) : List (Field × Data) → Entries Field Value × Store
  | [] => ([], s)
  | (f, d) :: ds =>
    let (v, s) := load s d
    let (vs, s) := loadFields s ds
    ((f, v) :: vs, s)

end

end Store

end TableKeys.Template
