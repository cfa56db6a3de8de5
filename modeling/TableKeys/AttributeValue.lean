/-
# Attribute values

An attribute value is what the database stores: a value wrapped under a tag that says what
it is. Numbers are stored as decimal text. A binary number is first replaced by the decimal
number that its own text denotes (`Data.withDecimals`), wherever lists and maps lead to it;
in a pair it stays and cannot be stored. `Data.stored` does both, and `AttributeValue.data`
gives the wrapped form as data again.

* `Data.isWritable_of_stored`: a scalar that can be stored can be written.
-/
import TableKeys.Data.Shown

namespace TableKeys

open Number

/-- A stored value. -/
inductive AttributeValue where
  | null
  | bool (b : Bool)
  /-- A number by its decimal text. -/
  | number (digits : String)
  | text (s : String)
  | binary (b : List UInt8)
  | map (entries : List (MapKey × AttributeValue))
  | list (items : List AttributeValue)
deriving Repr

namespace AttributeValue

/-- The stored form of a decimal number. Infinity and not-a-number have none. -/
def ofDecimal (d : Decimal) : Except Fault AttributeValue :=
  match attributeLimits.fit d with
  | .error signal => .error (.number signal)
  | .ok (.infinite false) => .error .notFinite
  | .ok (.nan false false 0 _) => .error .notFinite
  | .ok d => .ok (.number d.text)

/-- The stored form of a scalar. A binary number has none. -/
def ofScalar : Scalar → Except Fault AttributeValue
  | .null => .ok .null
  | .bool b => .ok (.bool b)
  | .int n => ofDecimal (.ofInt n)
  | .float _ => .error .notDecimal
  | .decimal d => ofDecimal d
  | .text s => .ok (.text s)
  | .bytes b => .ok (.binary b)

mutual

/-- The stored value with its tags, as data. -/
def data : AttributeValue → Data
  | null => .object [("NULL", .bool true)]
  | bool b => .object [("BOOL", .bool b)]
  | number digits => .object [("N", .text digits)]
  | text s => .object [("S", .text s)]
  | binary b => .object [("B", .scalar (.bytes b))]
  | map entries => .object [("M", .map (dataEntries entries))]
  | list items => .object [("L", .list (dataItems items))]

/-- The tagged items of a list. -/
def dataItems : List AttributeValue → List Data
  | [] => []
  | a :: as => data a :: dataItems as

/-- The tagged entries of a map. -/
def dataEntries : List (MapKey × AttributeValue) → List (MapKey × Data)
  | [] => []
  | (k, a) :: as => (k, data a) :: dataEntries as

end

end AttributeValue

namespace Data

mutual

/-- The value with decimal numbers in the place of binary ones. -/
def withDecimals : Data → Data
  | scalar (.float x) => scalar (.decimal x.written)
  | list items => list (withDecimalsItems items)
  | map entries => map (withDecimalsEntries entries)
  | d => d

/-- The items of a list with decimal numbers. -/
def withDecimalsItems : List Data → List Data
  | [] => []
  | a :: as => withDecimals a :: withDecimalsItems as

/-- The entries of a map with decimal numbers as values. -/
def withDecimalsEntries : List (MapKey × Data) → List (MapKey × Data)
  | [] => []
  | (k, a) :: as => (k, withDecimals a) :: withDecimalsEntries as

end

mutual

/-- The value under its tag. A record has none. -/
def wrapped : Data → Except Fault AttributeValue
  | scalar a => AttributeValue.ofScalar a
  | list items => do
    let items ← wrappedItems items
    return .list items
  | map entries => do
    let entries ← wrappedEntries entries
    return .map entries
  | record kind fields => do
    let shown ← (record kind fields).written
    .error (.notStorable kind.typeName shown)
  | pair name a => do
    let a ← wrapped a
    return .list [.text name, a]

/-- The items of a list under their tags. -/
def wrappedItems : List Data → Except Fault (List AttributeValue)
  | [] => .ok []
  | a :: as => do
    let a ← wrapped a
    let as ← wrappedItems as
    return a :: as

/-- The values of a map under their tags. -/
def wrappedEntries : List (MapKey × Data) → Except Fault (List (MapKey × AttributeValue))
  | [] => .ok []
  | (k, a) :: as => do
    let a ← wrapped a
    let as ← wrappedEntries as
    return (k, a) :: as

end

/-- The stored form of a value. -/
def stored (d : Data) : Except Fault AttributeValue :=
  d.withDecimals.wrapped

/-- A scalar that has a stored form can be written. -/
theorem isWritable_of_stored {a : Scalar} {v : AttributeValue} (h : (scalar a).stored = .ok v) :
    a.isWritable = true := by
  cases a with
  | int n =>
    have hnumber : AttributeValue.ofDecimal (.ofInt n) = .ok v := h
    unfold AttributeValue.ofDecimal at hnumber
    cases hfit : attributeLimits.fit (.ofInt n) with
    | error signal =>
      rw [hfit] at hnumber
      cases hnumber
    | ok d => exact isWritable_of_fit hfit
  | _ => rfl

end Data

end TableKeys
