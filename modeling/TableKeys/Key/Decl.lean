/-
# Key declarations

A key declaration on an object type has a partition field and sort fields in a fixed order;
no field occurs twice. An index is declared in the same way and has a name; it may have a
query field and may name the partition field of the table.
-/
import TableKeys.Data.Shown
import TableKeys.Schema

namespace TableKeys

/-- The names of fields. -/
abbrev FieldDef.names (fields : List FieldDef) : List String :=
  fields.map FieldDef.name

/-- A declaration of a primary key. -/
structure KeyDecl where
  object : ObjectType
  partition : FieldDef
  sort : List FieldDef
  sort_nodup : (FieldDef.names sort).Nodup
  partition_notMem_sort : partition.name ∉ FieldDef.names sort

/-- A declaration of an index. -/
structure IndexDecl extends KeyDecl where
  name : String
  name_ne : name ≠ ""
  /-- The root field that queries the index. -/
  queryField : Option String
  /-- The partition field of the table, where it is known. -/
  primaryPartition : Option FieldDef

/-- Why a declaration is refused. -/
inductive DeclError where
  | repeatedSortField (object : String) (names : List String)
  | partitionInSort (field object : String)
  | unnamedIndex (object field : String)
deriving DecidableEq, Repr

/-- The error in words. -/
def DeclError.text : DeclError → String
  | repeatedSortField object names =>
    "Sort key fields of '" ++ object ++ "' must be unique, got " ++
      (Data.list (names.map .text)).shown
  | partitionInSort field object =>
    "Field '" ++ field ++ "' of '" ++ object ++ "' cannot be both partition key and sort key"
  | unnamedIndex object field =>
    "Index on '" ++ object ++ "." ++ field ++ "' must have a name"

namespace KeyDecl

/-- A declaration of a primary key, if its fields are distinct. -/
def make (object : ObjectType) (partition : FieldDef) (sort : List FieldDef) :
    Except DeclError KeyDecl :=
  if hn : (FieldDef.names sort).Nodup then
    if hm : partition.name ∈ FieldDef.names sort then
      .error (.partitionInSort partition.name object.name)
    else .ok ⟨object, partition, sort, hn, hm⟩
  else .error (.repeatedSortField object.name (FieldDef.names sort))

/-- The names of the sort fields, in order. -/
def sortFields (k : KeyDecl) : List String :=
  FieldDef.names k.sort

/-- All fields of the key, the partition field first. -/
def fields (k : KeyDecl) : List FieldDef :=
  k.partition :: k.sort

/-- The key has two or more sort fields. -/
def isComposite (k : KeyDecl) : Bool :=
  1 < k.sort.length

end KeyDecl

/-- A declaration of an index, if its fields are distinct and it has a name. -/
def IndexDecl.make (object : ObjectType) (partition : FieldDef) (sort : List FieldDef)
    (name : String) (queryField : Option String) (primaryPartition : Option FieldDef) :
    Except DeclError IndexDecl := do
  let key ← KeyDecl.make object partition sort
  if h : name = "" then .error (.unnamedIndex object.name partition.name)
  else .ok { key with name, name_ne := h, queryField, primaryPartition }

end TableKeys
