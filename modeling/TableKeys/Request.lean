/-
# Requests

A request brings its arguments, what earlier templates stashed, and the result or the error
of an operation. `Request.ofData` checks a map of data against this shape and lists every
place where it does not fit; `Request.data` is the request as a record.
-/
import TableKeys.Data.Basic

namespace TableKeys

/-- What is wrong at a place of a checked value. -/
inductive Flaw where
  | notMap
  | notList
  | notText
  /-- Bytes that are not the encoding of a text. -/
  | notUnicode
  | notRecord
  | missing
  /-- Not one of the allowed words. -/
  | notAllowed
deriving DecidableEq, Repr

/-- A flaw and the way to it: names of fields and keys. -/
structure Violation where
  path : List MapKey
  flaw : Flaw
deriving Repr

/-- The result of a check: a value, or everything that is wrong. -/
abbrev Checked (α : Type) := Except (List Violation) α

namespace Checked

/-- A single flaw. -/
def flaw {α : Type} (f : Flaw) : Checked α :=
  .error [⟨[], f⟩]

/-- Says where a checked value stands. -/
def under {α : Type} (step : MapKey) : Checked α → Checked α
  | .ok a => .ok a
  | .error violations => .error (violations.map fun v => { v with path := step :: v.path })

/-- Both results, or everything that is wrong in either. -/
def both {α β : Type} : Checked α → Checked β → Checked (α × β)
  | .ok a, .ok b => .ok (a, b)
  | .error v, .ok _ => .error v
  | .ok _, .error w => .error w
  | .error v, .error w => .error (v ++ w)

/-- All results, or everything that is wrong in any. -/
def all {α : Type} : List (Checked α) → Checked (List α)
  | [] => .ok []
  | c :: cs => (fun (a, as) => a :: as) <$> both c (all cs)

/-- A text. Bytes count as the text that they encode. -/
def text : Data → Checked String
  | .text s => .ok s
  | .scalar (.bytes b) =>
    match String.fromUTF8? ⟨b.toArray⟩ with
    | some s => .ok s
    | none => flaw .notUnicode
  | _ => flaw .notText

/-- A text, or null for none. -/
def textOrNull : Data → Checked (Option String)
  | .null => .ok none
  | d => some <$> text d

/-- One entry of a map from texts. -/
def entry {α : Type} (value : Data → Checked α) (k : MapKey) (d : Data) :
    Checked (String × α) :=
  both ((under (.text "[key]") (text (.ofKey k))).under k) (under k (value d))

/-- A map from texts. -/
def mapOf {α : Type} (value : Data → Checked α) : Data → Checked (Entries String α)
  | .map entries => Entries.ofList <$> all (entries.map fun (k, d) => entry value k d)
  | _ => flaw .notMap

/-- Null for none, or else a value. -/
def orNull {α : Type} (check : Data → Checked α) : Data → Checked (Option α)
  | .null => .ok none
  | d => some <$> check d

/-- A field of a map that may stand under several names, the first one present counting; an
absent field has a default, and without one it is missing. -/
def field {α : Type} (entries : Entries MapKey Data) (names : List String) (default : Option α)
    (check : Data → Checked α) : Checked α :=
  match names.find? fun name => entries.has (.text name) with
  | some name => under (.text name) (check ((entries.get? (.text name)).getD .null))
  | none =>
    match default with
    | some a => .ok a
    | none => under (.text (names.headD "")) (flaw .missing)

/-- A record with a shape of its own. -/
def record {α : Type} (check : Entries MapKey Data → Checked α) : Data → Checked α
  | .map entries => check entries
  | _ => flaw .notRecord

end Checked

/-- What the key templates leave for the operation. -/
structure Metadata where
  modelObjectKey : Option (Entries String Data) := none
  nameOverrides : Option (Entries String String) := none
  queryExpression : Option (Entries String Data) := none

/-- The error of an operation. -/
structure ErrorInfo where
  message : String
  type : Option String := none

/-- The context of a request. -/
structure Request where
  arguments : Entries String Data := []
  metadata : Metadata := {}
  defaultValues : Option (Entries String Data) := none
  result : Data := .null
  error : Option ErrorInfo := none

/-- A map, or null. -/
def Data.objectOrNull (m : Option (Entries String Data)) : Data :=
  (m.map Data.object).getD .null

namespace Metadata

/-- The metadata as a record. -/
def data (m : Metadata) : Data :=
  .record .metadata [
    (.modelObjectKey, .objectOrNull m.modelObjectKey),
    (.nameOverrides, .objectOrNull (m.nameOverrides.map fun names => names.mapValues .text)),
    (.queryExpression, .objectOrNull m.queryExpression)]

/-- Checks the shape of metadata. -/
def ofEntries (entries : Entries MapKey Data) : Checked Metadata :=
  let anyMap := Checked.orNull (Checked.mapOf .ok)
  let key := Checked.field entries (Field.names .modelObjectKey) (some none) anyMap
  let overrides := Checked.field entries (Field.names .nameOverrides) (some none)
    (Checked.orNull (Checked.mapOf Checked.text))
  let query := Checked.field entries (Field.names .queryExpression) (some none) anyMap
  (fun (key, overrides, query) =>
    { modelObjectKey := key, nameOverrides := overrides, queryExpression := query }) <$>
    Checked.both key (Checked.both overrides query)

end Metadata

namespace ErrorInfo

/-- The error as a record. -/
def data (e : ErrorInfo) : Data :=
  .record .error [(.message, .text e.message), (.type, .textOrNull e.type)]

/-- Checks the shape of an error. -/
def ofEntries (entries : Entries MapKey Data) : Checked ErrorInfo :=
  let message := Checked.field entries (Field.names .message) none Checked.text
  let type := Checked.field entries (Field.names .type) (some none) Checked.textOrNull
  (fun (message, type) => { message, type }) <$> Checked.both message type

end ErrorInfo

namespace Request

/-- The request as a record. -/
def data (r : Request) : Data :=
  .record .request [
    (.arguments, .object r.arguments),
    (.stash, .record .stash [
      (.metadata, r.metadata.data),
      (.defaultValues, .objectOrNull r.defaultValues)]),
    (.result, r.result),
    (.error, (r.error.map ErrorInfo.data).getD .null)]

/-- Checks the shape of a stash. -/
def stashOfEntries (entries : Entries MapKey Data) :
    Checked (Metadata × Option (Entries String Data)) :=
  Checked.both
    (Checked.field entries (Field.names .metadata) (some {}) (Checked.record Metadata.ofEntries))
    (Checked.field entries (Field.names .defaultValues) (some none)
      (Checked.orNull (Checked.mapOf .ok)))

/-- Checks the shape of a request. -/
def ofEntries (entries : Entries MapKey Data) : Checked Request :=
  let arguments := Checked.field entries (Field.names .arguments) (some []) (Checked.mapOf .ok)
  let stash := Checked.field entries (Field.names .stash) (some ({}, none))
    (Checked.record stashOfEntries)
  let result := Checked.field entries (Field.names .result) (some .null) .ok
  let error := Checked.field entries (Field.names .error) (some none)
    (Checked.orNull (Checked.record ErrorInfo.ofEntries))
  (fun (arguments, (metadata, defaultValues), result, error) =>
    { arguments, metadata, defaultValues, result, error }) <$>
    Checked.both arguments (Checked.both stash (Checked.both result error))

end Request

end TableKeys
