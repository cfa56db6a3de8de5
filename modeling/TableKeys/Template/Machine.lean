/-
# The state of a running template

A running template has the cells of its maps and records, its variables, the last value it
put out, and the log. The request context is a record in a cell, known to every template
under the names `ctx` and `context`. A step of a run changes this state and yields a value
or a failure; what was done before a failure stays done.
-/
import TableKeys.Failure
import TableKeys.Log
import TableKeys.Request
import TableKeys.Template.Path

namespace TableKeys.Template

/-- The state of a running template. -/
structure Machine where
  store : Store
  /-- The request context. -/
  context : Value
  bindings : Entries String Value
  /-- The value put out last. -/
  output : Value := .null
  /-- What happened, the latest event last. -/
  log : List Event := []

namespace Machine

/-- The variables with which a template starts. -/
def initialBindings (context : Value) : Entries String Value :=
  [("ctx", context), ("context", context)]

/-- The state before the first template runs. -/
def start (request : Request) : Machine :=
  let (context, store) := ({} : Store).load request.data
  { store, context, bindings := initialBindings context }

/-- The state before the next template runs on the same context. -/
def restart (m : Machine) : Machine :=
  { m with bindings := initialBindings m.context, output := .null }

end Machine

/-- A step of a run. -/
abbrev Run (α : Type) := EStateM Failure Machine α

namespace Run

/-- Stops with a fault. -/
def fault {α : Type} (f : Fault) : Run α :=
  throw (.fault f)

/-- Stops with a misuse. -/
def misuse {α : Type} (m : Misuse) : Run α :=
  throw (.misuse m)

/-- The value of a computation that may fail with a fault. -/
def ofExcept {α : Type} : Except Fault α → Run α
  | .ok a => pure a
  | .error f => fault f

/-- What a path refers to. -/
def resolve (path : String) : Run Value := do
  let m ← get
  ofExcept (Template.resolve m.store m.bindings path)

/-- A value as data. -/
def read (v : Value) : Run Data := do
  let m ← get
  return m.store.read v

/-- Puts data into new cells. -/
def load (d : Data) : Run Value := do
  let m ← get
  let (v, store) := m.store.load d
  set { m with store }
  return v

/-- A new map. -/
def newMap (entries : Entries MapKey Value) : Run Value := do
  let m ← get
  let (v, store) := m.store.alloc (.map entries)
  set { m with store }
  return v

/-- Changes the cell at an address. -/
def setCell (address : Address) (c : Cell) : Run Unit :=
  modify fun m => { m with store := m.store.set address c }

/-- Puts a value under a key of the map in a cell; nothing happens if the cell holds no map. -/
def putEntry (address : Address) (key : MapKey) (v : Value) : Run Unit := do
  let m ← get
  match m.store.get? address with
  | some (.map entries) => setCell address (.map (entries.put key v))
  | _ => pure ()

/-- Gives a field of the record in a cell a value; nothing happens if the cell holds none. -/
def putField (address : Address) (field : Field) (v : Value) : Run Unit := do
  let m ← get
  match m.store.get? address with
  | some (.record kind fields) => setCell address (.record kind (fields.put field v))
  | _ => pure ()

/-- Gives a variable a value. -/
def setVariable (name : String) (v : Value) : Run Unit :=
  modify fun m => { m with bindings := m.bindings.put name v }

/-- Makes a value the output. -/
def setOutput (v : Value) : Run Unit :=
  modify fun m => { m with output := v }

/-- Records an event. -/
def record (e : Event) : Run Unit :=
  modify fun m => { m with log := m.log ++ [e] }

/-- A value as the key of a map. -/
def asKey (v : Value) : Run MapKey := do
  let d ← read v
  ofExcept d.asKey

/-- A run in which faults are reported as failures of the evaluation of a template. -/
def within {α : Type} (template : Option String) (x : Run α) : Run α := fun m =>
  match x m with
  | .ok a m => .ok a m
  | .error failure m => .error (failure.within template) m

end Run

end TableKeys.Template
