/-
# Mapping templates

A mapping template has a name, stages that are printed or run one after the other, and
perhaps a last line for its printed form. Running a template starts from the variables of
the context alone; templates that run after each other share the context and nothing else.
-/
import TableKeys.Template.Eval
import TableKeys.Template.Printer

namespace TableKeys.Template

/-- A mapping template. -/
structure MappingTemplate where
  name : String
  stages : List Node := []
  /-- The last line of the printed form. -/
  terminator : Option String := none
deriving Repr

namespace MappingTemplate

/-- The printed forms of several stages. -/
def printStages : List Node → Except PrintError (List String)
  | [] => .ok []
  | stage :: stages => do
    let first ← stage.print
    let rest ← printStages stages
    return first :: rest

/-- The printed form of a template. -/
def render (t : MappingTemplate) : Except PrintError String := do
  let stages ← printStages t.stages
  return "\n".intercalate (stages ++ t.terminator.toList)

/-- Runs a template; the value is its output. -/
def run (separator : String) (t : MappingTemplate) : Run Value := do
  modify Machine.restart
  Run.record (.evaluating t.name)
  Run.within (some t.name) (execAll separator (t.stages.map Node.asStmt))
  return (← get).output

/-- Runs several templates in order on one context. -/
def runAll (separator : String) : List MappingTemplate → Run Unit
  | [] => return ()
  | t :: ts => do
    let _ ← t.run separator
    runAll separator ts

end MappingTemplate

/-- Runs a statement on its own; the value is its output. -/
def Stmt.run (separator : String) (s : Stmt) : Run Value := do
  modify Machine.restart
  Run.within none (s.exec separator)
  return (← get).output

/-- What an evaluation leaves behind: the output or the failure, the request context and the
log. -/
structure Outcome where
  result : Except Failure Data
  context : Data
  log : List Event

/-- Evaluates on a new context made from a request. -/
def evaluate (request : Request) (run : Run Value) : Outcome :=
  match run (Machine.start request) with
  | .ok v m => ⟨.ok (m.store.read v), m.store.read m.context, m.log⟩
  | .error failure m => ⟨.error failure, m.store.read m.context, m.log⟩

end TableKeys.Template
