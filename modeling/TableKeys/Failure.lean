/-
# How an evaluation fails

A template may raise an error of its own, which the caller of the request sees; it may use
a construct or a name that does not exist; or a value may not fit its place. Faults of the
first three families are reported as failures of the evaluation, under the name of the
template if it has one (`Failure.within`); the others keep their own name.
-/
import TableKeys.Data.Basic

namespace TableKeys

/-- A construct or a name that an evaluation cannot use. -/
inductive Misuse where
  /-- The metadata have no field of this name. -/
  | unknownMetadata (name : String)
  /-- A node of this class is no statement. -/
  | notExecutable (node : String)
  /-- A node of this class is no expression. -/
  | notEvaluable (node : String)
  /-- A path ends in a field that its record does not have. -/
  | unknownField (path : String)
  /-- An assignment goes into something that is no map. -/
  | parentNotMap (path parent : String)
  /-- A put goes into something that is no map. -/
  | targetNotMap (path : String)
  /-- A filter uses an operator that does not exist. -/
  | unsupportedOperator (operator field : String)
  /-- Any other misuse, in its own words. -/
  | other (text : String)
deriving DecidableEq, Repr

/-- A misuse in words. -/
def Misuse.text : Misuse → String
  | unknownMetadata name => "Unknown resolver metadata '" ++ name ++ "'"
  | notExecutable node => "Cannot execute node of type " ++ node
  | notEvaluable node => "Cannot evaluate node of type " ++ node
  | unknownField path => "Cannot assign unknown field '" ++ path ++ "'"
  | parentNotMap path parent =>
    "Cannot assign '" ++ path ++ "': '" ++ parent ++ "' is not a map"
  | targetNotMap path => "'$" ++ path ++ "' is not a map"
  | unsupportedOperator operator field =>
    "Unsupported filter operator '" ++ operator ++ "' on '" ++ field ++ "'"
  | other text => text

/-- The failure of an evaluation. -/
inductive Failure where
  /-- An error raised by the template, with a type of the template's choice. -/
  | raised (message : String) (type : Data)
  | misuse (cause : Misuse)
  | fault (cause : Fault)
  /-- A fault reported as the failure of an evaluation, perhaps of a named template. -/
  | evaluation (template : Option String) (cause : Fault)
deriving Repr

namespace Failure

/-- Reports a fault of a missing key, a wrong kind or a missing part as the failure of the
evaluation of a template. -/
def within (template : Option String) : Failure → Failure
  | fault cause =>
    match cause.family with
    | .lookup | .kind | .part => evaluation template cause
    | _ => fault cause
  | failure => failure

/-- The failure in words. -/
def text : Failure → String
  | raised message _ => message
  | misuse cause => cause.text
  | fault cause => cause.text
  | evaluation template cause =>
    let place := match template with
      | some name => if name.isEmpty then "" else " in '" ++ name ++ "'"
      | none => ""
    "Template evaluation failed" ++ place ++ ": " ++ cause.family.name ++ ": " ++ cause.text

end Failure

end TableKeys
