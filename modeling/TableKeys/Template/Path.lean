/-
# Paths

A path leads from a variable through the entries of maps and the fields of records; its
steps are separated by points. A step may end in an index in square brackets, which picks
an item of the list found under its name. A path that leads nowhere refers to null. An
index with too many digits is a fault, unless the path has led nowhere before it.
-/
import TableKeys.Template.Store
import TableKeys.Text.Word

namespace TableKeys.Template

open Text

/-- A step of a path: a name and perhaps an index. -/
structure Segment where
  name : String
  index : Option Nat := none
deriving DecidableEq, Repr

namespace Segment

/-- The digits of the index at the end of a step, after the name: they stand between square
brackets, which a single line break may follow. -/
def indexDigits? : List Char → Option (List Char)
  | '[' :: cs =>
    let digits := cs.takeWhile isDecimalDigit
    let rest := cs.dropWhile isDecimalDigit
    if !digits.isEmpty && (rest == [']'] || rest == [']', '\n']) then some digits else none
  | _ => none

/-- The greatest number of digits that an index may have. -/
def maxIndexDigits : Nat := Number.maxDigits

/-- The number that the digits of an index stand for. -/
def readIndex (digits : List Char) : Except Fault Nat :=
  if digits.length ≤ maxIndexDigits then .ok (digitsValue digits)
  else .error (.tooManyDigits digits.length)

/-- The step that a piece of a path between points stands for. Only a proper name can have an
index; anything else is a name as it stands. -/
def ofChars (cs : List Char) : Except Fault Segment :=
  let plain : Segment := { name := String.ofList cs }
  match cs with
  | [] => .ok plain
  | c :: rest =>
    if isNameStart c then
      match indexDigits? (rest.dropWhile isWord) with
      | some digits => do
        let index ← readIndex digits
        return { name := String.ofList (c :: rest.takeWhile isWord), index := some index }
      | none => .ok plain
    else .ok plain

/-- The value itself, or its item at the index of the step. -/
def pick (segment : Segment) (v : Value) : Value :=
  match segment.index with
  | some i => v.item i
  | none => v

end Segment

/-- What the steps of a path lead to from a value; steps after null are not looked at. -/
def follow (store : Store) (v : Value) : List (List Char) → Except Fault Value
  | [] => .ok v
  | step :: steps =>
    if v.isNull then .ok v
    else do
      let segment ← Segment.ofChars step
      follow store (segment.pick (store.member v segment.name)) steps

/-- What a path refers to. -/
def resolve (store : Store) (bindings : Entries String Value) (path : String) :
    Except Fault Value :=
  match path.toList.splitOn '.' with
  | [] => .ok .null
  | head :: steps => do
    let segment ← Segment.ofChars head
    follow store (segment.pick ((bindings.get? segment.name).getD .null)) steps

/-- Splits a path before its last step; a path of one step has no parent. -/
def splitLast (path : String) : String × String :=
  let reversed := path.toList.reverse
  let name := (reversed.takeWhile (· != '.')).reverse
  let parent := ((reversed.dropWhile (· != '.')).drop 1).reverse
  (String.ofList parent, String.ofList name)

end TableKeys.Template
