/-
# Scalars

A scalar is a value without parts. Equality looks at values and not at kinds: the truth
values count as one and zero, and a whole number, a binary and a decimal one are equal when
they have exactly the same value. A not-a-number equals nothing (`Scalar.equal`); as a key
or inside a collection it is at least the same as itself, and its mark says which one it is
(`==`). Comparing a number with a signaling not-a-number is a fault (`Scalar.compared`).

Written out in full (`Scalar.plain`), a whole number may be of any length. A text is made of it
only if its digits are not too many (`Scalar.written`).
-/
import TableKeys.Fault
import TableKeys.Number.Binary64
import TableKeys.Text.Quoted

namespace TableKeys

open Number Text

/-- A value without parts. -/
inductive Scalar where
  | null
  | bool (b : Bool)
  | int (n : Int)
  | float (x : Binary64)
  | decimal (d : Decimal)
  | text (s : String)
  | bytes (b : List UInt8)
deriving DecidableEq, Repr

namespace Scalar

/-- The value as a text. -/
def text? : Scalar → Option String
  | text s => some s
  | _ => none

/-- The value as a number. -/
def number? : Scalar → Option Decimal
  | bool b => some (.ofInt (if b then 1 else 0))
  | int n => some (.ofInt n)
  | float x => some x.exact
  | decimal d => some d
  | _ => none

/-- Equality of values. -/
def equal : Scalar → Scalar → Bool
  | null, null => true
  | text s, text t => s == t
  | bytes b, bytes c => b == c
  | a, b =>
    match a.number?, b.number? with
    | some d, some e => d.sameValue e
    | _, _ => false

/-- The value is a signaling not-a-number. -/
def isSignaling : Scalar → Bool
  | decimal d => d.isSignaling
  | _ => false

/-- Comparing the two would compare a number with a signaling not-a-number. -/
def clashes (a b : Scalar) : Bool :=
  (a.isSignaling && b.number?.isSome) || (b.isSignaling && a.number?.isSome)

/-- Equality of values, where they can be compared. -/
def compared (a b : Scalar) : Except Fault Bool :=
  if a.clashes b then .error (.number .invalid) else .ok (a.equal b)

/-- The same not-a-number with a mark that tells it from others; other values have none. -/
def marked (mark : Nat) : Scalar → Scalar
  | float (.nan _) => float (.nan mark)
  | decimal (.nan negative signaling payload _) =>
    decimal (.nan negative signaling payload mark)
  | a => a

/-- Sameness of keys and of members of collections. -/
instance : BEq Scalar where
  beq a b := decide (a = b) || a.equal b

instance : ReflBEq Scalar where
  rfl {a} := by
    show (decide (a = a) || a.equal a) = true
    simp

@[simp] theorem text_beq_text (s t : String) : (text s == text t) = (s == t) := by
  show (decide (text s = text t) || (s == t)) = (s == t)
  cases h : s == t with
  | true => simp
  | false =>
    have : s ≠ t := by simpa using h
    simp [this]

/-- Only a text is the same key as a text. -/
theorem beq_text_iff {a : Scalar} {s : String} : (a == text s) = true ↔ a = text s := by
  constructor
  · intro h
    cases a <;> first
      | exact congrArg text (by simpa using h)
      | (exfalso; revert h; simp [BEq.beq, equal, number?])
  · rintro rfl
    exact ReflBEq.rfl

/-- The name of the kind of a scalar in messages. -/
def typeName : Scalar → String
  | null => "NoneType"
  | bool _ => "bool"
  | int _ => "int"
  | float _ => "float"
  | decimal _ => "decimal.Decimal"
  | text _ => "str"
  | bytes _ => "bytes"

/-- The scalar stands for nothing: null, false, zero, or an empty row. -/
def isNothing : Scalar → Bool
  | null => true
  | bool b => !b
  | int n => n == 0
  | float x => x.isZero
  | decimal d => d.isZero
  | text s => s.isEmpty
  | bytes b => b.isEmpty

/-- The members that a loop goes through: the characters of a text or the numbers of a row of
bytes. Other scalars have none. -/
def members? : Scalar → Option (List Scalar)
  | text s => some (s.toList.map fun c => text c.toString)
  | bytes b => some (b.map fun n => int n.toNat)
  | _ => none

/-- The scalar written out in full. -/
def plain : Scalar → String
  | null => "None"
  | bool b => if b then "True" else "False"
  | int n => toString n
  | float x => x.text
  | decimal d => d.text
  | text s => s
  | bytes b => quotedBytes b

/-- The scalar as it is shown inside a message or a collection, in full. -/
def shown : Scalar → String
  | text s => quoted s
  | decimal d => "Decimal('" ++ d.text ++ "')"
  | a => a.plain

/-- The scalar can be written: it is no whole number with too many digits. -/
def isWritable : Scalar → Bool
  | int n => Number.isWritable n
  | _ => true

/-- The scalar as a text of its own, if it can be written. -/
def written (a : Scalar) : Except Fault String :=
  if a.isWritable then .ok a.plain else .error .tooLong

theorem written_of_isWritable {a : Scalar} (h : a.isWritable = true) : a.written = .ok a.plain :=
  if_pos h

theorem written_eq_ok_iff {a : Scalar} {t : String} :
    a.written = .ok t ↔ a.isWritable = true ∧ a.plain = t := by
  by_cases h : a.isWritable = true
  · rw [written_of_isWritable h]
    simp [h]
  · simp [written, h]

end Scalar

end TableKeys
