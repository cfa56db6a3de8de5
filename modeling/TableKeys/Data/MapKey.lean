/-
# Keys of maps

A map has scalars as keys, and also a name paired with a key. Two pairs are the same key when
their names are the same and their keys are.

* `beq_text_iff`: only a text is the same key as a text;
* `Entries.get?_put_text`: what a map holds under a text after a put under a text.
-/
import TableKeys.Data.Entries
import TableKeys.Data.Scalar

namespace TableKeys

open Text

/-- A key of a map. -/
inductive MapKey where
  | scalar (a : Scalar)
  | pair (name : String) (key : MapKey)
deriving DecidableEq, Repr

namespace MapKey

/-- A text as a key. -/
@[match_pattern] abbrev text (s : String) : MapKey := .scalar (.text s)

/-- A whole number as a key. -/
@[match_pattern] abbrev int (n : Int) : MapKey := .scalar (.int n)

/-- Sameness of keys. -/
def same : MapKey → MapKey → Bool
  | scalar a, scalar b => a == b
  | pair name k, pair name' k' => name == name' && same k k'
  | _, _ => false

instance : BEq MapKey := ⟨same⟩

theorem same_self (k : MapKey) : same k k = true := by
  induction k with
  | scalar a => simp [same]
  | pair name k ih => simp [same, ih]

instance : ReflBEq MapKey where
  rfl {k} := same_self k

@[simp] theorem scalar_beq_scalar (a b : Scalar) : (scalar a == scalar b) = (a == b) := rfl

/-- Only a text is the same key as a text. -/
theorem beq_text_iff {k : MapKey} {s : String} : (k == text s) = true ↔ k = text s := by
  cases k with
  | scalar a => rw [scalar_beq_scalar, Scalar.beq_text_iff, scalar.injEq]
  | pair name k => exact ⟨fun h => Bool.noConfusion h, fun h => MapKey.noConfusion h⟩

/-- The name of the kind of a key in messages. -/
def typeName : MapKey → String
  | scalar a => a.typeName
  | pair .. => "tuple"

/-- The key as it is shown inside a message or a collection, in full. -/
def shown : MapKey → String
  | scalar a => a.shown
  | pair name k => "(" ++ quoted name ++ ", " ++ k.shown ++ ")"

/-- The key written out in full. -/
def plain : MapKey → String
  | scalar a => a.plain
  | k => k.shown

/-- The key can be written: there is no whole number with too many digits in it. -/
def isWritable : MapKey → Bool
  | scalar a => a.isWritable
  | pair _ k => k.isWritable

end MapKey

/-- Reading under a text after a put under a text. -/
theorem Entries.get?_put_text {α : Type} (m : Entries MapKey α) (s t : String) (v : α) :
    (m.put (.text s) v).get? (.text t) = if s = t then some v else m.get? (.text t) := by
  induction m with
  | nil => simp [put, get?]
  | cons entry rest ih =>
    obtain ⟨k, w⟩ := entry
    by_cases hs : (k == .text s) = true
    · rw [put_cons, if_pos hs, get?_cons, get?_cons, MapKey.beq_text_iff.mp hs]
      by_cases hst : s = t <;> simp [hst]
    · rw [put_cons, if_neg hs, get?_cons, get?_cons, ih]
      by_cases hst : s = t
      · subst hst
        simp [hs]
      · simp [hst]

end TableKeys
