/-
# Faults

A fault is a value met where it cannot be used. Each cause has its own constructor and the
wording is given in one place (`Fault.text`); the class of a fault (`Fault.family`) decides
whether an evaluation reports it under its own name.
-/
import TableKeys.Number.Limits
import TableKeys.Text.Layout
import TableKeys.Text.Quoted

namespace TableKeys

open Number Text

/-- The families of faults. -/
inductive FaultFamily where
  | lookup
  | kind
  | part
  | value
  | index
  | number (signal : Signal)
deriving DecidableEq, Repr

/-- The name of a family in messages. -/
def FaultFamily.name : FaultFamily → String
  | lookup => "KeyError"
  | kind => "TypeError"
  | part => "AttributeError"
  | value => "ValueError"
  | index => "IndexError"
  | number .overflow => "Overflow"
  | number .underflow => "Underflow"
  | number .inexact => "Inexact"
  | number .rounded => "Rounded"
  | number .clamped => "Clamped"
  | number .invalid => "InvalidOperation"

/-- What went wrong with a value. The names of kinds are those of `Scalar.typeName` and its
companions. -/
inductive Fault where
  /-- A value of this kind has no such part. -/
  | noAttribute (kind part : String)
  /-- The kind itself has no such part. -/
  | noKindAttribute (kind part : String)
  /-- A value of this kind has no members to go through. -/
  | notIterable (kind : String)
  /-- A value of this kind cannot be taken for a pair. -/
  | notUnpackable (kind : String)
  /-- A pair is wanted and there are fewer members. -/
  | tooFew (count : Nat)
  /-- A pair is wanted and there are more members. -/
  | tooMany
  /-- A value of this kind cannot be a key. -/
  | unhashable (kind : String)
  /-- A signaling not-a-number cannot be a key. -/
  | unhashableSignal
  /-- A text is wanted as the name of a field. -/
  | notText (kind : String)
  /-- A name that cannot be written out. -/
  | layout (f : LayoutFault)
  /-- A member of a merged row is no pair but has another length. -/
  | updateLength (position length : Nat)
  /-- A member of a merged row has no members itself. -/
  | updateElement (position : Nat)
  /-- A value of this kind cannot be a key in JSON. -/
  | notJsonKey (kind : String)
  /-- An infinity or a not-a-number cannot be stored. -/
  | notFinite
  /-- A binary number is stored where only decimal ones can be. -/
  | notDecimal
  /-- A value of this kind cannot be stored. -/
  | notStorable (kind shown : String)
  /-- A number that does not fit. -/
  | number (signal : Signal)
  /-- A whole number is written with more digits than are read. -/
  | tooManyDigits (count : Nat)
  /-- A whole number has more digits than are written. -/
  | tooLong
  /-- A key that is not there, as it is shown. -/
  | missingKey (shown : String)
  /-- Any other fault, in its own words. -/
  | other (family : FaultFamily) (text : String)
deriving DecidableEq, Repr

namespace Fault

/-- The family of a fault. -/
def family : Fault → FaultFamily
  | noAttribute .. | noKindAttribute .. => .part
  | notIterable _ | notUnpackable _ | unhashable _ | unhashableSignal | notText _
  | updateElement _ | notJsonKey _ | notFinite | notDecimal | notStorable .. => .kind
  | tooFew _ | tooMany | updateLength .. | tooManyDigits _ | tooLong => .value
  | layout f => if f.isMalformed then .value else .kind
  | number signal => .number signal
  | missingKey _ => .lookup
  | other family _ => family

/-- The fault in words. -/
def text : Fault → String
  | noAttribute kind part => "'" ++ kind ++ "' object has no attribute '" ++ part ++ "'"
  | noKindAttribute kind part =>
    "type object '" ++ kind ++ "' has no attribute '" ++ part ++ "'"
  | notIterable kind => "'" ++ kind ++ "' object is not iterable"
  | notUnpackable kind => "cannot unpack non-iterable " ++ kind ++ " object"
  | tooFew count => "not enough values to unpack (expected 2, got " ++ toString count ++ ")"
  | tooMany => "too many values to unpack (expected 2)"
  | unhashable kind => "unhashable type: '" ++ kind ++ "'"
  | unhashableSignal => "Cannot hash a signaling NaN value"
  | notText "bytes" => "cannot use a string pattern on a bytes-like object"
  | notText kind => "expected string or bytes-like object, got '" ++ kind ++ "'"
  | layout f => f.text
  | updateLength position length =>
    "dictionary update sequence element #" ++ toString position ++ " has length " ++
      toString length ++ "; 2 is required"
  | updateElement position =>
    "cannot convert dictionary update sequence element #" ++ toString position ++
      " to a sequence"
  | notJsonKey kind => "keys must be str, int, float, bool or None, not " ++ kind
  | notFinite => "Infinity and NaN not supported"
  | notDecimal => "Float types are not supported. Use Decimal types instead."
  | notStorable kind shown =>
    "Unsupported type \"<class '" ++ kind ++ "'>\" for value \"" ++ shown ++ "\""
  | number signal => (FaultFamily.number signal).name
  | tooManyDigits count =>
    "Exceeds the limit (4300 digits) for integer string conversion: value has " ++
      toString count ++ " digits; use sys.set_int_max_str_digits() to increase the limit"
  | tooLong =>
    "Exceeds the limit (4300 digits) for integer string conversion; use " ++
      "sys.set_int_max_str_digits() to increase the limit"
  | missingKey shown => shown
  | other .lookup text => quoted text
  | other _ text => text

end Fault

end TableKeys
