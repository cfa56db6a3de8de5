/-
# Decimal numbers

A decimal number keeps the number of its digits: `1.5` and `1.50` are the same value and
two numbers. `Decimal.text` writes a number so that its coefficient and exponent can be
read off, and `Decimal.sameValue` compares values exactly.

A not-a-number has no value that could tell it from others, so each one carries a mark
instead. The mark is never written.
-/
import TableKeys.Number.Style
import TableKeys.Number.Numeral

namespace TableKeys.Number

open TableKeys.Text

/-- A decimal number, an infinity or a not-a-number. -/
inductive Decimal where
  /-- The number `± coefficient * 10 ^ exponent`. -/
  | finite (negative : Bool) (coefficient : Nat) (exponent : Int)
  | infinite (negative : Bool)
  /-- A not-a-number; the payload is a number carried along, zero when there is none. -/
  | nan (negative signaling : Bool) (payload mark : Nat)
deriving DecidableEq, Repr

namespace Decimal

/-- Decimal numbers are written positionally down to six places after the point, as long as
they need no padding on the left of it. -/
def style : NumberStyle where
  positional exponent point := exponent ≤ 0 && -6 < point
  wholeWithPoint := false
  mark := 'E'
  exponentWidth := 1

/-- The sign of a written number. -/
def signText (negative : Bool) : List Char :=
  if negative then ['-'] else []

/-- The number as text. -/
def text : Decimal → String
  | finite negative coefficient exponent =>
    String.ofList (signText negative ++ style.write coefficient exponent)
  | infinite negative => String.ofList (signText negative ++ "Infinity".toList)
  | nan negative signaling payload _ =>
    String.ofList (signText negative ++ (if signaling then ['s'] else []) ++ "NaN".toList ++
      (if payload = 0 then [] else Nat.toDigits 10 payload))

/-- Reads the payload of a not-a-number. -/
def readPayload? (cs : List Char) : Option Nat :=
  if cs.all isDecimalDigit then some (digitsValue cs) else none

/-- Reads an unsigned number, infinity or not-a-number in small letters. -/
def ofUnsigned? (negative : Bool) (cs : List Char) : Option Decimal :=
  if cs == "inf".toList || cs == "infinity".toList then some (infinite negative)
  else if "nan".toList.isPrefixOf cs then
    (readPayload? (cs.drop 3)).map fun payload => nan negative false payload 0
  else if "snan".toList.isPrefixOf cs then
    (readPayload? (cs.drop 4)).map fun payload => nan negative true payload 0
  else
    (readNumeral? cs).map fun (coefficient, exponent) => finite negative coefficient exponent

/-- Reads a decimal number of any size; underscores and blanks around it are ignored. -/
def ofText? (s : String) : Option Decimal :=
  let (negative, cs) := splitSign ((plainWord isBlank s).filter (· != '_'))
  ofUnsigned? negative cs

/-- A whole number as a decimal one. -/
def ofInt (n : Int) : Decimal :=
  finite (decide (n < 0)) n.natAbs 0

/-- The number is a not-a-number that no comparison with a number may meet. -/
def isSignaling : Decimal → Bool
  | nan _ signaling _ _ => signaling
  | _ => false

/-- The number is zero. -/
def isZero : Decimal → Bool
  | finite _ coefficient _ => coefficient == 0
  | _ => false

/-- The number of digits of the coefficient. -/
def width (coefficient : Nat) : Nat :=
  (Nat.toDigits 10 coefficient).length

/-- `c * 10 ^ e` and `d * 10 ^ f` are the same number; the widths are compared first, which
keeps the powers of ten small. -/
def sameMagnitude (c : Nat) (e : Int) (d : Nat) (f : Int) : Bool :=
  if c = 0 ∨ d = 0 then c == d
  else if width c + e ≠ width d + f then false
  else c * Nat.pow 10 (e - min e f).toNat == d * Nat.pow 10 (f - min e f).toNat

/-- The two numbers have the same value; a not-a-number has none. -/
def sameValue : Decimal → Decimal → Bool
  | finite s c e, finite t d f => sameMagnitude c e d f && (s == t || c == 0)
  | infinite s, infinite t => s == t
  | _, _ => false

end Decimal

end TableKeys.Number
