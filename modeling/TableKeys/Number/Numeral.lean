/-
# Reading a decimal numeral

A numeral is digits with at most one point among or beside them, then perhaps a mark `e`
or `E` and a whole exponent. Digits of any script are read by their value. Reading yields
the digits as one whole number and the power of ten by which it is multiplied.
-/
import TableKeys.Text.Word
import TableKeys.Text.Blank

namespace TableKeys.Number

open TableKeys.Text

/-- Splits a sign off. -/
def splitSign : List Char → Bool × List Char
  | '-' :: cs => (true, cs)
  | '+' :: cs => (false, cs)
  | cs => (false, cs)

/-- The exponent after its mark; no characters at all mean no exponent. -/
def readExponent? : List Char → Option Int
  | [] => some 0
  | c :: cs =>
    if c == 'e' || c == 'E' then
      let (negative, digits) := splitSign cs
      if !digits.isEmpty && digits.all isDecimalDigit then
        some (if negative then -(digitsValue digits : Int) else digitsValue digits)
      else none
    else none

/-- Coefficient and exponent of an unsigned numeral. -/
def readNumeral? (cs : List Char) : Option (Nat × Int) :=
  let whole := cs.takeWhile isDecimalDigit
  let rest := cs.dropWhile isDecimalDigit
  let fraction := match rest with
    | '.' :: more => more.takeWhile isDecimalDigit
    | _ => []
  let rest := match rest with
    | '.' :: more => more.dropWhile isDecimalDigit
    | _ => rest
  if whole.isEmpty && fraction.isEmpty then none
  else (readExponent? rest).map fun exponent =>
    (digitsValue (whole ++ fraction), exponent - fraction.length)

/-- Every underscore of the numeral stands between two digits. -/
def underscoresBetweenDigits : List Char → Bool
  | c :: '_' :: d :: cs =>
    isDecimalDigit c && isDecimalDigit d && underscoresBetweenDigits (d :: cs)
  | [c, '_'] => c != '_' && false
  | c :: cs => c != '_' && underscoresBetweenDigits cs
  | [] => true

/-- The text in small ASCII letters without the characters around it that count as blank. -/
def plainWord (blank : Char → Bool) (s : String) : List Char :=
  (trim blank s.toList).map Char.toLower

end TableKeys.Number
