/-
# Writing a decimal number

A decimal number is a row of digits and a power of ten. Written positionally the point
stands among the digits, padded with zeros; in the exponent form it stands after the first
digit and the power of ten follows a mark. A `NumberStyle` says which form a number takes
and how its details look.
-/

namespace TableKeys.Number

/-- How numbers of one kind are written. -/
structure NumberStyle where
  /-- Positional form for digits times `10 ^ exponent` whose point falls after `point` digits. -/
  positional : (exponent point : Int) → Bool
  /-- Whole numbers in positional form end in `.0`. -/
  wholeWithPoint : Bool
  /-- The mark before the exponent. -/
  mark : Char
  /-- The least number of digits of the exponent. -/
  exponentWidth : Nat

/-- Positional form: `point` says after how many digits the point stands. -/
def positionalForm (wholeWithPoint : Bool) (digits : List Char) (point : Int) : List Char :=
  if point ≤ 0 then
    '0' :: '.' :: List.replicate (-point).toNat '0' ++ digits
  else if digits.length ≤ point.toNat then
    digits ++ List.replicate (point.toNat - digits.length) '0' ++
      (if wholeWithPoint then ['.', '0'] else [])
  else
    digits.take point.toNat ++ '.' :: digits.drop point.toNat

/-- The exponent with its sign and at least `width` digits. -/
def exponentForm (width : Nat) (exponent : Int) : List Char :=
  let digits := Nat.toDigits 10 exponent.natAbs
  (if exponent < 0 then '-' else '+') :: List.replicate (width - digits.length) '0' ++ digits

/-- Exponent form: one digit before the point. -/
def scientificForm (style : NumberStyle) (digits : List Char) (point : Int) : List Char :=
  digits.take 1 ++ (if digits.length ≤ 1 then [] else '.' :: digits.drop 1) ++
    style.mark :: exponentForm style.exponentWidth (point - 1)

/-- The number `coefficient * 10 ^ exponent` in the given style. -/
def NumberStyle.write (style : NumberStyle) (coefficient : Nat) (exponent : Int) : List Char :=
  let digits := Nat.toDigits 10 coefficient
  let point : Int := exponent + digits.length
  if style.positional exponent point then
    positionalForm style.wholeWithPoint digits point
  else
    scientificForm style digits point

end TableKeys.Number
