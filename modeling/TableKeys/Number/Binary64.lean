/-
# Binary floating-point numbers

A double-precision number is `± mantissa * 2 ^ exponent` with a mantissa below `2 ^ 53`.
Reading a numeral rounds its exact value to the nearest such number, ties to the even
mantissa. Writing uses the fewest decimal digits that read back as the same number, and
among those the nearest to it; `Binary64.written` gives these digits, `Binary64.text` the
text and `Binary64.exact` the exact decimal value.
-/
import TableKeys.Number.Decimal

namespace TableKeys.Number

open TableKeys.Text

/-- A double-precision number, an infinity or the not-a-number. -/
inductive Binary64 where
  /-- The number `± mantissa * 2 ^ exponent`. -/
  | finite (negative : Bool) (mantissa : Nat) (exponent : Int)
  | infinite (negative : Bool)
  /-- A not-a-number; its mark tells it from others. -/
  | nan (mark : Nat)
deriving DecidableEq, Repr

namespace Binary64

/-- The least exponent of a number. -/
def minExponent : Int := -1074

/-- The greatest exponent of a number. -/
def maxExponent : Int := 971

/-- The least mantissa of 53 bits. -/
def leastFull : Nat := 0x10000000000000

theorem leastFull_eq : leastFull = Nat.pow 2 52 := by decide

/-- The quotient rounded to the nearest whole number, ties to the even one. -/
def roundQuotient (num den : Nat) : Nat :=
  let q := num / den
  let r := num % den
  if 2 * r < den then q else if 2 * r > den then q + 1 else q + q % 2

/-- Numerator and denominator of `num / (den * base ^ power)`. -/
def scaleDown (base num den : Nat) (power : Int) : Nat × Nat :=
  if 0 ≤ power then (num, den * base.pow power.toNat) else (num * base.pow (-power).toNat, den)

/-- The exponent at which `num / den` has a mantissa of 53 bits, or the least exponent. -/
def exponentOf (num den : Nat) : Int :=
  let guess : Int := (Nat.log2 num : Int) - Nat.log2 den - 52
  let (n, d) := scaleDown 2 num den guess
  max minExponent (if n < leastFull * d then guess - 1 else guess)

/-- The number nearest to `± num / den`. -/
def ofQuotient (negative : Bool) (num den : Nat) : Binary64 :=
  if num = 0 then finite negative 0 minExponent
  else
    let exponent := exponentOf num den
    let (n, d) := scaleDown 2 num den exponent
    let mantissa := roundQuotient n d
    let (mantissa, exponent) :=
      if mantissa = 2 * leastFull then (leastFull, exponent + 1) else (mantissa, exponent)
    if maxExponent < exponent then infinite negative else finite negative mantissa exponent

/-- The number nearest to `± coefficient * 10 ^ exponent`; a value far beyond all numbers is
settled by its width alone. -/
def ofDecimal (negative : Bool) (coefficient : Nat) (exponent : Int) : Binary64 :=
  let point : Int := exponent + Decimal.width coefficient
  if coefficient = 0 || point < -330 then finite negative 0 minExponent
  else if 310 < point then infinite negative
  else
    let (num, den) := scaleDown 10 coefficient 1 (-exponent)
    ofQuotient negative num den

/-- Reads an unsigned number in small letters. -/
def ofUnsigned? (negative : Bool) (cs : List Char) : Option Binary64 :=
  if cs == "inf".toList || cs == "infinity".toList then some (infinite negative)
  else if cs == "nan".toList then some (nan 0)
  else if underscoresBetweenDigits cs then
    (readNumeral? (cs.filter (· != '_'))).map fun (coefficient, exponent) =>
      ofDecimal negative coefficient exponent
  else none

/-- A blank that may stand around a number. -/
def isOuterBlank (c : Char) : Bool :=
  isBlank c && !isInformationSeparator c

/-- Reads a number; blanks around it are ignored. -/
def ofText? (s : String) : Option Binary64 :=
  let (negative, cs) := splitSign (plainWord isOuterBlank s)
  ofUnsigned? negative cs

/-- Numerator and denominator of `mantissa * 2 ^ exponent`. -/
def quotient (mantissa : Nat) (exponent : Int) : Nat × Nat :=
  scaleDown 2 mantissa 1 (-exponent)

/-- Four times the number and the ends of the interval of reals that round to it, over a
common denominator: `(low, value, high, denominator)`. -/
def roundingInterval (mantissa : Nat) (exponent : Int) : Nat × Nat × Nat × Nat :=
  let (unit, den) := quotient 1 exponent
  let below := if mantissa = leastFull ∧ minExponent < exponent then unit else 2 * unit
  (4 * unit * mantissa - below, 4 * unit * mantissa, 4 * unit * mantissa + 2 * unit, 4 * den)

/-- The power of ten of the first digit of `num / den`. -/
def leadingPower (num den : Nat) : Int :=
  if den ≤ num then (Decimal.width (num / den) : Int) - 1
  else
    let inverse := (den + num - 1) / num
    if inverse ≤ 1 then 0 else -(Decimal.width (inverse - 1) : Int)

/-- The point of the decimal grid with the given power of ten that lies in the interval and
is nearest to the value; of two equally near ones the even one. -/
def onGrid? (mantissa : Nat) (exponent : Int) (power : Int) : Option Nat :=
  let (low, value, high, den) := roundingInterval mantissa exponent
  -- over the common denominator the grid point `k` is `k * den` and the value `value * unit`
  let (unit, den) := scaleDown 10 1 den power
  let inside (k : Nat) : Bool :=
    if mantissa % 2 == 0 then low * unit ≤ k * den && k * den ≤ high * unit
    else low * unit < k * den && k * den < high * unit
  let k := value * unit / den
  let down := value * unit - k * den
  let up := (k + 1) * den - value * unit
  let kInside := inside k && k != 0
  if kInside && inside (k + 1) then
    some (if down < up then k else if up < down then k + 1 else k + k % 2)
  else if kInside then some k
  else if inside (k + 1) then some (k + 1)
  else none

/-- The fewest digits that read back as `mantissa * 2 ^ exponent`, with their power of ten:
the grids are tried from the coarsest, which lies above the first digit of the number. -/
def shortest (mantissa : Nat) (exponent : Int) : Nat × Int :=
  let (num, den) := quotient mantissa exponent
  let lead := leadingPower num den
  let found := (List.range 18).findSome? fun (places : Nat) =>
    let power := lead + 1 - places
    (onGrid? mantissa exponent power).map fun digits => (digits, power)
  found.getD (mantissa, 0)

/-- Numbers are written positionally from `0.0001` up to `10 ^ 16`, whole ones with a zero
after the point. -/
def style : NumberStyle where
  positional _ point := -4 < point && point ≤ 16
  wholeWithPoint := true
  mark := 'e'
  exponentWidth := 2

/-- The number as text. -/
def text : Binary64 → String
  | finite negative mantissa exponent =>
    let (digits, power) := if mantissa = 0 then (0, 0) else shortest mantissa exponent
    String.ofList (Decimal.signText negative ++ style.write digits power)
  | infinite negative => if negative then "-inf" else "inf"
  | nan _ => "nan"

/-- The decimal number that the text of a number denotes. -/
def written : Binary64 → Decimal
  | finite negative mantissa exponent =>
    let (digits, power) := if mantissa = 0 then (0, 0) else shortest mantissa exponent
    let point : Int := power + Decimal.width digits
    if style.positional power point && 0 ≤ power then
      .finite negative (digits * Nat.pow 10 (power.toNat + 1)) (-1)
    else
      .finite negative digits power
  | infinite negative => .infinite negative
  | nan mark => .nan false false 0 mark

/-- The exact value of a number. -/
def exact : Binary64 → Decimal
  | finite negative mantissa exponent =>
    if 0 ≤ exponent then .finite negative (mantissa * Nat.pow 2 exponent.toNat) 0
    else .finite negative (mantissa * Nat.pow 5 (-exponent).toNat) exponent
  | infinite negative => .infinite negative
  | nan mark => .nan false false 0 mark

/-- The number is zero. -/
def isZero : Binary64 → Bool
  | finite _ mantissa _ => mantissa == 0
  | _ => false

end Binary64

end TableKeys.Number
