/-
# Numbers within limits

Decimal numbers have a bounded count of digits and a bounded range of exponents. The bounds
of a stored number are narrow, those of a number at all are very wide. A number is never
rounded to fit: one that would have to be rounded, or whose exponent would have to be moved,
is refused with a signal that says why. A whole number may have any size, but it becomes a text,
and is made from one, only up to a greatest count of digits.

* `fit_finite_eq_ok`: a finite number that fits is kept as it is;
* `isWritable_of_fit`: a whole number that can be stored can be written.
-/
import TableKeys.Number.Decimal

namespace TableKeys.Number

/-- Why a number does not fit. -/
inductive Signal where
  /-- Too large. -/
  | overflow
  /-- Too close to zero. -/
  | underflow
  /-- Digits other than zero would be lost. -/
  | inexact
  /-- Zeros at the end of the coefficient would be lost. -/
  | rounded
  /-- The exponent of a zero would have to change. -/
  | clamped
  /-- No number at all, or none that can be worked with. -/
  | invalid
deriving DecidableEq, Repr

/-- Bounds for the coefficient and the exponent of a number. -/
structure Limits where
  /-- Greatest count of digits. -/
  digits : Nat
  /-- Least power of ten of the first digit at full precision. -/
  minExponent : Int
  /-- Greatest power of ten of the first digit. -/
  maxExponent : Int

/-- The bounds of a stored number. -/
def attributeLimits : Limits where
  digits := 38
  minExponent := -128
  maxExponent := 126

/-- The bounds of a decimal number at all. -/
def decimalLimits : Limits where
  digits := 999999999999999999
  minExponent := -999999999999999999
  maxExponent := 999999999999999999

/-- The least power of ten of any digit. -/
def Limits.leastPower (limits : Limits) : Int :=
  limits.minExponent - limits.digits + 1

namespace Limits

/-- The signal for cutting the last `count` digits of a coefficient other than zero. If all of
its digits are cut, some of them are not zero. -/
def cutSignal (coefficient count : Nat) (lossy : Signal) : Signal :=
  if Decimal.width coefficient ≤ count then lossy
  else if coefficient % Nat.pow 10 count = 0 then .rounded
  else lossy

/-- Rounding the coefficient to the leading digits, ties to even, adds a digit. -/
def carries (limits : Limits) (coefficient count : Nat) : Bool :=
  let unit := Nat.pow 10 count
  let kept := coefficient / unit
  let rest := coefficient % unit
  kept == Nat.pow 10 limits.digits - 1 && (unit < 2 * rest || (2 * rest == unit && kept % 2 == 1))

/-- The signal that a finite number raises, if any. -/
def signal? (limits : Limits) (coefficient : Nat) (exponent : Int) : Option Signal :=
  let lead : Int := exponent + Decimal.width coefficient - 1
  let excess := Decimal.width coefficient - limits.digits
  if coefficient = 0 then
    if limits.maxExponent < exponent || exponent < limits.leastPower then some .clamped else none
  else if limits.maxExponent < lead then some .overflow
  else if lead < limits.minExponent then
    if exponent < limits.leastPower then
      some (cutSignal coefficient (limits.leastPower - exponent).toNat .underflow)
    else none
  else if excess = 0 then none
  else if lead = limits.maxExponent && limits.carries coefficient excess then some .overflow
  else some (cutSignal coefficient excess .inexact)

/-- Without a signal, the first digit of a number other than zero stands no higher than it may. -/
theorem lead_le_of_signal? {limits : Limits} {coefficient : Nat} {exponent : Int}
    (h : limits.signal? coefficient exponent = none) (hne : coefficient ≠ 0) :
    exponent + Decimal.width coefficient - 1 ≤ limits.maxExponent := by
  refine Int.not_lt.mp fun hlead => ?_
  rw [signal?, if_neg hne, if_pos hlead] at h
  cases h

/-- The number itself if it fits. A payload with too many digits is dropped, and with it all
else that sets a not-a-number apart. -/
def fit (limits : Limits) : Decimal → Except Signal Decimal
  | .finite negative coefficient exponent =>
    match limits.signal? coefficient exponent with
    | some signal => .error signal
    | none => .ok (.finite negative coefficient exponent)
  | .nan negative signaling payload mark =>
    if limits.digits < Decimal.width payload then .ok (.nan false false 0 mark)
    else .ok (.nan negative signaling payload mark)
  | d => .ok d

/-- A finite number that fits is kept as it is. -/
theorem fit_finite_eq_ok {limits : Limits} {negative : Bool} {coefficient : Nat} {exponent : Int}
    {d : Decimal} (h : limits.fit (.finite negative coefficient exponent) = .ok d) :
    d = .finite negative coefficient exponent := by
  simp only [fit] at h
  split at h
  · cases h
  · exact (Except.ok.inj h).symm

end Limits

/-- The greatest count of digits of a whole number that is written, or read. -/
def maxDigits : Nat := 4300

/-- The whole number can be written: its digits, without the sign, are not too many. -/
def isWritable (n : Int) : Bool :=
  Decimal.width n.natAbs ≤ maxDigits

/-- A whole number that can be stored can be written. -/
theorem isWritable_of_fit {n : Int} {d : Decimal} (h : attributeLimits.fit (.ofInt n) = .ok d) :
    isWritable n = true := by
  rw [isWritable, decide_eq_true_eq]
  by_cases hzero : n.natAbs = 0
  · rw [hzero]
    decide
  · have hlead : (0 : Int) + Decimal.width n.natAbs - 1 ≤ 126 := by
      refine @Limits.lead_le_of_signal? attributeLimits _ _ ?_ hzero
      simp only [Decimal.ofInt, Limits.fit] at h
      split at h
      · cases h
      · assumption
    show Decimal.width n.natAbs ≤ 4300
    omega

/-- Reads a decimal number within the limits of decimal numbers. -/
def Decimal.read? (s : String) : Option Decimal :=
  match Decimal.ofText? s with
  | some (.finite negative coefficient exponent) =>
    if (decimalLimits.signal? coefficient exponent).isNone then
      some (.finite negative coefficient exponent)
    else none
  | d => d

end TableKeys.Number
