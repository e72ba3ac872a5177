/-
This file reads numerals as doubles by scaling their leading digits with a power of ten.
-/

import ChangeImpact.Decimal.Numeral
import ChangeImpact.Decimal.Power

namespace ChangeImpact.Decimal

def wordLimit : Nat := twoTo 64

/-- Appends digits to `value` as long as it stays below the limit of a word, and counts the digits
that were left over. -/
def appendDigits : Nat → List Char → Nat × Nat
  | value, [] => (value, 0)
  | value, digit :: rest =>
    let longer := 10 * value + Numeral.digitValue digit
    if longer < wordLimit then appendDigits longer rest else (value, rest.length + 1)

def powerOfTen (exponent : Nat) : Float :=
  Float.ofScientific 1 false exponent

/-- Divides by powers of ten no larger than `10 ^ 308`. -/
def divideByPower (value : Float) (exponent : Nat) : Float :=
  if exponent ≤ 308 then value / powerOfTen exponent
  else if value == 0.0 then value
  else divideByPower (value / powerOfTen 308) (exponent - 308)
termination_by exponent
decreasing_by omega

/-- The value times a power of ten, unless it is too large for a double. -/
def scaleByPower? (value : Float) (exponent : Int) : Option Float :=
  if exponent < 0 then some (divideByPower value exponent.natAbs)
  else if exponent ≤ 308 then
    let scaled := value * powerOfTen exponent.toNat
    if scaled.isInf then none else some scaled
  else if value == 0.0 then some value
  else none

namespace Numeral

/-- The double that a numeral stands for, unless it is too large. The digits that fit into a word
are rounded once and scaled once, so for up to fifteen digits and small powers of ten the result is
the nearest double. -/
def toFloat? (numeral : Numeral) : Option Float := do
  let (whole, left) := appendDigits 0 numeral.whole
  let (significand, unused) := appendDigits whole numeral.fraction
  let used := numeral.fraction.length - unused
  let size ← scaleByPower? (Float.ofNat significand)
    ((left : Int) - used + numeral.exponent.getD 0)
  return if numeral.negative then -size else size

/-- The count that a numeral stands for, if it is a plain sequence of digits below the limit. -/
def toCount? (limit : Nat) (numeral : Numeral) : Option Nat :=
  let size := digitsValue numeral.whole
  if numeral.isWhole && !numeral.negative && size < limit then some size else none

end Numeral

end ChangeImpact.Decimal
