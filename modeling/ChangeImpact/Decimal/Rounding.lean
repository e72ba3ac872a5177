/-
This file rounds exact fractions to integers and to a fixed number of decimal places.
-/

import ChangeImpact.Decimal.Binary64
import ChangeImpact.Decimal.Numeral

namespace ChangeImpact.Decimal

/-- The nearest integer to a fraction; a half goes to the even neighbour. -/
def roundDivide (numerator denominator : Nat) : Nat :=
  let below := numerator / denominator
  let remainder := numerator % denominator
  if 2 * remainder < denominator ∨ 2 * remainder = denominator ∧ below % 2 = 0 then below
  else below + 1

/-- The numeral with `places` digits after the point that is nearest to a double. -/
def Binary64.toPlaces (places : Nat) (value : Binary64) : Numeral :=
  let parts := value.fraction
  let scaled := roundDivide (parts.1 * tenTo places) parts.2
  let digits := Nat.toDigits 10 scaled
  let digits := List.replicate (places + 1 - digits.length) '0' ++ digits
  let wholeSize := digits.length - places
  ⟨value.negative, digits.take wholeSize, digits.drop wholeSize, none⟩

/-- A double with `places` digits after the point. -/
def fixedText (places : Nat) (value : Float) : String :=
  match Binary64.ofFloat? value with
  | some parts => (parts.toPlaces places).text ""
  | none => if value.isNaN then "NaN" else if value < 0.0 then "-inf" else "inf"

end ChangeImpact.Decimal
