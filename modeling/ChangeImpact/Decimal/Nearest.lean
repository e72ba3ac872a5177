/-
This file reads numerals as the nearest doubles.
-/

import ChangeImpact.Decimal.Numeral

namespace ChangeImpact.Decimal.Numeral

/-- The nearest double, unless the numeral is too large. Numbers from `10 ^ 310` on are too large
for a double, and those below `10 ^ -330` too small to differ from zero. -/
def toNearest? (numeral : Numeral) : Option Float :=
  let coefficient := digitsValue (numeral.whole ++ numeral.fraction)
  let exponent := numeral.exponent.getD 0 - numeral.fraction.length
  let leading := (Nat.toDigits 10 coefficient).length + exponent
  let size : Float :=
    if coefficient = 0 ∨ leading < -330 then 0.0
    else if 310 < leading then 1.0 / 0.0
    else Float.ofScientific coefficient (decide (exponent < 0)) exponent.natAbs
  if size.isFinite then some (if numeral.negative then -size else size) else none

end ChangeImpact.Decimal.Numeral
