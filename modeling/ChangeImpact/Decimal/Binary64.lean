/-
This file takes an IEEE double apart into a sign and an exact binary fraction.
-/

import ChangeImpact.Decimal.Power

namespace ChangeImpact.Decimal

/-- A finite double is `significand * 2 ^ exponent`, negated when `negative`. -/
structure Binary64 where
  negative : Bool
  significand : Nat
  exponent : Int
deriving DecidableEq, Repr

namespace Binary64

def signBit : Nat := twoTo 63

def fractionSize : Nat := twoTo 52

/-- The sign and the parts of a finite double, given its bits. -/
def ofBits? (bits : Nat) : Option Binary64 :=
  let negative := decide (signBit ≤ bits % twoTo 64)
  let biased := bits / fractionSize % 2048
  let fraction := bits % fractionSize
  if biased = 2047 then
    none
  else if biased = 0 then
    some ⟨negative, fraction, -1074⟩
  else
    some ⟨negative, fractionSize + fraction, (biased : Int) - 1075⟩

def ofFloat? (value : Float) : Option Binary64 :=
  ofBits? value.toBits.toNat

/-- The place of a bit pattern in the total order of doubles: the negative ones come first,
counted downwards, and the two zeros are apart. -/
def rank (bits : Nat) : Int :=
  if bits < signBit then bits else (signBit : Int) - 1 - bits

/-- The numerator and the denominator of the absolute value. -/
def fraction (value : Binary64) : Nat × Nat :=
  (value.significand * twoTo value.exponent.toNat, twoTo (-value.exponent).toNat)

end Binary64

end ChangeImpact.Decimal
