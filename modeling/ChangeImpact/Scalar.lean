/-
This file defines the numbers that scores, weights and metrics are computed with.
-/

import ChangeImpact.Decimal.Binary64

namespace ChangeImpact

/-- A number type with the arithmetic, the decimal literals and the comparisons of the analysis.
The program runs on doubles; exact rationals give the same formulas without rounding. -/
class Scalar (α : Type) extends Add α, Sub α, Mul α, Div α, OfScientific α, LE α, LT α where
  ofNat : Nat → α
  decideLe : ∀ left right : α, Decidable (left ≤ right)
  decideLt : ∀ left right : α, Decidable (left < right)
  /-- A total order on all values, also on those that `≤` does not compare. -/
  order : α → α → Ordering

namespace Scalar

instance {α : Type} [Scalar α] (left right : α) : Decidable (left ≤ right) :=
  decideLe left right

instance {α : Type} [Scalar α] (left right : α) : Decidable (left < right) :=
  decideLt left right

instance : Scalar Float where
  ofNat := Float.ofNat
  decideLe := inferInstance
  decideLt := inferInstance
  order left right :=
    compare (Decimal.Binary64.rank left.toBits.toNat) (Decimal.Binary64.rank right.toBits.toNat)

instance : Scalar Rat where
  ofNat count := (count : Rat)
  decideLe := inferInstance
  decideLt := inferInstance
  order left right := if left < right then .lt else if left = right then .eq else .gt

variable {α : Type} [Scalar α]

/-- The value moved into the interval from `low` to `high`; what compares with neither stays. -/
def clamp (value low high : α) : α :=
  if value < low then low else if high < value then high else value

/-- The value, but no more than `limit`. -/
def cap (value limit : α) : α :=
  if value < limit then value else limit

def sum (values : List α) : α :=
  values.foldl (· + ·) 0.0

def mean (values : List α) : α :=
  sum values / ofNat values.length

/-- `product * base ^ exponent`, by squaring the base once for each binary digit of the exponent. -/
def powerFrom (product base : α) (exponent : Nat) : α :=
  let product := if exponent % 2 = 1 then product * base else product
  if exponent / 2 = 0 then product else powerFrom product (base * base) (exponent / 2)
termination_by exponent
decreasing_by omega

def power (base : α) (exponent : Nat) : α :=
  powerFrom 1.0 base exponent

end Scalar

end ChangeImpact
