/-
This file scores how strongly a change affects a module.
-/

import ChangeImpact.Dependency

namespace ChangeImpact.Impact

variable {α : Type} [Scalar α]

def maxScore : α := 10.0

/-- Beyond this distance the score decays no further. -/
def decayLimit : Nat := 2147483647

/-- The score falls by a fifth with each step away from the change. -/
def decay (distance : Nat) : α :=
  Scalar.power 0.8 (min distance decayLimit)

/-- Untested modules score up to a tenth higher. -/
def coverageBoost (coverage : α) : α :=
  1.0 + 0.1 * (1.0 - Scalar.clamp coverage 0.0 1.0)

def score (distance : Nat) (strength : Strength) (coverage : α) : α :=
  Scalar.clamp (maxScore * decay distance * strength.scoreFactor * coverageBoost coverage)
    0.0 maxScore

end ChangeImpact.Impact
