/-
This file defines sources of test coverage and what an analysis makes of their figures.
-/

import ChangeImpact.Scalar

namespace ChangeImpact

/-- A figure as a source of coverage gives it. -/
inductive CoverageFigure (α : Type) where
  | ratio (value : α)
  | infinite (negative : Bool)
  | notANumber
deriving DecidableEq, Repr

/-- The figure of each module, if it is known. -/
abbrev CoverageSource (α : Type) := String → Option (CoverageFigure α)

namespace CoverageFigure

def ofFloat (value : Float) : CoverageFigure Float :=
  if value.isNaN then notANumber
  else if value.isInf then infinite (decide (value < 0.0))
  else ratio value

variable {α : Type} [Scalar α]

/-- The share of a module that counts as tested, between none and all of it. -/
def effective : CoverageFigure α → α
  | ratio value => Scalar.clamp value 0.0 1.0
  | infinite negative => if negative then 0.0 else 1.0
  | notANumber => 0.0

end CoverageFigure

namespace CoverageSource

variable {α : Type} [Scalar α]

def none : CoverageSource α :=
  fun _ => .none

/-- A module that the source does not know counts as untested. -/
def coverageOf (source : CoverageSource α) (path : String) : α :=
  match source path with
  | .none => 0.0
  | some figure => figure.effective

end CoverageSource

end ChangeImpact
