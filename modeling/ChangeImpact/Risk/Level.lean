/-
This file defines the levels of risk and effort.
-/

import ChangeImpact.Choice
import ChangeImpact.Scalar

namespace ChangeImpact

/-- The risk of one affected module. -/
inductive RiskLevel where
  | minimal
  | low
  | medium
  | high
deriving DecidableEq, Repr, Inhabited

namespace RiskLevel

instance : Choice RiskLevel where
  all := [minimal, low, medium, high]
  name
    | minimal => "minimal"
    | low => "low"
    | medium => "medium"
    | high => "high"

instance : Graded RiskLevel where
  level
    | minimal => 0
    | low => 1
    | medium => 2
    | high => 3

end RiskLevel

/-- The risk of a change as a whole. -/
inductive OverallRisk where
  | low
  | medium
  | high
  | critical
deriving DecidableEq, Repr, Inhabited

namespace OverallRisk

instance : Choice OverallRisk where
  all := [low, medium, high, critical]
  name
    | low => "low"
    | medium => "medium"
    | high => "high"
    | critical => "critical"

instance : Graded OverallRisk where
  level
    | low => 0
    | medium => 1
    | high => 2
    | critical => 3

def isElevated (risk : OverallRisk) : Bool :=
  decide (high ≤ risk)

/-- The risk that a combined score stands for. -/
def ofScore {α : Type} [Scalar α] (score : α) : OverallRisk :=
  if 8.0 ≤ score then critical
  else if 6.0 ≤ score then high
  else if 3.0 ≤ score then medium
  else low

end OverallRisk

inductive Effort where
  | low
  | medium
  | high
deriving DecidableEq, Repr, Inhabited

namespace Effort

instance : Choice Effort where
  all := [low, medium, high]
  name
    | low => "low"
    | medium => "medium"
    | high => "high"

instance : Graded Effort where
  level
    | low => 0
    | medium => 1
    | high => 2

end Effort

/-- The least scores of the risk levels above `minimal`. -/
structure RiskThresholds (α : Type) where
  high : α
  medium : α
  low : α
deriving DecidableEq, Repr

namespace RiskThresholds

variable {α : Type} [Scalar α]

instance : Inhabited (RiskThresholds α) where
  default := { high := 7.0, medium := 4.0, low := 1.0 }

def classify (thresholds : RiskThresholds α) (score : α) : RiskLevel :=
  if thresholds.high ≤ score then .high
  else if thresholds.medium ≤ score then .medium
  else if thresholds.low ≤ score then .low
  else .minimal

end RiskThresholds

end ChangeImpact
