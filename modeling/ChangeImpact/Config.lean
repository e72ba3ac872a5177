/-
This file defines the configuration of an analysis and when it is valid.
-/

import ChangeImpact.Dependency
import ChangeImpact.Glob.Exclusion
import ChangeImpact.Risk.Level

namespace ChangeImpact

structure Config (α : Type) where
  maxDepth : Nat
  includeExternal : Bool
  analyzeTests : Bool
  considerWeak : Bool
  /-- The least score of a module that is reported without being changed itself. -/
  impactThreshold : α
  excludePatterns : List String
  riskThresholds : RiskThresholds α
  maxPaths : Nat
deriving DecidableEq, Repr

/-- Why a configuration is refused. -/
inductive ConfigError (α : Type) where
  | thresholdOutOfRange
  | thresholdsOutOfOrder (thresholds : RiskThresholds α)
  | impactThresholdOutOfRange (threshold : α)
  | invalidPattern (error : Exclusion.Error)
  /-- The text is no configuration. -/
  | unreadable
deriving Repr

namespace Config

variable {α : Type} [Scalar α]

instance : Inhabited (Config α) where
  default := {
    maxDepth := 10
    includeExternal := false
    analyzeTests := true
    considerWeak := true
    impactThreshold := 0.1
    excludePatterns := ["test_*", "*_test.*", "mock_*"]
    riskThresholds := default
    maxPaths := 100 }

/-- Scores lie between zero and ten. -/
def isScore (value : α) : Bool :=
  decide (0.0 ≤ value ∧ value ≤ 10.0)

/-- The compiled exclude patterns of a valid configuration. -/
def exclusion? (config : Config α) : Except (ConfigError α) Exclusion :=
  let thresholds := config.riskThresholds
  if [thresholds.low, thresholds.medium, thresholds.high].any (!isScore ·) then
    .error .thresholdOutOfRange
  else if thresholds.medium < thresholds.low ∨ thresholds.high < thresholds.medium then
    .error (.thresholdsOutOfOrder thresholds)
  else if !isScore config.impactThreshold then
    .error (.impactThresholdOutOfRange config.impactThreshold)
  else (Exclusion.ofPatterns? config.excludePatterns).mapError .invalidPattern

def validate (config : Config α) : Except (ConfigError α) Unit := do
  let _ ← config.exclusion?

/-- Whether the configuration lets an analysis follow a dependency. Optional dependencies are
always followed. -/
def follows (config : Config α) (edge : Dependency) : Bool :=
  (!edge.external || config.includeExternal) && (config.considerWeak || edge.strength != .weak)

end Config

end ChangeImpact
