/-
This file assesses the risk of a change from the modules and paths that it affects.
-/

import ChangeImpact.Distinct
import ChangeImpact.Impact.Module
import ChangeImpact.Impact.Path

namespace ChangeImpact

structure RiskMetrics (α : Type) where
  changeComplexity : α
  impactScope : α
  testCoverageRisk : α
  dependencyRisk : α
  historicalRisk : α
  overall : α
deriving DecidableEq, Repr

structure RiskAssessment (α : Type) where
  overall : OverallRisk
  riskFactors : List String
  mitigatingFactors : List String
  highRiskModules : List String
  criticalPaths : List String
  cycles : List (List String)
  metrics : RiskMetrics α
deriving DecidableEq, Repr

namespace RiskMetrics

variable {α : Type} [Scalar α]

def limit : α := 10.0

/-- How risky changes of a kind have been in general. -/
def baseline : ChangeKind → α
  | .deletion => 8.0
  | .modification => 5.0
  | .addition => 3.0

def coverageRisk (affected : List (AffectedModule α)) : α :=
  if affected.isEmpty then 0.0
  else (1.0 - Scalar.mean (affected.map AffectedModule.coverage)) * 10.0

/-- The longest path and half the mean weight of all paths, up to the limit. -/
def pathRisk (paths : List (ImpactPath α)) : α :=
  if paths.isEmpty then 0.0
  else
    let longest := (paths.map ImpactPath.length).foldl max 0
    Scalar.cap (Scalar.ofNat longest + 0.5 * Scalar.mean (paths.map ImpactPath.weight)) limit

/-- The metrics of a change and their weighted sum. -/
def ofChange (change : ChangeSet) (affected : List (AffectedModule α))
    (paths : List (ImpactPath α)) : RiskMetrics α :=
  let changeComplexity := Scalar.cap (Scalar.ofNat change.modules.length * 1.5) limit
  let impactScope := Scalar.cap (Scalar.ofNat affected.length * 0.5) limit
  let testCoverageRisk := coverageRisk affected
  let dependencyRisk := pathRisk paths
  let historicalRisk := baseline change.kind
  { changeComplexity, impactScope, testCoverageRisk, dependencyRisk, historicalRisk
    overall := 0.2 * changeComplexity + 0.3 * impactScope + 0.2 * testCoverageRisk +
      0.2 * dependencyRisk + 0.1 * historicalRisk }

end RiskMetrics

namespace RiskAssessment

variable {α : Type} [Scalar α]

def poorCoverage : α := 0.5

def goodCoverage : α := 0.8

/-- A path of more dependencies than this is complex. -/
def complexLength : Nat := 4

/-- How many languages the affected modules are written in, as far as they are known. -/
def languageCount (affected : List (AffectedModule α)) : Nat :=
  (distinct ((affected.map AffectedModule.language).filter (· ≠ ""))).length

def isPoorlyTested (affected : AffectedModule α) : Bool :=
  decide (affected.coverage < poorCoverage)

def isWellTested (affected : AffectedModule α) : Bool :=
  decide (goodCoverage < affected.coverage)

def listed (items : List String) : String :=
  ", ".intercalate items

/-- The text if the condition holds. -/
def when (condition : Prop) [Decidable condition] (text : String) : List String :=
  if condition then [text] else []

def riskFactorsOf (change : ChangeSet) (affected : List (AffectedModule α))
    (paths : List (ImpactPath α)) (cycles : List (List String)) : List String :=
  let highRisk := affected.countP (·.risk == .high)
  let poorlyTested := affected.countP isPoorlyTested
  let complex := paths.countP (complexLength < ·.length)
  when (5 < change.modules.length) "Large number of changed modules" ++
    when (change.kind = .deletion)
      "Deletion changes have higher risk of breaking dependencies" ++
    when (3 < highRisk) s!"{highRisk} modules at high risk" ++
    when (2 < poorlyTested) s!"{poorlyTested} modules with poor test coverage" ++
    when (0 < complex) s!"{complex} complex dependency paths" ++
    when (1 < languageCount affected) "Cross-language dependencies increase complexity" ++
    cycles.map fun cycle => s!"Dependency cycle among affected modules: {listed cycle}"

def mitigatingFactorsOf (change : ChangeSet) (affected : List (AffectedModule α)) :
    List String :=
  let wellTested := affected.countP isWellTested
  when (0 < wellTested) s!"{wellTested} modules have good test coverage" ++
    when (change.kind = .addition) "Addition changes are generally safer"

def highRiskModulesOf (affected : List (AffectedModule α)) : List String :=
  (affected.filter (·.risk == .high)).map AffectedModule.path

def criticalPathsOf (thresholds : RiskThresholds α) (paths : List (ImpactPath α)) :
    List String :=
  (paths.filter fun path => decide (thresholds.high ≤ path.risk)).map ImpactPath.id

def ofChange (change : ChangeSet) (affected : List (AffectedModule α))
    (paths : List (ImpactPath α)) (cycles : List (List String))
    (thresholds : RiskThresholds α) : RiskAssessment α :=
  let metrics := RiskMetrics.ofChange change affected paths
  { overall := .ofScore metrics.overall
    riskFactors := riskFactorsOf change affected paths cycles
    mitigatingFactors := mitigatingFactorsOf change affected
    highRiskModules := highRiskModulesOf affected
    criticalPaths := criticalPathsOf thresholds paths
    cycles
    metrics }

end RiskAssessment

end ChangeImpact
