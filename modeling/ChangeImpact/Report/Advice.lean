/-
This file draws recommendations and mitigation strategies from an assessment.
-/

import ChangeImpact.Decimal.Rounding
import ChangeImpact.Risk.Assessment

namespace ChangeImpact

structure MitigationStrategy where
  id : String
  name : String
  description : String
  /-- Strategies of high priority come first. -/
  priority : Nat
  effort : Effort
  effectiveness : Effort
  risks : List String
  steps : List String
deriving DecidableEq, Repr

/-- Numbers that texts can show without decimal places. -/
class WholeText (α : Type) where
  wholeText : α → String

instance : WholeText Float := ⟨Decimal.fixedText 0⟩

instance : WholeText Rat where
  wholeText value :=
    let whole := Decimal.roundDivide value.num.natAbs value.den
    if value < 0 then s!"-{whole}" else toString whole

namespace RiskAssessment

variable {α : Type} [Scalar α]

/-- Above this number of affected modules a change should be deployed in phases. -/
def largeScope : Nat := 20

def coverageAdvice [WholeText α] (affected : AffectedModule α) : String :=
  let percentage := WholeText.wholeText (affected.coverage * 100.0)
  s!"Low test coverage in {affected.path} ({percentage}%) - add tests before release"

/-- What to do about a change, the most important first. -/
def recommendations [WholeText α] (assessment : RiskAssessment α) (change : ChangeSet)
    (affected : List (AffectedModule α)) : List String :=
  (if assessment.overall = .critical then
    ["Critical risk - consider splitting the change into smaller parts",
     "Require senior engineer review before deployment",
     "Prepare a comprehensive rollback plan"] else []) ++
    when assessment.overall.isElevated
      "High risk - thorough testing and staged rollout recommended" ++
    when (largeScope < affected.length)
      "Large impact scope - consider phased deployment" ++
    (affected.filter isPoorlyTested).map coverageAdvice ++
    when (1 < languageCount affected)
      "Cross-language impact detected - ensure integration testing" ++
    when (change.kind = .deletion)
      "Deletion changes - verify no breaking dependencies remain" ++
    assessment.cycles.map fun cycle =>
      s!"Break the dependency cycle between {listed cycle} before extending it"

def highRiskMonitoring : MitigationStrategy where
  id := ""
  name := "High-Risk Module Monitoring"
  description := "Implement enhanced monitoring for high-risk modules"
  priority := 9
  effort := .medium
  effectiveness := .high
  risks := ["high_risk_modules"]
  steps := ["Set up detailed logging for high-risk modules",
    "Implement health checks and alerts",
    "Create rollback procedures",
    "Schedule post-deployment monitoring"]

def coverageImprovement : MitigationStrategy where
  id := ""
  name := "Test Coverage Improvement"
  description := "Improve test coverage for affected modules"
  priority := 7
  effort := .high
  effectiveness := .high
  risks := ["poor_test_coverage"]
  steps := ["Identify critical paths in affected modules",
    "Write unit tests for core functionality",
    "Add integration tests for module interactions",
    "Run mutation testing to verify test quality"]

def pathProtection : MitigationStrategy where
  id := ""
  name := "Critical Path Protection"
  description := "Protect critical dependency paths from failures"
  priority := 8
  effort := .medium
  effectiveness := .high
  risks := ["critical_paths"]
  steps := ["Add circuit breakers on critical paths",
    "Add redundancy where possible",
    "Create fallback mechanisms",
    "Monitor path health continuously"]

def integrationTesting : MitigationStrategy where
  id := ""
  name := "Cross-Language Integration Testing"
  description := "Ensure proper integration across programming languages"
  priority := 6
  effort := .medium
  effectiveness := .medium
  risks := ["cross_language_complexity"]
  steps := ["Set up end-to-end test environments",
    "Test API contracts between languages",
    "Verify data serialization and deserialization",
    "Monitor inter-service communication"]

def stagedDeployment : MitigationStrategy where
  id := ""
  name := "Staged Deployment"
  description := "Deploy changes in stages to minimize risk"
  priority := 10
  effort := .low
  effectiveness := .high
  risks := ["overall_high_risk"]
  steps := ["Deploy to a development environment first",
    "Run the comprehensive test suite",
    "Deploy to staging with production-like data",
    "Monitor for 24 hours before production deployment",
    "Deploy to production during low-traffic periods"]

def cycleBreaking : MitigationStrategy where
  id := ""
  name := "Dependency Cycle Breaking"
  description := "Break dependency cycles so changes stop propagating in loops"
  priority := 5
  effort := .high
  effectiveness := .medium
  risks := ["dependency_cycles"]
  steps := ["Identify the weakest edge in each cycle",
    "Extract shared types into a separate module",
    "Invert the dependency behind an interface"]

/-- Each strategy, with whether the assessment calls for it. -/
def applicable (assessment : RiskAssessment α) (affected : List (AffectedModule α)) :
    List (Bool × MitigationStrategy) :=
  [(!assessment.highRiskModules.isEmpty, highRiskMonitoring),
   (affected.any isPoorlyTested, coverageImprovement),
   (!assessment.criticalPaths.isEmpty, pathProtection),
   (1 < languageCount affected, integrationTesting),
   (assessment.overall.isElevated, stagedDeployment),
   (!assessment.cycles.isEmpty, cycleBreaking)]

/-- The strategies against the risks of a change, numbered by falling priority. -/
def strategies (assessment : RiskAssessment α) (affected : List (AffectedModule α)) :
    List MitigationStrategy :=
  let chosen := ((applicable assessment affected).filter Prod.fst).map Prod.snd
  let sorted := chosen.mergeSort fun left right => right.priority ≤ left.priority
  sorted.zipIdx.map fun (strategy, index) => { strategy with id := s!"strategy_{index + 1}" }

end RiskAssessment

end ChangeImpact
