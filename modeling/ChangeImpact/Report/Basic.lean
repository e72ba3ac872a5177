/-
This file defines the report of an analysis.
-/

import ChangeImpact.Estimate.Performance
import ChangeImpact.Estimate.Tests
import ChangeImpact.Report.Advice
import ChangeImpact.Report.Summary

namespace ChangeImpact

structure Report (α : Type) where
  change : ChangeSet
  summary : Summary
  /-- The modules of the highest score come first. -/
  affected : List (AffectedModule α)
  /-- The paths of the highest risk come first. -/
  paths : List (ImpactPath α)
  assessment : RiskAssessment α
  /-- Absent if the configuration does not ask for it. -/
  tests : Option TestImpact
  performance : PerformanceImpact
  recommendations : List String
  strategies : List MitigationStrategy
  generatedAt : Timestamp
deriving DecidableEq, Repr

namespace Report

variable {α : Type}

/-- The affected module of a path. -/
def module? (report : Report α) (path : String) : Option (AffectedModule α) :=
  report.affected.find? fun affected => affected.path == path

end Report

end ChangeImpact
