/-
This file estimates what a change means for the tests of the affected modules.
-/

import ChangeImpact.Distinct
import ChangeImpact.Impact.Module
import ChangeImpact.Text.Casing
import ChangeImpact.Text.Segment

namespace ChangeImpact

structure TestImpact where
  suites : List String
  requiredUpdates : List String
  effort : Effort
  coverageGaps : List String
  recommended : List String
deriving DecidableEq, Repr

namespace TestImpact

/-- How the tests of a module are named in a language. -/
def suiteName (path language : String) : String :=
  match language with
  | "javascript" | "typescript" => Text.replaceSlashes '.' path ++ ".test.js"
  | "python" => "test_" ++ Text.replaceSlashes '_' path ++ ".py"
  | "java" => String.join ((Text.segments path).map Text.capitalize) ++ "Test.java"
  | "rust" => s!"{Text.lastSegment path}_tests"
  | _ => s!"{Text.lastSegment path}_test"

/-- The tests that a tag calls for. -/
def recommendation? (path : String) : ImpactTag → Option String
  | .compile => some s!"Run compilation tests for {path}"
  | .runtime => some s!"Run integration tests for {path}"
  | .interface => some s!"Run contract tests for {path}"
  | .behavior => some s!"Run behavioral tests for {path}"
  | .breaking => some s!"Run full test suite for {path} - breaking changes detected"
  | _ => none

variable {α : Type} [Scalar α]

/-- How much of a module there is to test again. -/
def effortFactor : ChangeKind → α
  | .deletion => 1.5
  | .modification => 1.0
  | .addition => 0.8

def atRisk (level : RiskLevel) (affected : List (AffectedModule α)) : Nat :=
  affected.countP (·.risk == level)

/-- The effort of testing a change: high for more than twenty weighted modules or more than five at
high risk, medium for more than five weighted modules, any at high risk or a deletion. -/
def estimateEffort (affected : List (AffectedModule α)) (change : ChangeKind) : Effort :=
  let weighted : α := Scalar.ofNat affected.length * effortFactor change
  let highRisk := atRisk .high affected
  if 20.0 < weighted ∨ 5 < highRisk then .high
  else if 5.0 < weighted ∨ 1 ≤ highRisk ∨ change = .deletion then .medium
  else .low

/-- A module with less coverage than this has a gap. -/
def gapThreshold : α := 0.7

def ofAffected (change : ChangeKind) (affected : List (AffectedModule α)) : TestImpact where
  suites := distinct (affected.map fun item => suiteName item.path item.language)
  requiredUpdates :=
    distinct ((affected.filter fun item => item.distance ≤ 1).map AffectedModule.path)
  effort := estimateEffort affected change
  coverageGaps :=
    distinct ((affected.filter fun item => decide (item.coverage < gapThreshold)).map
      AffectedModule.path)
  recommended :=
    distinct (affected.flatMap fun item => item.tags.filterMap (recommendation? item.path))

end TestImpact

end ChangeImpact
