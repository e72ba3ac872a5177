/-
This file sums up an analysis in numbers.
-/

import ChangeImpact.Risk.Assessment
import ChangeImpact.Table

namespace ChangeImpact

structure Summary where
  affectedModules : Nat
  impactPaths : Nat
  maxDepth : Nat
  highRisk : Nat
  mediumRisk : Nat
  lowRisk : Nat
  minimalRisk : Nat
  crossLanguage : Bool
  languages : Table String Nat
  depths : Table Nat Nat
  effort : Effort
  overallRisk : OverallRisk
deriving DecidableEq, Repr

namespace Summary

variable {α : Type} [Scalar α]

def languageName (affected : AffectedModule α) : String :=
  if affected.language = "" then "unknown" else affected.language

/-- What a module at a level of risk adds to the effort. -/
def effortOfRisk : RiskLevel → α
  | .high => 3.0
  | .medium => 1.5
  | .low => 0.5
  | .minimal => 0.0

def effortFactor : OverallRisk → α
  | .critical => 2.0
  | .high => 1.5
  | .medium => 1.2
  | .low => 1.0

/-- The effort of shipping a change safely. -/
def estimateEffort (affected : List (AffectedModule α)) (overall : OverallRisk) : Effort :=
  let base : α := Scalar.ofNat affected.length * 0.5
  let added : α := Scalar.sum (affected.map fun item => effortOfRisk item.risk)
  let score := (base + added) * effortFactor overall
  if 50.0 < score then .high
  else if 20.0 < score then .medium
  else .low

def ofAnalysis (affected : List (AffectedModule α)) (paths : List (ImpactPath α))
    (overall : OverallRisk) : Summary where
  affectedModules := affected.length
  impactPaths := paths.length
  maxDepth := (affected.map AffectedModule.distance).foldl max 0
  highRisk := affected.countP (·.risk == .high)
  mediumRisk := affected.countP (·.risk == .medium)
  lowRisk := affected.countP (·.risk == .low)
  minimalRisk := affected.countP (·.risk == .minimal)
  crossLanguage := 1 < RiskAssessment.languageCount affected
  languages := .tally (affected.map languageName)
  depths := .tally (affected.map AffectedModule.distance)
  effort := estimateEffort affected overall
  overallRisk := overall

end Summary

end ChangeImpact
