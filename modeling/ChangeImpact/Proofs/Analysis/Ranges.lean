/-
This file shows that all numbers of an exact report lie in their ranges.
-/

import ChangeImpact.Proofs.Analysis.Affected
import ChangeImpact.Proofs.Graph.PathWeight
import ChangeImpact.Proofs.Impact.Score
import ChangeImpact.Proofs.Risk.Metrics

namespace ChangeImpact

/-- The tested share of a module according to a source: none of it without a number, and otherwise
the number moved between none and all of it. -/
def CoverageSource.share (source : CoverageSource Rat) (path : String) : Rat :=
  match source path with
  | some (.ratio value) => max 0 (min value 1)
  | some (.infinite false) => 1
  | _ => 0

/-- The analysis takes this share for the coverage of a module. -/
theorem CoverageSource.coverageOf_eq_share (source : CoverageSource Rat) (path : String) :
    source.coverageOf path = source.share path := by
  have low : (0.0 : Rat) = 0 := by norm_num
  have high : (1.0 : Rat) = 1 := by norm_num
  unfold coverageOf share
  cases source path with
  | none => exact low
  | some figure =>
      cases figure with
      | ratio value =>
          change Scalar.clamp value 0.0 1.0 = _
          rw [low, high, Scalar.clamp_eq zero_le_one]
      | infinite negative =>
          cases negative with
          | true => exact low
          | false => exact high
      | notANumber => exact low

/-- Whatever figure a source gives, the share of a module that counts as tested is one. -/
theorem CoverageSource.coverageOf_mem_Icc (source : CoverageSource Rat) (path : String) :
    source.coverageOf path ∈ Set.Icc 0 1 := by
  rw [coverageOf_eq_share, share]
  split
  · exact ⟨le_max_left _ _, max_le zero_le_one (min_le_right _ _)⟩
  · norm_num
  · norm_num

/-- Coverages are shares, scores and metrics go up to ten, and a path weighs as much as its
dependencies can. -/
structure Report.InRange (report : Report Rat) : Prop where
  coverage : ∀ entry ∈ report.affected, entry.coverage ∈ Set.Icc 0 1
  score : ∀ entry ∈ report.affected, entry.score ∈ Set.Icc 0 10
  risk : ∀ path ∈ report.paths, path.risk ∈ Set.Icc 0 10
  weight : ∀ path ∈ report.paths, path.weight ∈
    Set.Icc (3 / 10 * path.length : Rat) (3 * path.length)
  metrics : report.assessment.metrics.InRange

namespace Analyzer

variable {analyzer : Analyzer Rat} {change : ChangeSet} {snapshot : Snapshot}
  {coverage : CoverageSource Rat} {now : Timestamp} {report : Report Rat}

/-- All numbers of a report lie in their ranges, whatever figures the source of coverage gives. -/
theorem analyze_inRange (analyzed : analyzer.analyze change snapshot coverage now = .ok report) :
    report.InRange := by
  have shares : ∀ entry ∈ report.affected, entry.coverage ∈ Set.Icc 0 1 := by
    intro entry member
    rw [affected_of_analyze analyzed] at member
    obtain ⟨record, _, _, rfl⟩ := mem_affectedBy_iff.mp member
    exact coverage.coverageOf_mem_Icc record.path
  have weights : ∀ path ∈ report.paths,
      path.weight ∈ Set.Icc (3 / 10 * path.length : Rat) (3 * path.length) := by
    intro path member
    obtain ⟨number, connection, describes⟩ :=
      exists_describe_of_mem (paths_of_analyze analyzed) member
    obtain ⟨weighed, length, _⟩ := weight_of_describe describes
    rw [length]
    exact Graph.pathWeight_mem_Icc weighed
  refine ⟨shares, ?_, ?_, weights, ?_⟩
  · intro entry member
    rw [affected_of_analyze analyzed] at member
    obtain ⟨record, _, _, rfl⟩ := mem_affectedBy_iff.mp member
    exact Impact.score_mem_Icc _ _ _
  · intro path member
    obtain ⟨number, connection, describes⟩ :=
      exists_describe_of_mem (paths_of_analyze analyzed) member
    rw [(weight_of_describe describes).2.2]
    exact ImpactPath.riskScore_mem_Icc _ _ _ _
  · have nonneg : ∀ path ∈ report.paths, 0 ≤ path.weight := by
      intro path member
      have least : (0 : Rat) ≤ 3 / 10 * path.length := by positivity
      exact least.trans (weights path member).1
    rw [assessment_of_analyze analyzed]
    exact RiskMetrics.ofChange_inRange change shares nonneg

section Sample

/-- This source gives no sound figure for any module. -/
def unsound : CoverageSource Rat := fun path =>
  if path = "a" then some .notANumber else some (.infinite false)

/-- In the chain all numbers are in range, although the coverage is unsound. -/
theorem analyze_inRange_chain :
    ∃ report, plain.analyze firstChanged chain unsound default = .ok report ∧
      report.InRange := by
  obtain ⟨report, analyzed⟩ := exists_report plain unsound default checkInputs_chain
  exact ⟨report, analyzed, analyze_inRange analyzed⟩

end Sample

end Analyzer

end ChangeImpact
