/-
This file shows the range of exact risk metrics, and what makes a risk rise.
-/

import ChangeImpact.Proofs.Scalar
import ChangeImpact.Risk.Assessment
import Mathlib.Tactic.Linarith

namespace ChangeImpact

/-- The risk of a path is a score. -/
theorem ImpactPath.riskScore_mem_Icc (weight : Rat) (length : Nat) (targetScore : Rat)
    (shape : PathShape) : riskScore weight length targetScore shape ∈ Set.Icc 0 10 := by
  have low : (0.0 : Rat) = 0 := by norm_num
  have high : (10.0 : Rat) = 10 := by norm_num
  rw [riskScore, low, high]
  exact Scalar.clamp_mem_Icc (by norm_num) _

namespace RiskMetrics

theorem cap_mem_Icc {value : Rat} (nonneg : 0 ≤ value) : Scalar.cap value limit ∈ Set.Icc 0 10 := by
  have high : (limit : Rat) = 10 := by norm_num [limit]
  rw [Scalar.cap_eq_min, high]
  exact ⟨le_min nonneg (by norm_num), min_le_right _ _⟩

theorem baseline_mem_Icc (change : ChangeKind) : (baseline change : Rat) ∈ Set.Icc 0 10 := by
  rw [Set.mem_Icc]
  cases change <;> norm_num [baseline]

/-- Changes of a graver kind have been no less risky. -/
theorem baseline_mono {milder graver : ChangeKind} (graded : milder ≤ graver) :
    (baseline milder : Rat) ≤ baseline graver := by
  revert graded
  cases milder <;> cases graver <;> intro graded <;>
    first | exact absurd graded (by decide) | norm_num [baseline]

variable {affected : List (AffectedModule Rat)} {paths : List (ImpactPath Rat)}

/-- As no coverage exceeds the whole of a module, neither does the mean of them. -/
theorem coverageRisk_mem_Icc
    (shares : ∀ entry ∈ affected, entry.coverage ∈ Set.Icc 0 1) :
    coverageRisk affected ∈ Set.Icc (0 : Rat) 10 := by
  rw [coverageRisk]
  split_ifs with empty
  · norm_num
  · have nonempty : affected ≠ [] := mt List.isEmpty_iff.mpr empty
    have listed : affected.map AffectedModule.coverage ≠ [] := by simpa using nonempty
    have covered : ∀ share ∈ affected.map AffectedModule.coverage, share ∈ Set.Icc (0 : Rat) 1 := by
      simpa using shares
    obtain ⟨low, high⟩ := Scalar.mean_mem_Icc listed covered
    have scaled : (1.0 - Scalar.mean (affected.map AffectedModule.coverage)) * 10.0 =
        (1 - Scalar.mean (affected.map AffectedModule.coverage)) * 10 := by norm_num
    rw [scaled]
    constructor <;> linarith

/-- No path has a weight below zero, and neither has the mean of them. -/
theorem pathRisk_mem_Icc (weights : ∀ path ∈ paths, 0 ≤ path.weight) :
    pathRisk paths ∈ Set.Icc (0 : Rat) 10 := by
  rw [pathRisk]
  split_ifs
  · norm_num
  · apply cap_mem_Icc
    have sum : 0 ≤ (paths.map ImpactPath.weight).sum :=
      List.sum_nonneg (by simpa using weights)
    have mean : 0 ≤ Scalar.mean (paths.map ImpactPath.weight) := by
      rw [Scalar.mean, Scalar.sum_eq_sum]
      exact div_nonneg sum (Nat.cast_nonneg _)
    have half : (0.5 : Rat) = 1 / 2 := by norm_num
    have longest : (0 : Rat) ≤ Scalar.ofNat ((paths.map ImpactPath.length).foldl max 0) :=
      Nat.cast_nonneg _
    rw [half]
    linarith

/-- A metric is a number from zero to ten. -/
structure InRange (metrics : RiskMetrics Rat) : Prop where
  changeComplexity : metrics.changeComplexity ∈ Set.Icc 0 10
  impactScope : metrics.impactScope ∈ Set.Icc 0 10
  testCoverageRisk : metrics.testCoverageRisk ∈ Set.Icc 0 10
  dependencyRisk : metrics.dependencyRisk ∈ Set.Icc 0 10
  historicalRisk : metrics.historicalRisk ∈ Set.Icc 0 10
  overall : metrics.overall ∈ Set.Icc 0 10

/-- All metrics are in range if the coverages and the weights are, and so is their combination, for
its factors add up to one. -/
theorem ofChange_inRange (change : ChangeSet)
    (shares : ∀ entry ∈ affected, entry.coverage ∈ Set.Icc 0 1)
    (weights : ∀ path ∈ paths, 0 ≤ path.weight) : (ofChange change affected paths).InRange := by
  have complexity : Scalar.cap (Scalar.ofNat change.modules.length * 1.5) limit ∈
      Set.Icc (0 : Rat) 10 :=
    cap_mem_Icc (mul_nonneg (Nat.cast_nonneg _) (by norm_num))
  have scope : Scalar.cap (Scalar.ofNat affected.length * 0.5) limit ∈ Set.Icc (0 : Rat) 10 :=
    cap_mem_Icc (mul_nonneg (Nat.cast_nonneg _) (by norm_num))
  have coverage := coverageRisk_mem_Icc shares
  have dependency := pathRisk_mem_Icc weights
  have historical := baseline_mem_Icc change.kind
  refine ⟨complexity, scope, coverage, dependency, historical, ?_⟩
  have overall : (ofChange change affected paths).overall =
      2 / 10 * (ofChange change affected paths).changeComplexity +
        3 / 10 * (ofChange change affected paths).impactScope +
        2 / 10 * (ofChange change affected paths).testCoverageRisk +
        2 / 10 * (ofChange change affected paths).dependencyRisk +
        1 / 10 * (ofChange change affected paths).historicalRisk := by
    norm_num [ofChange]
  rw [overall]
  simp only [ofChange, Set.mem_Icc] at *
  constructor <;> linarith

end RiskMetrics

/-- A higher score stands for no lower a risk. -/
theorem OverallRisk.ofScore_mono {less more : Rat} (below : less ≤ more) :
    ofScore less ≤ ofScore more := by
  unfold ofScore
  -- A threshold that the lower score meets is met by the higher one.
  split_ifs <;> first | decide | exact absurd (le_trans ‹_› below) ‹_›

end ChangeImpact
