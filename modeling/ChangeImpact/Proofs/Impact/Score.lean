/-
This file shows how high exact scores are, and what a valid configuration makes of the highest one.
-/

import ChangeImpact.Config
import ChangeImpact.Impact.Score
import ChangeImpact.Proofs.Scalar
import Mathlib.Tactic.Linarith

namespace ChangeImpact

namespace Impact

variable {distance : Nat} {strength : Strength} {coverage : Rat}

theorem maxScore_eq : (maxScore : Rat) = 10 := by
  norm_num [maxScore]

theorem decay_eq (distance : Nat) : (decay distance : Rat) = (4 / 5) ^ min distance decayLimit := by
  rw [decay, Scalar.power_eq_pow]
  norm_num

/-- Each step away from the change takes a fifth off. -/
theorem decay_le (far : 1 ≤ distance) : (decay distance : Rat) ≤ 4 / 5 := by
  rw [decay_eq]
  have some : min distance decayLimit ≠ 0 := by
    rw [decayLimit]
    omega
  exact pow_le_of_le_one (by norm_num) (by norm_num) some

theorem decay_nonneg (distance : Nat) : 0 ≤ (decay distance : Rat) := by
  rw [decay_eq]
  positivity

theorem coverageBoost_eq (coverage : Rat) :
    coverageBoost coverage = 1 + 1 / 10 * (1 - Scalar.clamp coverage 0 1) := by
  norm_num [coverageBoost]

theorem coverageBoost_bounds (coverage : Rat) :
    1 ≤ coverageBoost coverage ∧ coverageBoost coverage ≤ 11 / 10 := by
  have low : 0 ≤ Scalar.clamp coverage 0 1 := by
    rw [Scalar.clamp_eq zero_le_one]
    exact le_max_left _ _
  have high : Scalar.clamp coverage 0 1 ≤ 1 := by
    rw [Scalar.clamp_eq zero_le_one]
    exact max_le zero_le_one (min_le_right _ _)
  rw [coverageBoost_eq]
  constructor <;> linarith

/-- The more of a module is tested, the less is added. -/
theorem coverageBoost_antitone : Antitone (coverageBoost : Rat → Rat) := by
  intro less more below
  have clamped : Scalar.clamp less 0 1 ≤ Scalar.clamp more 0 1 := by
    rw [Scalar.clamp_eq zero_le_one, Scalar.clamp_eq zero_le_one]
    gcongr
  rw [coverageBoost_eq, coverageBoost_eq]
  linarith

theorem scoreFactor_bounds (strength : Strength) :
    0 ≤ (strength.scoreFactor : Rat) ∧ (strength.scoreFactor : Rat) ≤ 1 := by
  cases strength <;> norm_num [Strength.scoreFactor]

theorem score_eq (distance : Nat) (strength : Strength) (coverage : Rat) :
    score distance strength coverage =
      max 0 (min (10 * decay distance * strength.scoreFactor * coverageBoost coverage) 10) := by
  have zero : (0.0 : Rat) = 0 := by norm_num
  rw [score, maxScore_eq, zero, Scalar.clamp_eq (by norm_num)]

theorem score_mem_Icc (distance : Nat) (strength : Strength) (coverage : Rat) :
    score distance strength coverage ∈ Set.Icc 0 10 := by
  rw [score_eq]
  exact ⟨le_max_left _ _, max_le (by norm_num) (min_le_right _ _)⟩

/-- The more of a module is tested, the lower it scores. -/
theorem score_antitone (distance : Nat) (strength : Strength) :
    Antitone (score distance strength : Rat → Rat) := by
  intro less more below
  have nonneg := decay_nonneg distance
  have factorNonneg := (scoreFactor_bounds strength).1
  have boost := coverageBoost_antitone below
  rw [score_eq, score_eq]
  gcongr

/-- A changed module has the highest score, whatever its coverage. -/
theorem score_of_changed (coverage : Rat) : score 0 .strong coverage = 10 := by
  have full : 10 ≤ 10 * decay 0 * Strength.strong.scoreFactor * coverageBoost coverage := by
    rw [decay_eq]
    have boost := (coverageBoost_bounds coverage).1
    norm_num [Strength.scoreFactor]
    linarith
  rw [score_eq, min_eq_right full]
  norm_num

/-- All other modules score less. -/
theorem score_le (far : 1 ≤ distance) : score distance strength coverage ≤ 44 / 5 := by
  have nonneg := decay_nonneg distance
  have near := decay_le far
  obtain ⟨factorNonneg, factorLe⟩ := scoreFactor_bounds strength
  obtain ⟨boostGe, boostLe⟩ := coverageBoost_bounds coverage
  have product : 10 * decay distance * strength.scoreFactor * coverageBoost coverage ≤ 44 / 5 :=
    calc
      10 * decay distance * strength.scoreFactor * coverageBoost coverage
          ≤ 10 * (4 / 5) * 1 * (11 / 10) := by gcongr
      _ = 44 / 5 := by norm_num
  rw [score_eq]
  apply max_le (by norm_num)
  exact (min_le_left _ _).trans product

end Impact

namespace Config

theorem isScore_iff {value : Rat} : isScore value = true ↔ 0 ≤ value ∧ value ≤ 10 := by
  norm_num [isScore]

/-- The thresholds of a valid configuration are scores, and those of the risk levels are in order. -/
theorem bounds_of_exclusion? {config : Config Rat} {exclusion : Exclusion}
    (isValid : config.exclusion? = .ok exclusion) :
    0 ≤ config.riskThresholds.low ∧ config.riskThresholds.low ≤ config.riskThresholds.medium ∧
      config.riskThresholds.medium ≤ config.riskThresholds.high ∧
      config.riskThresholds.high ≤ 10 ∧ isScore config.impactThreshold = true := by
  have range : ¬ [config.riskThresholds.low, config.riskThresholds.medium,
      config.riskThresholds.high].any (!isScore ·) := by
    intro outside
    simp only [exclusion?, outside, if_true, reduceCtorEq] at isValid
  have order : ¬ (config.riskThresholds.medium < config.riskThresholds.low ∨
      config.riskThresholds.high < config.riskThresholds.medium) := by
    intro outside
    simp only [exclusion?, range, outside, if_true, if_false, reduceCtorEq] at isValid
  have impact : ¬ !isScore config.impactThreshold := by
    intro outside
    simp only [exclusion?, range, order, outside, if_true, if_false, reduceCtorEq] at isValid
  simp only [List.any_cons, List.any_nil, Bool.or_false, Bool.or_eq_true, Bool.not_eq_true',
    not_or, Bool.not_eq_false, isScore_iff] at range
  rw [not_or, not_lt, not_lt] at order
  rw [Bool.not_eq_true', Bool.not_eq_false] at impact
  exact ⟨range.1.1, order.1, order.2, range.2.2.2, impact⟩

end Config

/-- A higher score stands for no lower a risk, whether or not the thresholds are in order. -/
theorem RiskThresholds.classify_mono (thresholds : RiskThresholds Rat) {less more : Rat}
    (below : less ≤ more) : thresholds.classify less ≤ thresholds.classify more := by
  unfold classify
  -- A threshold that the lower score meets is met by the higher one.
  split_ifs <;> first | decide | exact absurd (le_trans ‹_› below) ‹_›

/-- The highest score stands for a high risk, whatever the thresholds of a valid configuration. -/
theorem RiskThresholds.classify_ten {config : Config Rat} {exclusion : Exclusion}
    (isValid : config.exclusion? = .ok exclusion) :
    config.riskThresholds.classify 10 = .high := by
  obtain ⟨_, _, _, high, _⟩ := Config.bounds_of_exclusion? isValid
  rw [classify, if_pos high]

end ChangeImpact
