/-
This file shows how exact scores fall with the distance and rise with the strength, and in which
band of scores each level of risk lies.
-/

import ChangeImpact.Proofs.Impact.Score
import Mathlib.Tactic.Ring

namespace ChangeImpact

namespace Impact

variable {distance nearer farther : Nat} {strength weaker stronger : Strength} {coverage : Rat}

theorem decay_pos (distance : Nat) : 0 < (decay distance : Rat) := by
  rw [decay_eq]
  positivity

/-- One step further takes a fifth off, up to the limit. -/
theorem decay_succ (near : distance < decayLimit) :
    (decay (distance + 1) : Rat) = 4 / 5 * decay distance := by
  rw [decay_eq, decay_eq, min_eq_left near, min_eq_left near.le, pow_succ, mul_comm]

/-- From the limit on nothing is taken off any more. -/
theorem decay_succ_of_le (far : decayLimit ≤ distance) :
    (decay (distance + 1) : Rat) = decay distance := by
  rw [decay_eq, decay_eq, min_eq_right far, min_eq_right (Nat.le_succ_of_le far)]

theorem scoreFactor_pos (strength : Strength) : 0 < (strength.scoreFactor : Rat) := by
  cases strength <;> norm_num [Strength.scoreFactor]

theorem scoreFactor_mono (below : weaker ≤ stronger) :
    (weaker.scoreFactor : Rat) ≤ stronger.scoreFactor := by
  cases weaker <;> cases stronger <;>
    first
    | exact absurd below (by decide)
    | norm_num [Strength.scoreFactor]

/-- This is the score before it is brought down to the highest one. -/
def rawScore (distance : Nat) (strength : Strength) (coverage : Rat) : Rat :=
  10 * decay distance * strength.scoreFactor * coverageBoost coverage

theorem rawScore_pos (distance : Nat) (strength : Strength) (coverage : Rat) :
    0 < rawScore distance strength coverage := by
  have decayPos := decay_pos distance
  have factorPos := scoreFactor_pos strength
  have boostPos : 0 < coverageBoost coverage :=
    zero_lt_one.trans_le (coverageBoost_bounds coverage).1
  rw [rawScore]
  positivity

theorem rawScore_le (distance : Nat) (strength : Strength) (coverage : Rat) :
    rawScore distance strength coverage ≤ 11 := by
  have decayLe : (decay distance : Rat) ≤ 1 := by
    rw [decay_eq]
    exact pow_le_one₀ (by norm_num) (by norm_num)
  have decayPos := decay_pos distance
  obtain ⟨factorNonneg, factorLe⟩ := scoreFactor_bounds strength
  obtain ⟨boostGe, boostLe⟩ := coverageBoost_bounds coverage
  calc rawScore distance strength coverage
      ≤ 10 * 1 * 1 * (11 / 10) := by
        rw [rawScore]
        gcongr
    _ = 11 := by norm_num

theorem rawScore_succ (near : distance < decayLimit) :
    rawScore (distance + 1) strength coverage = 4 / 5 * rawScore distance strength coverage := by
  rw [rawScore, rawScore, decay_succ near]
  ring

theorem score_eq_min (distance : Nat) (strength : Strength) (coverage : Rat) :
    score distance strength coverage = min (rawScore distance strength coverage) 10 := by
  rw [score_eq, rawScore, max_eq_right]
  exact le_min (rawScore_pos distance strength coverage).le (by norm_num)

/-- Up to the limit each step further lowers the score. A score that is brought down to the highest
one is no exception, as it was too high by less than a fifth. -/
theorem score_succ_lt (near : distance < decayLimit) :
    score (distance + 1) strength coverage < score distance strength coverage := by
  have positive := rawScore_pos distance strength coverage
  have bounded := rawScore_le distance strength coverage
  rw [score_eq_min, score_eq_min, rawScore_succ near]
  refine (min_le_left _ _).trans_lt (lt_min ?_ ?_)
  · linarith
  · linarith

/-- From the limit on the score stays the same. -/
theorem score_succ_of_le (far : decayLimit ≤ distance) :
    score (distance + 1) strength coverage = score distance strength coverage := by
  rw [score_eq_min, score_eq_min, rawScore, rawScore, decay_succ_of_le far]

theorem score_antitone_distance (strength : Strength) (coverage : Rat) :
    Antitone fun distance => score distance strength coverage := by
  refine antitone_nat_of_succ_le fun distance => ?_
  by_cases near : distance < decayLimit
  · exact (score_succ_lt near).le
  · exact (score_succ_of_le (Nat.le_of_not_lt near)).le

/-- The stronger the dependency, the higher the score. -/
theorem score_mono_strength (below : weaker ≤ stronger) (distance : Nat) (coverage : Rat) :
    score distance weaker coverage ≤ score distance stronger coverage := by
  have decayPos := decay_pos distance
  have factor := scoreFactor_mono below
  have boostGe := (coverageBoost_bounds coverage).1
  rw [score_eq_min, score_eq_min, rawScore, rawScore]
  gcongr

end Impact

namespace RiskThresholds

/-- Each level stands for the scores from its threshold on that are below all higher thresholds. -/
structure Banded (thresholds : RiskThresholds Rat) : Prop where
  high : ∀ score, thresholds.classify score = .high ↔ thresholds.high ≤ score
  medium : ∀ score, thresholds.classify score = .medium ↔
    thresholds.medium ≤ score ∧ score < thresholds.high
  low : ∀ score, thresholds.classify score = .low ↔
    thresholds.low ≤ score ∧ score < thresholds.medium
  minimal : ∀ score, thresholds.classify score = .minimal ↔ score < thresholds.low

/-- Thresholds in order make bands, since a score below one of them is below all higher ones. -/
theorem banded_of_ordered {thresholds : RiskThresholds Rat}
    (lowest : thresholds.low ≤ thresholds.medium) (highest : thresholds.medium ≤ thresholds.high) :
    thresholds.Banded := by
  constructor <;> intro score <;> unfold classify <;> split_ifs
  all_goals grind

end RiskThresholds

theorem Config.exists_exclusion_of_validate {config : Config Rat}
    (isValid : config.validate = .ok ()) : ∃ exclusion, config.exclusion? = .ok exclusion := by
  rw [validate] at isValid
  cases read : config.exclusion? with
  | error error =>
      rw [read] at isValid
      cases isValid
  | ok exclusion => exact ⟨exclusion, rfl⟩

namespace Impact

/-- Exact scores lie between zero and ten. They fall with every step away from the change until the
decay ends, they do not rise with the coverage, and they do not fall with the strength. Valid
thresholds put every score into the band of its level, so that a nearer module has no lower a score
and no lower a risk than one that is as strongly coupled and as well tested. -/
theorem score_graded :
    (∀ (distance : Nat) (strength : Strength) (coverage : Rat),
      score distance strength coverage ∈ Set.Icc 0 10 ∧
      (distance < decayLimit →
        score (distance + 1) strength coverage < score distance strength coverage) ∧
      (decayLimit ≤ distance →
        score (distance + 1) strength coverage = score distance strength coverage)) ∧
    (∀ (distance : Nat) (strength : Strength), Antitone (score distance strength : Rat → Rat)) ∧
    (∀ (distance : Nat) (weaker stronger : Strength) (coverage : Rat), weaker ≤ stronger →
      score distance weaker coverage ≤ score distance stronger coverage) ∧
    ∀ config : Config Rat, config.validate = .ok () →
      config.riskThresholds.Banded ∧
      (∀ less more : Rat, less ≤ more →
        config.riskThresholds.classify less ≤ config.riskThresholds.classify more) ∧
      ∀ (nearer farther : Nat) (strength : Strength) (coverage : Rat), nearer ≤ farther →
        score farther strength coverage ≤ score nearer strength coverage ∧
        config.riskThresholds.classify (score farther strength coverage) ≤
          config.riskThresholds.classify (score nearer strength coverage) := by
  refine ⟨fun distance strength coverage => ?_, score_antitone, ?_, fun config isValid => ?_⟩
  · exact ⟨score_mem_Icc distance strength coverage, score_succ_lt, score_succ_of_le⟩
  · intro distance weaker stronger coverage below
    exact score_mono_strength below distance coverage
  · obtain ⟨exclusion, read⟩ := Config.exists_exclusion_of_validate isValid
    obtain ⟨_, lowest, highest, _⟩ := Config.bounds_of_exclusion? read
    refine ⟨RiskThresholds.banded_of_ordered lowest highest, fun less more below => ?_, ?_⟩
    · exact config.riskThresholds.classify_mono below
    · intro nearer farther strength coverage near
      have falls := score_antitone_distance strength coverage near
      exact ⟨falls, config.riskThresholds.classify_mono falls⟩

/-- Where the decay has ended, one step further does not lower the score. -/
theorem not_score_lt_beyond_decay :
    ¬ score 2147483648 .strong (1 : Rat) < score 2147483647 .strong 1 := by
  have same : score 2147483648 .strong (1 : Rat) = score 2147483647 .strong 1 :=
    @score_succ_of_le 2147483647 .strong 1 (by decide)
  exact same.not_lt

end Impact

end ChangeImpact
