/-
This file shows that every type of value is exchanged as JSON without loss.
-/

import ChangeImpact.Interchange.Config
import ChangeImpact.Proofs.Interchange.Report

namespace ChangeImpact

open Decimal (wordLimit)

namespace RiskThresholds

def numbers (thresholds : RiskThresholds Float) : List Float :=
  [thresholds.high, thresholds.medium, thresholds.low]

def codec : Codec (RiskThresholds Float) where
  toJson := toJson
  ofJson? := ofJson?
  numbers := numbers

theorem isLawful_codec : codec.IsLawful where
  isSound thresholds := by simp [codec, toJson]
  restores thresholds _ exact := by
    have number : ∀ number ∈ thresholds.numbers, Json.numeric? (.ofNumeric number) = some number :=
      exact
    simp only [numbers, List.forall_mem_cons] at number
    simp [codec, ofJson?, read?, toJson, Json.settingFormat, Json.record?_record,
      Record.withDefault, number]
  fits _ := trivial
  finite read := by
    simp only [codec, ofJson?, read?, Option.bind_eq_bind, Option.bind_eq_some_iff] at read
    obtain ⟨record, -, _, high, _, medium, _, low, made⟩ := read
    cases made
    have high := Record.isFinite_of_withDefault (by decide +kernel) high
    have medium := Record.isFinite_of_withDefault (by decide +kernel) medium
    have low := Record.isFinite_of_withDefault (by decide +kernel) low
    simp [codec, numbers, high, medium, low]

end RiskThresholds

namespace Config

def codec : Codec (Config Float) where
  toJson := toJson
  ofJson? := ofJson?
  Fits config := config.maxDepth < wordLimit ∧ config.maxPaths < wordLimit
  numbers config := config.impactThreshold :: config.riskThresholds.numbers

theorem exists_of_ofJson? {json : Json} {config : Config Float}
    (read : ofJson? json = some config) : ∃ record : Record Json,
      record.withDefault "max_depth" 10 Json.count? = some config.maxDepth ∧
      record.withDefault "impact_threshold" (0.1 : Float) Json.numeric? =
        some config.impactThreshold ∧
      record.withDefault "risk_levels" default RiskThresholds.ofJson? =
        some config.riskThresholds ∧
      record.withDefault "max_impact_paths" 100 Json.count? = some config.maxPaths := by
  simp only [ofJson?, read?, Option.bind_eq_bind, Option.bind_eq_some_iff] at read
  obtain ⟨record, -, _, depth, _, -, _, -, _, -, _, threshold, _, -, _, levels, _, paths, made⟩ :=
    read
  cases made
  exact ⟨record, depth, threshold, levels, paths⟩

theorem isLawful_codec : codec.IsLawful where
  isSound config := by
    have thresholds : config.riskThresholds.toJson.IsSound :=
      RiskThresholds.isLawful_codec.isSound config.riskThresholds
    simp [codec, toJson, thresholds]
  restores config fits exact := by
    obtain ⟨thresholdExact, levelsExact⟩ := List.forall_mem_cons.mp exact
    have threshold : Json.numeric? (.ofNumeric config.impactThreshold) =
        some config.impactThreshold := thresholdExact
    have levels : RiskThresholds.read? Json.settingFormat config.riskThresholds.toJson =
        some config.riskThresholds :=
      RiskThresholds.isLawful_codec.restores config.riskThresholds trivial levelsExact
    have depth : Json.count? (.count config.maxDepth) = some config.maxDepth :=
      Json.countBelow?_count fits.1
    have paths : Json.count? (.count config.maxPaths) = some config.maxPaths :=
      Json.countBelow?_count fits.2
    rw [Json.settingFormat] at levels
    simp [codec, ofJson?, read?, toJson, Json.settingFormat, Json.record?_record,
      Record.withDefault, threshold, levels, depth, paths]
  fits read := by
    obtain ⟨record, depth, -, -, paths⟩ := exists_of_ofJson? read
    have small : ∀ {name standard value}, standard < wordLimit →
        record.withDefault name standard Json.count? = some value → value < wordLimit := by
      intro name standard value small found
      rcases Record.exists_of_withDefault found with rfl | ⟨_, given⟩
      · exact small
      · exact Json.lt_of_countBelow? given
    exact ⟨small (by decide) depth, small (by decide) paths⟩
  finite read := by
    obtain ⟨record, -, threshold, levels, -⟩ := exists_of_ofJson? read
    refine List.forall_mem_cons.mpr
      ⟨Record.isFinite_of_withDefault (by decide +kernel) threshold, ?_⟩
    rcases Record.exists_of_withDefault levels with standard | ⟨_, given⟩
    · rw [standard]
      decide +kernel
    · exact RiskThresholds.isLawful_codec.finite given

end Config

/-- A type of values that are exchanged as JSON. -/
inductive Form where
  | strength | dependencyKind | dependency | moduleInfo | snapshot | changeKind | changeSet
  | riskLevel | impactTag | affectedModule | direction | pathShape | impactPath | overallRisk
  | effort | summary | riskMetrics | riskAssessment | testImpact | performanceImpact
  | mitigationStrategy | report | riskThresholds | config

namespace Form

/-- The values of a form. -/
def Value : Form → Type
  | .strength => Strength
  | .dependencyKind => DependencyKind
  | .dependency => Dependency
  | .moduleInfo => ModuleInfo
  | .snapshot => Snapshot
  | .changeKind => ChangeKind
  | .changeSet => ChangeSet
  | .riskLevel => RiskLevel
  | .impactTag => ImpactTag
  | .affectedModule => AffectedModule Float
  | .direction => Direction
  | .pathShape => PathShape
  | .impactPath => ImpactPath Float
  | .overallRisk => OverallRisk
  | .effort => Effort
  | .summary => Summary
  | .riskMetrics => RiskMetrics Float
  | .riskAssessment => RiskAssessment Float
  | .testImpact => TestImpact
  | .performanceImpact => PerformanceImpact
  | .mitigationStrategy => MitigationStrategy
  | .report => Report Float
  | .riskThresholds => RiskThresholds Float
  | .config => Config Float

def codec : (form : Form) → Codec form.Value
  | .strength => .choice Strength
  | .dependencyKind => DependencyKind.codec
  | .dependency => Dependency.codec
  | .moduleInfo => ModuleInfo.codec
  | .snapshot => Snapshot.codec
  | .changeKind => .choice ChangeKind
  | .changeSet => ChangeSet.codec
  | .riskLevel => .choice RiskLevel
  | .impactTag => .choice ImpactTag
  | .affectedModule => AffectedModule.codec
  | .direction => .choice Direction
  | .pathShape => .choice PathShape
  | .impactPath => ImpactPath.codec
  | .overallRisk => .choice OverallRisk
  | .effort => .choice Effort
  | .summary => Summary.codec
  | .riskMetrics => RiskMetrics.codec
  | .riskAssessment => RiskAssessment.codec
  | .testImpact => TestImpact.codec
  | .performanceImpact => PerformanceImpact.codec
  | .mitigationStrategy => MitigationStrategy.codec
  | .report => Report.codec
  | .riskThresholds => RiskThresholds.codec
  | .config => Config.codec

theorem isLawful_codec : (form : Form) → form.codec.IsLawful
  | .strength => Codec.isLawful_choice Strength
  | .dependencyKind => DependencyKind.isLawful_codec
  | .dependency => Dependency.isLawful_codec
  | .moduleInfo => ModuleInfo.isLawful_codec
  | .snapshot => Snapshot.isLawful_codec
  | .changeKind => Codec.isLawful_choice ChangeKind
  | .changeSet => ChangeSet.isLawful_codec
  | .riskLevel => Codec.isLawful_choice RiskLevel
  | .impactTag => Codec.isLawful_choice ImpactTag
  | .affectedModule => AffectedModule.isLawful_codec
  | .direction => Codec.isLawful_choice Direction
  | .pathShape => Codec.isLawful_choice PathShape
  | .impactPath => ImpactPath.isLawful_codec
  | .overallRisk => Codec.isLawful_choice OverallRisk
  | .effort => Codec.isLawful_choice Effort
  | .summary => Summary.isLawful_codec
  | .riskMetrics => RiskMetrics.isLawful_codec
  | .riskAssessment => RiskAssessment.isLawful_codec
  | .testImpact => TestImpact.isLawful_codec
  | .performanceImpact => PerformanceImpact.isLawful_codec
  | .mitigationStrategy => MitigationStrategy.isLawful_codec
  | .report => Report.isLawful_codec
  | .riskThresholds => RiskThresholds.isLawful_codec
  | .config => Config.isLawful_codec

/-- A value whose counts fit their types and whose numbers are finite is read back from its text,
and every value that is read from some text is read back from its own. -/
theorem decode?_encode (form : Form) (value : form.Value)
    (exact : ∀ number ∈ form.codec.numbers value, number.isFinite → Json.ReadsBack number) :
    (form.codec.Fits value → (∀ number ∈ form.codec.numbers value, number.isFinite) →
      form.codec.decode? (form.codec.encode value) = some value) ∧
    ∀ text, form.codec.decode? text = some value →
      form.codec.decode? (form.codec.encode value) = some value :=
  ⟨fun fits finite => form.isLawful_codec.restores_text fits fun number member =>
      exact number member (finite number member),
    fun _ read => form.isLawful_codec.restores_text_of_decode? exact read⟩

/-- Thresholds of which only the first is not the default. -/
theorem decode?_encode_thresholds :
    let thresholds : RiskThresholds Float := { (default : RiskThresholds Float) with high := 8.25 }
    (∀ number ∈ RiskThresholds.codec.numbers thresholds,
      number.isFinite ∧ Json.ReadsBack number) ∧
    RiskThresholds.codec.decode? "\x7b\"high_risk_threshold\": 825e-2\x7d" = some thresholds ∧
    RiskThresholds.codec.decode? (RiskThresholds.codec.encode thresholds) = some thresholds := by
  intro thresholds
  have numbers : ∀ number ∈ RiskThresholds.codec.numbers thresholds,
      number.isFinite ∧ Json.ReadsBack number := by
    simp only [RiskThresholds.codec, Json.ReadsBack]
    decide +kernel
  have read : RiskThresholds.codec.decode? "\x7b\"high_risk_threshold\": 825e-2\x7d" =
      some thresholds := by
    decide +kernel
  have restored := decode?_encode .riskThresholds thresholds fun number member _ =>
    (numbers number member).2
  exact ⟨numbers, read, restored.1 trivial fun number member => (numbers number member).1⟩

end Form

end ChangeImpact
