/-
This file reads and writes reports as JSON.
-/

import ChangeImpact.Interchange.Change
import ChangeImpact.Interchange.Snapshot
import ChangeImpact.Report.Basic

namespace ChangeImpact

variable {α : Type} [Json.Numeric α]

namespace AffectedModule

def fieldNames : List String :=
  ["module_path", "language", "distance_from_change", "dependency_strength", "dependency_type",
    "test_coverage", "impact_score", "risk_level", "impact_types", "reason_for_impact",
    "affected_features"]

def ofJson? (json : Json) : Option (AffectedModule α) := do
  let record ← Json.record? fieldNames json
  return {
    path := ← record.required "module_path" Json.text?
    language := ← record.required "language" Json.text?
    distance := ← record.required "distance_from_change" Json.count?
    strength := ← record.required "dependency_strength" Choice.ofJson?
    kind := ← record.optional "dependency_type" DependencyKind.ofJson?
    coverage := ← record.required "test_coverage" Json.numeric?
    score := ← record.required "impact_score" Json.numeric?
    risk := ← record.required "risk_level" Choice.ofJson?
    tags := ← record.required "impact_types" (Json.list? Choice.ofJson?)
    reason := ← record.required "reason_for_impact" Json.text?
    features := ← record.required "affected_features" (Json.list? Json.text?) }

def toJson (affected : AffectedModule α) : Json :=
  .record [("module_path", .text affected.path), ("language", .text affected.language),
    ("distance_from_change", .count affected.distance),
    ("dependency_strength", Choice.toJson affected.strength),
    ("dependency_type", .ofOption Choice.toJson affected.kind),
    ("test_coverage", .ofNumeric affected.coverage), ("impact_score", .ofNumeric affected.score),
    ("risk_level", Choice.toJson affected.risk),
    ("impact_types", .array (affected.tags.map Choice.toJson)),
    ("reason_for_impact", .text affected.reason),
    ("affected_features", .texts affected.features)]

end AffectedModule

namespace ImpactPath

def fieldNames : List String :=
  ["id", "source_module", "target_module", "path", "path_length", "total_weight", "risk_score",
    "path_type", "direction", "critical_edges", "breaking_points"]

def ofJson? (json : Json) : Option (ImpactPath α) := do
  let record ← Json.record? fieldNames json
  return {
    id := ← record.required "id" Json.text?
    source := ← record.required "source_module" Json.text?
    target := ← record.required "target_module" Json.text?
    path := ← record.required "path" (Json.list? Json.text?)
    length := ← record.required "path_length" Json.count?
    weight := ← record.required "total_weight" Json.numeric?
    risk := ← record.required "risk_score" Json.numeric?
    shape := ← record.required "path_type" Choice.ofJson?
    direction := ← record.required "direction" Choice.ofJson?
    criticalEdges := ← record.required "critical_edges" (Json.list? Json.text?)
    breakingPoints := ← record.required "breaking_points" (Json.list? Json.text?) }

def toJson (path : ImpactPath α) : Json :=
  .record [("id", .text path.id), ("source_module", .text path.source),
    ("target_module", .text path.target), ("path", .texts path.path),
    ("path_length", .count path.length), ("total_weight", .ofNumeric path.weight),
    ("risk_score", .ofNumeric path.risk), ("path_type", Choice.toJson path.shape),
    ("direction", Choice.toJson path.direction), ("critical_edges", .texts path.criticalEdges),
    ("breaking_points", .texts path.breakingPoints)]

end ImpactPath

namespace Summary

def fieldNames : List String :=
  ["total_affected_modules", "total_impact_paths", "max_impact_depth", "high_risk_modules",
    "medium_risk_modules", "low_risk_modules", "minimal_risk_modules", "cross_language_impact",
    "language_breakdown", "impact_by_depth", "estimated_effort", "overall_risk_level"]

def ofJson? (json : Json) : Option Summary := do
  let record ← Json.record? fieldNames json
  return {
    affectedModules := ← record.required "total_affected_modules" Json.count?
    impactPaths := ← record.required "total_impact_paths" Json.count?
    maxDepth := ← record.required "max_impact_depth" Json.count?
    highRisk := ← record.required "high_risk_modules" Json.count?
    mediumRisk := ← record.required "medium_risk_modules" Json.count?
    lowRisk := ← record.required "low_risk_modules" Json.count?
    minimalRisk := ← record.required "minimal_risk_modules" Json.count?
    crossLanguage := ← record.required "cross_language_impact" Json.flag?
    languages := ← record.required "language_breakdown" (Json.table? Json.count?)
    depths := ← record.required "impact_by_depth" (Json.countTable? Json.count?)
    effort := ← record.required "estimated_effort" Choice.ofJson?
    overallRisk := ← record.required "overall_risk_level" Choice.ofJson? }

def toJson (summary : Summary) : Json :=
  .record [("total_affected_modules", .count summary.affectedModules),
    ("total_impact_paths", .count summary.impactPaths),
    ("max_impact_depth", .count summary.maxDepth),
    ("high_risk_modules", .count summary.highRisk),
    ("medium_risk_modules", .count summary.mediumRisk),
    ("low_risk_modules", .count summary.lowRisk),
    ("minimal_risk_modules", .count summary.minimalRisk),
    ("cross_language_impact", .bool summary.crossLanguage),
    ("language_breakdown", .ofTable .count summary.languages),
    ("impact_by_depth", .ofCountTable .count summary.depths),
    ("estimated_effort", Choice.toJson summary.effort),
    ("overall_risk_level", Choice.toJson summary.overallRisk)]

end Summary

namespace RiskMetrics

def fieldNames : List String :=
  ["change_complexity", "impact_scope", "test_coverage_risk", "dependency_risk",
    "historical_risk", "overall_risk_score"]

def ofJson? (json : Json) : Option (RiskMetrics α) := do
  let record ← Json.record? fieldNames json
  return {
    changeComplexity := ← record.required "change_complexity" Json.numeric?
    impactScope := ← record.required "impact_scope" Json.numeric?
    testCoverageRisk := ← record.required "test_coverage_risk" Json.numeric?
    dependencyRisk := ← record.required "dependency_risk" Json.numeric?
    historicalRisk := ← record.required "historical_risk" Json.numeric?
    overall := ← record.required "overall_risk_score" Json.numeric? }

def toJson (metrics : RiskMetrics α) : Json :=
  .record [("change_complexity", .ofNumeric metrics.changeComplexity),
    ("impact_scope", .ofNumeric metrics.impactScope),
    ("test_coverage_risk", .ofNumeric metrics.testCoverageRisk),
    ("dependency_risk", .ofNumeric metrics.dependencyRisk),
    ("historical_risk", .ofNumeric metrics.historicalRisk),
    ("overall_risk_score", .ofNumeric metrics.overall)]

end RiskMetrics

namespace RiskAssessment

def fieldNames : List String :=
  ["overall_risk", "risk_factors", "mitigating_factors", "high_risk_modules", "critical_paths",
    "dependency_cycles", "risk_metrics"]

def ofJson? (json : Json) : Option (RiskAssessment α) := do
  let record ← Json.record? fieldNames json
  return {
    overall := ← record.required "overall_risk" Choice.ofJson?
    riskFactors := ← record.required "risk_factors" (Json.list? Json.text?)
    mitigatingFactors := ← record.required "mitigating_factors" (Json.list? Json.text?)
    highRiskModules := ← record.required "high_risk_modules" (Json.list? Json.text?)
    criticalPaths := ← record.required "critical_paths" (Json.list? Json.text?)
    cycles := ← record.required "dependency_cycles" (Json.list? (Json.list? Json.text?))
    metrics := ← record.required "risk_metrics" RiskMetrics.ofJson? }

def toJson (assessment : RiskAssessment α) : Json :=
  .record [("overall_risk", Choice.toJson assessment.overall),
    ("risk_factors", .texts assessment.riskFactors),
    ("mitigating_factors", .texts assessment.mitigatingFactors),
    ("high_risk_modules", .texts assessment.highRiskModules),
    ("critical_paths", .texts assessment.criticalPaths),
    ("dependency_cycles", .array (assessment.cycles.map .texts)),
    ("risk_metrics", assessment.metrics.toJson)]

end RiskAssessment

namespace TestImpact

def fieldNames : List String :=
  ["affected_test_suites", "required_test_updates", "estimated_test_effort",
    "test_coverage_gaps", "recommended_tests"]

def ofJson? (json : Json) : Option TestImpact := do
  let record ← Json.record? fieldNames json
  return {
    suites := ← record.required "affected_test_suites" (Json.list? Json.text?)
    requiredUpdates := ← record.required "required_test_updates" (Json.list? Json.text?)
    effort := ← record.required "estimated_test_effort" Choice.ofJson?
    coverageGaps := ← record.required "test_coverage_gaps" (Json.list? Json.text?)
    recommended := ← record.required "recommended_tests" (Json.list? Json.text?) }

def toJson (tests : TestImpact) : Json :=
  .record [("affected_test_suites", .texts tests.suites),
    ("required_test_updates", .texts tests.requiredUpdates),
    ("estimated_test_effort", Choice.toJson tests.effort),
    ("test_coverage_gaps", .texts tests.coverageGaps),
    ("recommended_tests", .texts tests.recommended)]

end TestImpact

namespace PerformanceImpact

def fieldNames : List String :=
  ["affected_components", "performance_risk", "recommended_benchmarks", "potential_bottlenecks"]

def ofJson? (json : Json) : Option PerformanceImpact := do
  let record ← Json.record? fieldNames json
  return {
    components := ← record.required "affected_components" (Json.list? Json.text?)
    risk := ← record.required "performance_risk" Choice.ofJson?
    benchmarks := ← record.required "recommended_benchmarks" (Json.list? Json.text?)
    bottlenecks := ← record.required "potential_bottlenecks" (Json.list? Json.text?) }

def toJson (performance : PerformanceImpact) : Json :=
  .record [("affected_components", .texts performance.components),
    ("performance_risk", Choice.toJson performance.risk),
    ("recommended_benchmarks", .texts performance.benchmarks),
    ("potential_bottlenecks", .texts performance.bottlenecks)]

end PerformanceImpact

namespace MitigationStrategy

def fieldNames : List String :=
  ["id", "name", "description", "priority", "effort", "effectiveness", "applicable_risks",
    "steps"]

def ofJson? (json : Json) : Option MitigationStrategy := do
  let record ← Json.record? fieldNames json
  return {
    id := ← record.required "id" Json.text?
    name := ← record.required "name" Json.text?
    description := ← record.required "description" Json.text?
    priority := ← record.required "priority" (Json.countBelow? 256)
    effort := ← record.required "effort" Choice.ofJson?
    effectiveness := ← record.required "effectiveness" Choice.ofJson?
    risks := ← record.required "applicable_risks" (Json.list? Json.text?)
    steps := ← record.required "steps" (Json.list? Json.text?) }

def toJson (strategy : MitigationStrategy) : Json :=
  .record [("id", .text strategy.id), ("name", .text strategy.name),
    ("description", .text strategy.description), ("priority", .count strategy.priority),
    ("effort", Choice.toJson strategy.effort),
    ("effectiveness", Choice.toJson strategy.effectiveness),
    ("applicable_risks", .texts strategy.risks), ("steps", .texts strategy.steps)]

end MitigationStrategy

namespace Report

def fieldNames : List String :=
  ["change_set", "summary", "affected_modules", "impact_paths", "risk_assessment", "test_impact",
    "performance_impact", "recommendations", "mitigation_strategies", "generated_at"]

def ofJson? (json : Json) : Option (Report α) := do
  let record ← Json.record? fieldNames json
  return {
    change := ← record.required "change_set" ChangeSet.ofJson?
    summary := ← record.required "summary" Summary.ofJson?
    affected := ← record.required "affected_modules" (Json.list? AffectedModule.ofJson?)
    paths := ← record.required "impact_paths" (Json.list? ImpactPath.ofJson?)
    assessment := ← record.required "risk_assessment" RiskAssessment.ofJson?
    tests := ← record.optional "test_impact" TestImpact.ofJson?
    performance := ← record.required "performance_impact" PerformanceImpact.ofJson?
    recommendations := ← record.required "recommendations" (Json.list? Json.text?)
    strategies :=
      ← record.required "mitigation_strategies" (Json.list? MitigationStrategy.ofJson?)
    generatedAt := ← record.required "generated_at" Timestamp.ofJson? }

def toJson (report : Report α) : Json :=
  .record [("change_set", report.change.toJson), ("summary", report.summary.toJson),
    ("affected_modules", .array (report.affected.map AffectedModule.toJson)),
    ("impact_paths", .array (report.paths.map ImpactPath.toJson)),
    ("risk_assessment", report.assessment.toJson),
    ("test_impact", .ofOption TestImpact.toJson report.tests),
    ("performance_impact", report.performance.toJson),
    ("recommendations", .texts report.recommendations),
    ("mitigation_strategies", .array (report.strategies.map MitigationStrategy.toJson)),
    ("generated_at", report.generatedAt.toJson)]

end Report

end ChangeImpact
