/-
This file reads configurations from records and writes them as JSON.
-/

import ChangeImpact.Config
import ChangeImpact.Interchange.Choice

namespace ChangeImpact

/-- How values of type `ν` give the settings of a configuration. -/
structure SettingFormat (ν α : Type) where
  record? : List String → ν → Option (Record ν)
  count? : ν → Option Nat
  flag? : ν → Option Bool
  number? : ν → Option α
  texts? : ν → Option (List String)

variable {ν α : Type} [Scalar α]

namespace RiskThresholds

def fieldNames : List String :=
  ["high_risk_threshold", "medium_risk_threshold", "low_risk_threshold"]

/-- A threshold that is not given keeps its default. -/
def read? (format : SettingFormat ν α) (value : ν) : Option (RiskThresholds α) := do
  let record ← format.record? fieldNames value
  let standard : RiskThresholds α := default
  return {
    high := ← record.withDefault "high_risk_threshold" standard.high format.number?
    medium := ← record.withDefault "medium_risk_threshold" standard.medium format.number?
    low := ← record.withDefault "low_risk_threshold" standard.low format.number? }

end RiskThresholds

namespace Config

def fieldNames : List String :=
  ["max_depth", "include_external_deps", "analyze_test_impact", "consider_weak_deps",
    "impact_threshold", "exclude_patterns", "risk_levels", "max_impact_paths"]

/-- A setting that is not given keeps its default. -/
def read? (format : SettingFormat ν α) (value : ν) : Option (Config α) := do
  let record ← format.record? fieldNames value
  let standard : Config α := default
  return {
    maxDepth := ← record.withDefault "max_depth" standard.maxDepth format.count?
    includeExternal :=
      ← record.withDefault "include_external_deps" standard.includeExternal format.flag?
    analyzeTests := ← record.withDefault "analyze_test_impact" standard.analyzeTests format.flag?
    considerWeak := ← record.withDefault "consider_weak_deps" standard.considerWeak format.flag?
    impactThreshold :=
      ← record.withDefault "impact_threshold" standard.impactThreshold format.number?
    excludePatterns :=
      ← record.withDefault "exclude_patterns" standard.excludePatterns format.texts?
    riskThresholds :=
      ← record.withDefault "risk_levels" standard.riskThresholds (RiskThresholds.read? format)
    maxPaths := ← record.withDefault "max_impact_paths" standard.maxPaths format.count? }

end Config

variable [Json.Numeric α]

def Json.settingFormat : SettingFormat Json α where
  record? := Json.record?
  count? := Json.count?
  flag? := Json.flag?
  number? := Json.numeric?
  texts? := Json.list? Json.text?

namespace RiskThresholds

def ofJson? (json : Json) : Option (RiskThresholds α) :=
  read? Json.settingFormat json

def toJson (thresholds : RiskThresholds α) : Json :=
  .record [("high_risk_threshold", .ofNumeric thresholds.high),
    ("medium_risk_threshold", .ofNumeric thresholds.medium),
    ("low_risk_threshold", .ofNumeric thresholds.low)]

end RiskThresholds

namespace Config

def ofJson? (json : Json) : Option (Config α) :=
  read? Json.settingFormat json

def toJson (config : Config α) : Json :=
  .record [("max_depth", .count config.maxDepth),
    ("include_external_deps", .bool config.includeExternal),
    ("analyze_test_impact", .bool config.analyzeTests),
    ("consider_weak_deps", .bool config.considerWeak),
    ("impact_threshold", .ofNumeric config.impactThreshold),
    ("exclude_patterns", .texts config.excludePatterns),
    ("risk_levels", config.riskThresholds.toJson),
    ("max_impact_paths", .count config.maxPaths)]

end Config

end ChangeImpact
