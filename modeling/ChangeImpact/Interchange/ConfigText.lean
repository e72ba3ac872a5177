/-
This file reads configurations from YAML text and writes them.
-/

import ChangeImpact.Error
import ChangeImpact.Interchange.Config
import ChangeImpact.Yaml.Document
import ChangeImpact.Yaml.Style

namespace ChangeImpact

variable {α : Type} [Scalar α] [Yaml.Numeric α]

def Yaml.Document.settingFormat (document : Yaml.Document) : SettingFormat Yaml.Node α where
  record? := document.record?
  count? := document.count?
  flag? := document.flag?
  number? := document.numeric?
  texts? := document.list? document.text?

namespace Config

/-- The valid configuration that a text gives. -/
def ofText? (text : String) : Except (ConfigError α) (Config α) := do
  match Yaml.Document.parse? text with
  | none => throw .unreadable
  | some document =>
    match read? document.settingFormat document.root with
    | none => throw .unreadable
    | some config =>
      config.validate
      return config

/-- The text of a configuration, valid or not. -/
def toText (config : Config α) : String :=
  let thresholds := config.riskThresholds
  String.ofList <|
    Yaml.writeField "max_depth" (Yaml.writeCount config.maxDepth) ++
    Yaml.writeField "include_external_deps" (Yaml.writeFlag config.includeExternal) ++
    Yaml.writeField "analyze_test_impact" (Yaml.writeFlag config.analyzeTests) ++
    Yaml.writeField "consider_weak_deps" (Yaml.writeFlag config.considerWeak) ++
    Yaml.writeField "impact_threshold" (Yaml.Numeric.write config.impactThreshold) ++
    Yaml.writeTexts "exclude_patterns" config.excludePatterns ++
    Yaml.writeRecord "risk_levels" [
      ("high_risk_threshold", Yaml.Numeric.write thresholds.high),
      ("medium_risk_threshold", Yaml.Numeric.write thresholds.medium),
      ("low_risk_threshold", Yaml.Numeric.write thresholds.low)] ++
    Yaml.writeField "max_impact_paths" (Yaml.writeCount config.maxPaths)

end Config

end ChangeImpact
