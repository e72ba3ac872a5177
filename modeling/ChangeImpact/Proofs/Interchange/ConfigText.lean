/-
This file shows that a configuration is read back from the text that it is written as.
-/

import ChangeImpact.Proofs.CommandLine.Files
import ChangeImpact.Proofs.Yaml.Document

namespace ChangeImpact

namespace Config

open Yaml Yaml.Node

section Fields

/-- The fields of the thresholds as they are written. -/
def thresholdFields (thresholds : RiskThresholds Float) : List (String × List Char) :=
  [("high_risk_threshold", Numeric.write thresholds.high),
    ("medium_risk_threshold", Numeric.write thresholds.medium),
    ("low_risk_threshold", Numeric.write thresholds.low)]

/-- The plain fields before the list of patterns. -/
def firstFields (config : Config Float) : List (String × List Char) :=
  [("max_depth", writeCount config.maxDepth),
    ("include_external_deps", writeFlag config.includeExternal),
    ("analyze_test_impact", writeFlag config.analyzeTests),
    ("consider_weak_deps", writeFlag config.considerWeak),
    ("impact_threshold", Numeric.write config.impactThreshold)]

/-- The fields of a configuration as they are written. -/
def yamlFields (config : Config Float) : List Field :=
  config.firstFields.map Field.plain ++
    [Field.texts "exclude_patterns" config.excludePatterns,
      Field.record "risk_levels" (thresholdFields config.riskThresholds),
      Field.plain ("max_impact_paths", writeCount config.maxPaths)]

variable (config : Config Float)

theorem toList_toText : config.toText.toList =
    (config.firstFields.flatMap fun field => writeField field.1 field.2) ++
      (writeTexts "exclude_patterns" config.excludePatterns ++
        (writeRecord "risk_levels" (thresholdFields config.riskThresholds) ++
          writeField "max_impact_paths" (writeCount config.maxPaths))) := by
  simp [toText, firstFields, thresholdFields]

theorem isPlainField_firstFields : ∀ field ∈ config.firstFields, Line.IsPlainField field := by
  simp only [firstFields, List.forall_mem_cons, List.not_mem_nil, false_imp_iff, implies_true,
    and_true]
  exact ⟨Line.isPlainField_of_isSimple (by decide) (isKept_writeCount _),
    Line.isPlainField_of_isSimple (by decide) (isKept_writeFlag _),
    Line.isPlainField_of_isSimple (by decide) (isKept_writeFlag _),
    Line.isPlainField_of_isSimple (by decide) (isKept_writeFlag _),
    Line.isPlainField_of_isSimple (by decide) (isKept_write _)⟩

theorem isPlainField_thresholdFields (thresholds : RiskThresholds Float) :
    ∀ field ∈ thresholdFields thresholds, Line.IsPlainField field := by
  simp only [thresholdFields, List.forall_mem_cons, List.not_mem_nil, false_imp_iff, implies_true,
    and_true]
  exact ⟨Line.isPlainField_of_isSimple (by decide) (isKept_write _),
    Line.isPlainField_of_isSimple (by decide) (isKept_write _),
    Line.isPlainField_of_isSimple (by decide) (isKept_write _)⟩

theorem isPlainField_maxPaths :
    Line.IsPlainField ("max_impact_paths", writeCount config.maxPaths) :=
  Line.isPlainField_of_isSimple (by decide) (isKept_writeCount _)

theorem isName_patterns : Line.IsName "exclude_patterns" :=
  Line.isName_of_isSimple (by decide)

theorem isName_levels : Line.IsName "risk_levels" :=
  Line.isName_of_isSimple (by decide)

theorem isUnescaped_toText : isUnescaped config.toText.toList := by
  have paths := Line.isUnescaped_writeField config.isPlainField_maxPaths
  rw [toList_toText]
  simp only [isUnescaped_append]
  exact ⟨Line.isUnescaped_flatMap fun field member =>
      Line.isUnescaped_writeField (config.isPlainField_firstFields field member),
    Line.isUnescaped_writeTexts isName_patterns _,
    Line.isUnescaped_writeRecord isName_levels (isPlainField_thresholdFields _), paths⟩

/-- The text of a configuration has the tokens of its fields. -/
theorem tokens?_toText : tokens? config.toText =
    some (.blockMappingStart :: (config.yamlFields.flatMap Field.allTokens ++ [.blockEnd])) := by
  have plain := config.isPlainField_firstFields
  obtain ⟨first, others, fields⟩ : ∃ first others, config.firstFields = first :: others :=
    ⟨_, _, rfl⟩
  rw [fields] at plain
  have spelled : config.toText.toList = writeField first.1 first.2 ++
      ((others.flatMap fun field => List.replicate 0 ' ' ++ writeField field.1 field.2) ++
        (List.replicate 0 ' ' ++ (writeTexts "exclude_patterns" config.excludePatterns ++
          (writeRecord "risk_levels" (thresholdFields config.riskThresholds) ++
            (writeField "max_impact_paths" (writeCount config.maxPaths) ++
              (List.replicate 0 ' ' ++ [])))))) := by
    rw [toList_toText, fields]
    simp
  have listed : Token.blockMappingStart ::
      (config.yamlFields.flatMap Field.allTokens ++ [.blockEnd]) =
    ([] : List Token) ++ (Layout.startAt 0 [] ++ (first :: others).flatMap fun field =>
      Line.fieldTokens field.1 field.2) ++
      Line.textsTokens "exclude_patterns" config.excludePatterns ++
      Line.recordTokens "risk_levels" (thresholdFields config.riskThresholds) ++
      (Layout.startAt 0 [0] ++
        Line.fieldTokens "max_impact_paths" (writeCount config.maxPaths)) ++ [.blockEnd] := by
    rw [← fields]
    simp [yamlFields, List.flatMap_map, Field.allTokens_texts,
      Field.allTokens_record, Field.allTokens_plain, Layout.startAt]
  rw [listed]
  refine Line.tokens?_eq config.isUnescaped_toText ?_
  rw [spelled]
  have startsPaths := Line.starts_writeField config.isPlainField_maxPaths
    (List.replicate 0 ' ' ++ [])
  refine (Line.leads_fields plain (Line.starts_writeTexts isName_patterns _ _) (by simp)
    (Nat.le_refl 0)).trans ?_
  refine (Line.leads_texts isName_patterns _
    (Line.starts_writeRecord isName_levels _ _)).trans ?_
  refine (Line.leads_record isName_levels (isPlainField_thresholdFields _)
    startsPaths).trans ?_
  exact Line.leads_field config.isPlainField_maxPaths.1 (isKept_writeCount _)
    (by simp [Layout.Starts]) (by simp) (Nat.le_refl 0)

end Fields

section Values

variable {document : Document} {config : Config Float}

theorem read?_thresholdFields {thresholds : RiskThresholds Float}
    (restored : ∀ number ∈ [thresholds.high, thresholds.medium, thresholds.low],
      ReadsBack number) :
    RiskThresholds.read? document.settingFormat
        (.mapping none (((thresholdFields thresholds).map Field.plain).map Field.entry)) =
      some thresholds := by
  simp only [List.forall_mem_cons] at restored
  obtain ⟨high, medium, low, -⟩ := restored
  have names : (((thresholdFields thresholds).map Field.plain).map Field.name) =
      RiskThresholds.fieldNames := rfl
  have record := @Document.record?_fields document RiskThresholds.fieldNames
    ((thresholdFields thresholds).map Field.plain) (by rw [names]; decide)
  rw [RiskThresholds.read?]
  simp only [Yaml.Document.settingFormat, record, Option.bind_eq_bind, Option.bind_some]
  simp only [thresholdFields, List.map_cons, List.map_nil, Field.plain, Record.withDefault,
    Record.get?_cons, String.reduceEq, if_true, if_false, Document.numeric?_plain high,
    Document.numeric?_plain medium, Document.numeric?_plain low, Option.bind_some]
  rfl

/-- The numbers of a configuration. -/
def numbers (config : Config Float) : List Float :=
  [config.impactThreshold, config.riskThresholds.high, config.riskThresholds.medium,
    config.riskThresholds.low]

theorem read?_yamlFields (depth : config.maxDepth < Decimal.wordLimit)
    (paths : config.maxPaths < Decimal.wordLimit)
    (restored : ∀ number ∈ config.numbers, ReadsBack number) :
    read? document.settingFormat (.mapping none (config.yamlFields.map Field.entry)) =
      some config := by
  obtain ⟨threshold, thresholds⟩ := List.forall_mem_cons.mp restored
  have names : config.yamlFields.map Field.name = fieldNames := rfl
  have record := @Document.record?_fields document fieldNames config.yamlFields
    (by rw [names]; decide)
  have levels := @read?_thresholdFields document config.riskThresholds thresholds
  rw [read?]
  simp only [Yaml.Document.settingFormat, record, Option.bind_eq_bind, Option.bind_some]
  simp only [yamlFields, firstFields, List.map_cons, List.map_nil,
    List.cons_append, List.nil_append, Field.plain, Field.texts, Field.record, Record.withDefault,
    Record.get?_cons, String.reduceEq, if_true, if_false, Document.count?_plain depth,
    Document.count?_plain paths, Document.flag?_plain, Document.numeric?_plain threshold,
    Document.list?_texts, Option.bind_some]
  change Option.bind (RiskThresholds.read? document.settingFormat _) _ = _
  rw [levels]
  rfl

/-- A valid configuration is read back from its text, and an invalid one is refused for the reason
that makes it invalid. -/
theorem ofText?_toText (depth : config.maxDepth < Decimal.wordLimit)
    (paths : config.maxPaths < Decimal.wordLimit)
    (restored : ∀ number ∈ config.numbers, ReadsBack number) :
    ofText? config.toText = config.validate.map fun _ => config := by
  have parsed := Document.parse?_eq config.tokens?_toText
  have read := @read?_yamlFields (Document.ofRoot (.mapping none (config.yamlFields.map
    Field.entry))) config depth paths restored
  have root : (Document.ofRoot (.mapping none (config.yamlFields.map Field.entry))).root =
      .mapping none (config.yamlFields.map Field.entry) := rfl
  rw [ofText?, parsed]
  simp only [root, read]
  rfl

end Values

/-- A configuration whose patterns would be taken for something else without quotes. -/
def quoted : Config Float :=
  { (default : Config Float) with
    excludePatterns := ["true", "~", "0x1f", "a: b #c", "- 'd'", " \"e\"\x07", "f\n  g \n"] }

/-- The same with a threshold that is no number. -/
def unordered : Config Float :=
  { quoted with impactThreshold := 0.0 / 0.0 }

end Config

namespace CommandLine.Files

/-- The configuration in a file is that of its text. -/
theorem config?_of_text {files : Files} {path text : String}
    (found : files path = .ok text.toUTF8) :
    files.config? path = (Config.ofText? text).mapError .config := by
  rw [config?, text?_eq_ok_iff.mpr found]
  rfl

/-- A configuration that has been saved is loaded again if it is valid, and is refused as a
configuration if it is not. Finite numbers are taken to be read back from their digits. -/
theorem config?_saveConfig (files : Files) (path : String) {config : Config Float}
    (depth : config.maxDepth < Decimal.wordLimit) (paths : config.maxPaths < Decimal.wordLimit)
    (exact : ∀ number ∈ config.numbers, number.isFinite → Yaml.ReadsBack number) :
    (config.validate = .ok () → (files.saveConfig path config).config? path = .ok config) ∧
      ∀ error, config.validate = .error error →
        (files.saveConfig path config).config? path = .error (.config error) := by
  have restored : ∀ number ∈ config.numbers, Yaml.ReadsBack number := by
    intro number member
    by_cases finite : number.isFinite
    · exact exact number member finite
    · exact Yaml.readsBack_of_isFinite_eq_false (Bool.eq_false_iff.mpr finite)
  have found : files.saveConfig path config path = .ok config.toText.toUTF8 := if_pos rfl
  have loaded : (files.saveConfig path config).config? path =
      (config.validate.map fun _ => config).mapError .config := by
    rw [← Config.ofText?_toText depth paths restored]
    exact config?_of_text found
  refine ⟨fun valid => ?_, fun error invalid => ?_⟩
  · rw [loaded, valid]
    rfl
  · rw [loaded, invalid]
    rfl

theorem config?_saveConfig_quoted :
    let files : Files := fun _ => .error .notFound
    (∀ number ∈ Config.quoted.numbers, number.isFinite ∧ Yaml.ReadsBack number) ∧
      (files.saveConfig "ripple.yaml" .quoted).config? "ripple.yaml" = .ok .quoted ∧
      (files.saveConfig "ripple.yaml" .unordered).config? "ripple.yaml" =
        .error (.config (.impactThresholdOutOfRange (0.0 / 0.0))) := by
  intro files
  have numbers : ∀ number ∈ Config.quoted.numbers,
      number.isFinite ∧ Yaml.ReadsBack number := by
    simp only [Config.numbers, Yaml.ReadsBack]
    decide +kernel
  have others : ∀ number ∈ Config.unordered.numbers,
      number.isFinite → Yaml.ReadsBack number := by
    simp only [Config.numbers, Yaml.ReadsBack]
    decide +kernel
  have saved := config?_saveConfig files "ripple.yaml" (by decide) (by decide)
    fun number member _ => (numbers number member).2
  have refused := config?_saveConfig files "ripple.yaml" (by decide) (by decide) others
  have valid : Config.quoted.validate = .ok () := by rfl
  have invalid : Config.unordered.validate =
      .error (.impactThresholdOutOfRange (0.0 / 0.0)) := by rfl
  exact ⟨numbers, saved.1 valid, refused.2 _ invalid⟩

end CommandLine.Files

end ChangeImpact
