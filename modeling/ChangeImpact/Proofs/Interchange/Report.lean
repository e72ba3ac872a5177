/-
This file shows that reports and their parts are exchanged as JSON without loss.
-/

import ChangeImpact.Interchange.Report
import ChangeImpact.Proofs.Interchange.Snapshot

namespace ChangeImpact

open Decimal (wordLimit)

instance : Choice.Lawful RiskLevel where
  ofName?_name choice := by cases choice <;> rfl

instance : Choice.Lawful ImpactTag where
  ofName?_name choice := by cases choice <;> rfl

instance : Choice.Lawful Direction where
  ofName?_name choice := by cases choice <;> rfl

instance : Choice.Lawful PathShape where
  ofName?_name choice := by cases choice <;> rfl

instance : Choice.Lawful OverallRisk where
  ofName?_name choice := by cases choice <;> rfl

instance : Choice.Lawful Effort where
  ofName?_name choice := by cases choice <;> rfl

namespace AffectedModule

def codec : Codec (AffectedModule Float) where
  toJson := toJson
  ofJson? := ofJson?
  Fits affected := affected.distance < wordLimit
  numbers affected := [affected.coverage, affected.score]

theorem exists_of_ofJson? {json : Json} {affected : AffectedModule Float}
    (read : ofJson? json = some affected) : ∃ record : Record Json,
      record.required "distance_from_change" Json.count? = some affected.distance ∧
      record.required "test_coverage" Json.numeric? = some affected.coverage ∧
      record.required "impact_score" Json.numeric? = some affected.score := by
  -- The first fields are opened one at a time: `simp` alone would visit the later ones once more
  -- for each of those before them.
  obtain ⟨record, -, read⟩ := Option.bind_eq_some_iff.mp read
  obtain ⟨_, -, read⟩ := Option.bind_eq_some_iff.mp read
  obtain ⟨_, -, read⟩ := Option.bind_eq_some_iff.mp read
  obtain ⟨_, distance, read⟩ := Option.bind_eq_some_iff.mp read
  simp only [Option.bind_eq_bind, Option.bind_eq_some_iff] at read
  obtain ⟨_, -, _, -, _, coverage, _, score, _, -, _, -, _, -, _, -, made⟩ := read
  cases made
  exact ⟨record, distance, coverage, score⟩

theorem isLawful_codec : codec.IsLawful where
  isSound affected := by
    simp [codec, toJson]
  restores affected fits exact := by
    have distance : Json.count? (.count affected.distance) = some affected.distance :=
      Json.countBelow?_count fits
    have coverage : Json.numeric? (.ofNumeric affected.coverage) = some affected.coverage :=
      exact _ (by simp [codec])
    have score : Json.numeric? (.ofNumeric affected.score) = some affected.score :=
      exact _ (by simp [codec])
    have tags : Json.list? Choice.ofJson? (.array (affected.tags.map Choice.toJson)) =
        some affected.tags :=
      Json.list?_map fun tag _ => Choice.ofJson?_toJson tag
    have kind : Json.optional? DependencyKind.ofJson? (.ofOption Choice.toJson affected.kind) =
        some affected.kind :=
      Json.optional?_ofOption fun kind _ =>
        ⟨DependencyKind.ofJson?_toJson kind, by simp [Choice.toJson, Json.text]⟩
    change ofJson? affected.toJson = some affected
    rw [ofJson?, toJson, Json.bind_record?_record _ (by simp)]
    simp [Record.required, Record.optional,
      Record.withDefault, distance, coverage, score, tags, kind]
  fits read := by
    obtain ⟨record, distance, -, -⟩ := exists_of_ofJson? read
    exact Record.lt_of_required distance
  finite read := by
    obtain ⟨record, -, coverage, score⟩ := exists_of_ofJson? read
    simp [codec, Record.isFinite_of_required coverage, Record.isFinite_of_required score]

end AffectedModule

namespace ImpactPath

def codec : Codec (ImpactPath Float) where
  toJson := toJson
  ofJson? := ofJson?
  Fits path := path.length < wordLimit
  numbers path := [path.weight, path.risk]

theorem exists_of_ofJson? {json : Json} {path : ImpactPath Float}
    (read : ofJson? json = some path) : ∃ record : Record Json,
      record.required "path_length" Json.count? = some path.length ∧
      record.required "total_weight" Json.numeric? = some path.weight ∧
      record.required "risk_score" Json.numeric? = some path.risk := by
  obtain ⟨record, -, read⟩ := Option.bind_eq_some_iff.mp read
  obtain ⟨_, -, read⟩ := Option.bind_eq_some_iff.mp read
  obtain ⟨_, -, read⟩ := Option.bind_eq_some_iff.mp read
  obtain ⟨_, -, read⟩ := Option.bind_eq_some_iff.mp read
  simp only [Option.bind_eq_bind, Option.bind_eq_some_iff] at read
  obtain ⟨_, -, _, length, _, weight, _, risk, _, -, _, -, _, -, _, -, made⟩ := read
  cases made
  exact ⟨record, length, weight, risk⟩

theorem isLawful_codec : codec.IsLawful where
  isSound path := by
    simp [codec, toJson]
  restores path fits exact := by
    have length : Json.count? (.count path.length) = some path.length :=
      Json.countBelow?_count fits
    have weight : Json.numeric? (.ofNumeric path.weight) = some path.weight :=
      exact _ (by simp [codec])
    have risk : Json.numeric? (.ofNumeric path.risk) = some path.risk :=
      exact _ (by simp [codec])
    change ofJson? path.toJson = some path
    rw [ofJson?, toJson, Json.bind_record?_record _ (by simp)]
    simp [Record.required, length, weight, risk]
  fits read := by
    obtain ⟨record, length, -, -⟩ := exists_of_ofJson? read
    exact Record.lt_of_required length
  finite read := by
    obtain ⟨record, -, weight, risk⟩ := exists_of_ofJson? read
    simp [codec, Record.isFinite_of_required weight, Record.isFinite_of_required risk]

end ImpactPath

namespace Summary

/-- The counts of a summary, also those in its maps. -/
def counts (summary : Summary) : List Nat :=
  [summary.affectedModules, summary.impactPaths, summary.maxDepth, summary.highRisk,
    summary.mediumRisk, summary.lowRisk, summary.minimalRisk] ++ summary.languages.values ++
      summary.depths.keys ++ summary.depths.values

def codec : Codec Summary where
  toJson := toJson
  ofJson? := ofJson?
  Fits summary := ∀ count ∈ summary.counts, count < wordLimit

/-- Only counts of the size of a machine word are read, also as the names of the depths. -/
theorem lt_of_ofJson? {json : Json} {summary : Summary} (read : ofJson? json = some summary) :
    ∀ count ∈ summary.counts, count < wordLimit := by
  obtain ⟨record, -, read⟩ := Option.bind_eq_some_iff.mp read
  obtain ⟨_, affected, read⟩ := Option.bind_eq_some_iff.mp read
  obtain ⟨_, paths, read⟩ := Option.bind_eq_some_iff.mp read
  obtain ⟨_, depth, read⟩ := Option.bind_eq_some_iff.mp read
  simp only [Option.bind_eq_bind, Option.bind_eq_some_iff] at read
  obtain ⟨_, high, _, medium, _, low, _, minimal, _, -, _, languages, _, depths, _, -, _, -,
    made⟩ := read
  cases made
  have small : ∀ {name value}, record.required name Json.count? = some value →
      value < wordLimit := Record.lt_of_required
  obtain ⟨_, languages⟩ := Record.exists_of_required languages
  obtain ⟨_, depths⟩ := Record.exists_of_required depths
  obtain ⟨depthKeys, depthCounts⟩ := Json.lt_of_countTable? depths
  simp only [counts, List.forall_mem_append, List.forall_mem_cons]
  exact ⟨⟨⟨⟨small affected, small paths, small depth, small high, small medium, small low,
    small minimal, by simp⟩, Json.lt_of_table? languages⟩, depthKeys⟩, depthCounts⟩

theorem isLawful_codec : codec.IsLawful where
  isSound summary := by
    simp [codec, toJson, Json.isSound_ofTable, Json.isSound_ofCountTable]
  restores summary fits _ := by
    have count : ∀ count ∈ summary.counts, Json.count? (.count count) = some count :=
      fun count member => Json.countBelow?_count (fits count member)
    have languages : Json.table? Json.count? (.ofTable Json.count summary.languages) =
        some summary.languages :=
      Json.table?_ofTable fun value member => count value (by simp [counts, member])
    have depths : Json.countTable? Json.count? (.ofCountTable Json.count summary.depths) =
        some summary.depths :=
      Json.countTable?_ofCountTable (fun key member => fits key (by simp [counts, member]))
        fun value member => count value (by simp [counts, member])
    simp only [counts, List.forall_mem_append, List.forall_mem_cons] at count
    change ofJson? summary.toJson = some summary
    rw [ofJson?, toJson, Json.bind_record?_record _ (by simp)]
    simp [Record.required, languages, depths, count]
  fits := lt_of_ofJson?
  finite _ := by simp [codec]

end Summary

namespace RiskMetrics

def numbers (metrics : RiskMetrics Float) : List Float :=
  [metrics.changeComplexity, metrics.impactScope, metrics.testCoverageRisk,
    metrics.dependencyRisk, metrics.historicalRisk, metrics.overall]

def codec : Codec (RiskMetrics Float) where
  toJson := toJson
  ofJson? := ofJson?
  numbers := numbers

theorem isLawful_codec : codec.IsLawful where
  isSound metrics := by simp [codec, toJson]
  restores metrics _ exact := by
    have number : ∀ number ∈ metrics.numbers, Json.numeric? (.ofNumeric number) = some number :=
      exact
    simp only [numbers, List.forall_mem_cons] at number
    change ofJson? metrics.toJson = some metrics
    rw [ofJson?, toJson, Json.bind_record?_record _ (by simp)]
    simp [Record.required, number]
  fits _ := trivial
  finite read := by
    simp only [codec, ofJson?, Option.bind_eq_bind, Option.bind_eq_some_iff] at read
    obtain ⟨record, -, _, complexity, _, scope, _, coverage, _, dependency, _, historical, _,
      overall, made⟩ := read
    cases made
    simp only [codec, numbers, List.forall_mem_cons]
    exact ⟨Record.isFinite_of_required complexity, Record.isFinite_of_required scope,
      Record.isFinite_of_required coverage, Record.isFinite_of_required dependency,
      Record.isFinite_of_required historical, Record.isFinite_of_required overall, by simp⟩

end RiskMetrics

namespace RiskAssessment

def codec : Codec (RiskAssessment Float) where
  toJson := toJson
  ofJson? := ofJson?
  numbers assessment := assessment.metrics.numbers

theorem isLawful_codec : codec.IsLawful where
  isSound assessment := by
    have metrics : assessment.metrics.toJson.IsSound :=
      RiskMetrics.isLawful_codec.isSound assessment.metrics
    simp [codec, toJson, metrics]
  restores assessment _ exact := by
    have metrics : RiskMetrics.ofJson? assessment.metrics.toJson = some assessment.metrics :=
      RiskMetrics.isLawful_codec.restores assessment.metrics trivial exact
    have cycles : Json.list? (Json.list? Json.text?) (.array (assessment.cycles.map Json.texts)) =
        some assessment.cycles :=
      Json.list?_map fun cycle _ => Json.list?_texts cycle
    change ofJson? assessment.toJson = some assessment
    rw [ofJson?, toJson, Json.bind_record?_record _ (by simp)]
    simp [Record.required, metrics, cycles]
  fits _ := trivial
  finite read := by
    simp only [codec, ofJson?, Option.bind_eq_bind, Option.bind_eq_some_iff] at read
    obtain ⟨record, -, _, -, _, -, _, -, _, -, _, -, _, -, _, metrics, made⟩ := read
    cases made
    obtain ⟨_, metrics⟩ := Record.exists_of_required metrics
    exact RiskMetrics.isLawful_codec.finite metrics

end RiskAssessment

namespace TestImpact

@[simp]
theorem isSound_toJson (tests : TestImpact) : tests.toJson.IsSound := by
  simp [toJson]

theorem ofJson?_toJson (tests : TestImpact) : ofJson? tests.toJson = some tests := by
  rw [ofJson?, toJson, Json.bind_record?_record _ (by simp)]
  simp [Record.required]

def codec : Codec TestImpact :=
  .plain toJson ofJson?

theorem isLawful_codec : codec.IsLawful :=
  Codec.isLawful_plain isSound_toJson ofJson?_toJson

end TestImpact

namespace PerformanceImpact

@[simp]
theorem isSound_toJson (performance : PerformanceImpact) : performance.toJson.IsSound := by
  simp [toJson]

@[simp]
theorem ofJson?_toJson (performance : PerformanceImpact) :
    ofJson? performance.toJson = some performance := by
  rw [ofJson?, toJson, Json.bind_record?_record _ (by simp)]
  simp [Record.required]

def codec : Codec PerformanceImpact :=
  .plain toJson ofJson?

theorem isLawful_codec : codec.IsLawful :=
  Codec.isLawful_plain isSound_toJson ofJson?_toJson

end PerformanceImpact

namespace MitigationStrategy

def codec : Codec MitigationStrategy where
  toJson := toJson
  ofJson? := ofJson?
  Fits strategy := strategy.priority < 256

theorem isLawful_codec : codec.IsLawful where
  isSound strategy := by simp [codec, toJson]
  restores strategy fits _ := by
    have priority : Json.countBelow? 256 (.count strategy.priority) = some strategy.priority :=
      Json.countBelow?_count fits
    change ofJson? strategy.toJson = some strategy
    rw [ofJson?, toJson, Json.bind_record?_record _ (by simp)]
    simp [Record.required, priority]
  fits read := by
    simp only [codec, ofJson?, Option.bind_eq_bind, Option.bind_eq_some_iff] at read
    obtain ⟨record, -, _, -, _, -, _, -, _, priority, _, -, _, -, _, -, _, -, made⟩ := read
    cases made
    exact Record.lt_of_required priority
  finite _ := by simp [codec]

end MitigationStrategy

namespace Report

def codec : Codec (Report Float) where
  toJson := toJson
  ofJson? := ofJson?
  Fits report := Summary.codec.Fits report.summary ∧
    AffectedModule.codec.list.Fits report.affected ∧ ImpactPath.codec.list.Fits report.paths ∧
      MitigationStrategy.codec.list.Fits report.strategies
  numbers report := AffectedModule.codec.list.numbers report.affected ++
    ImpactPath.codec.list.numbers report.paths ++ RiskAssessment.codec.numbers report.assessment

theorem exists_of_ofJson? {json : Json} {report : Report Float}
    (read : ofJson? json = some report) : ∃ record : Record Json,
      record.required "summary" Summary.ofJson? = some report.summary ∧
      record.required "affected_modules" (Json.list? AffectedModule.ofJson?) =
        some report.affected ∧
      record.required "impact_paths" (Json.list? ImpactPath.ofJson?) = some report.paths ∧
      record.required "risk_assessment" RiskAssessment.ofJson? = some report.assessment ∧
      record.required "mitigation_strategies" (Json.list? MitigationStrategy.ofJson?) =
        some report.strategies := by
  obtain ⟨record, -, read⟩ := Option.bind_eq_some_iff.mp read
  obtain ⟨_, -, read⟩ := Option.bind_eq_some_iff.mp read
  obtain ⟨_, summary, read⟩ := Option.bind_eq_some_iff.mp read
  simp only [Option.bind_eq_bind, Option.bind_eq_some_iff] at read
  obtain ⟨_, affected, _, paths, _, assessment, _, -, _, -, _, -, _, strategies, _, -, made⟩ := read
  cases made
  exact ⟨record, summary, affected, paths, assessment, strategies⟩

theorem isLawful_codec : codec.IsLawful where
  isSound report := by
    have summary := Summary.isLawful_codec.isSound report.summary
    have affected := AffectedModule.isLawful_codec.isSound
    have paths := ImpactPath.isLawful_codec.isSound
    have assessment := RiskAssessment.isLawful_codec.isSound report.assessment
    have strategies := MitigationStrategy.isLawful_codec.isSound
    simp_all [codec, toJson, Summary.codec, AffectedModule.codec, ImpactPath.codec,
      RiskAssessment.codec, MitigationStrategy.codec]
  restores report fits exact := by
    obtain ⟨summaryFits, affectedFits, pathsFit, strategiesFit⟩ := fits
    obtain ⟨otherExact, assessmentExact⟩ := List.forall_mem_append.mp exact
    obtain ⟨affectedExact, pathsExact⟩ := List.forall_mem_append.mp otherExact
    have summary : Summary.ofJson? report.summary.toJson = some report.summary :=
      Summary.isLawful_codec.restores report.summary summaryFits (by simp [Summary.codec])
    have affected : Json.list? AffectedModule.ofJson?
        (.array (report.affected.map AffectedModule.toJson)) = some report.affected :=
      AffectedModule.isLawful_codec.list.restores report.affected affectedFits affectedExact
    have paths : Json.list? ImpactPath.ofJson?
        (.array (report.paths.map ImpactPath.toJson)) = some report.paths :=
      ImpactPath.isLawful_codec.list.restores report.paths pathsFit pathsExact
    have assessment : RiskAssessment.ofJson? report.assessment.toJson = some report.assessment :=
      RiskAssessment.isLawful_codec.restores report.assessment trivial assessmentExact
    have tests : Json.optional? TestImpact.ofJson? (.ofOption TestImpact.toJson report.tests) =
        some report.tests :=
      Json.optional?_ofOption fun tests _ =>
        ⟨TestImpact.ofJson?_toJson tests, by simp [TestImpact.toJson, Json.record]⟩
    have strategies : Json.list? MitigationStrategy.ofJson?
        (.array (report.strategies.map MitigationStrategy.toJson)) = some report.strategies :=
      MitigationStrategy.isLawful_codec.list.restores report.strategies strategiesFit
        (by simp [Codec.list, MitigationStrategy.codec])
    change ofJson? report.toJson = some report
    rw [ofJson?, toJson, Json.bind_record?_record _ (by simp)]
    simp [Record.required, Record.optional,
      Record.withDefault, ChangeSet.ofJson?_toJson, summary, affected, paths, assessment, tests,
      strategies]
  fits read := by
    obtain ⟨record, summary, affected, paths, -, strategies⟩ := exists_of_ofJson? read
    obtain ⟨_, summary⟩ := Record.exists_of_required summary
    obtain ⟨_, affected⟩ := Record.exists_of_required affected
    obtain ⟨_, paths⟩ := Record.exists_of_required paths
    obtain ⟨_, strategies⟩ := Record.exists_of_required strategies
    exact ⟨Summary.isLawful_codec.fits summary, AffectedModule.isLawful_codec.list.fits affected,
      ImpactPath.isLawful_codec.list.fits paths,
      MitigationStrategy.isLawful_codec.list.fits strategies⟩
  finite read := by
    obtain ⟨record, -, affected, paths, assessment, -⟩ := exists_of_ofJson? read
    obtain ⟨_, affected⟩ := Record.exists_of_required affected
    obtain ⟨_, paths⟩ := Record.exists_of_required paths
    obtain ⟨_, assessment⟩ := Record.exists_of_required assessment
    exact List.forall_mem_append.mpr ⟨List.forall_mem_append.mpr
      ⟨AffectedModule.isLawful_codec.list.finite affected,
        ImpactPath.isLawful_codec.list.finite paths⟩,
      RiskAssessment.isLawful_codec.finite assessment⟩

end Report

end ChangeImpact
