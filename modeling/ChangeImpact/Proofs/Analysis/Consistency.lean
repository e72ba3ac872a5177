/-
This file shows that the parts of a report agree with each other.
-/

import ChangeImpact.Proofs.Analysis.Paths
import ChangeImpact.Proofs.Graph.Cycle
import ChangeImpact.Proofs.Report.Summary
import Std.Data.String.ToNat

namespace ChangeImpact

/-- The counts of a report are those of its lists, and its lists name only what is reported. -/
structure Report.Consistent {α : Type} [Scalar α] (config : Config α) (change : ChangeSet)
    (report : Report α) : Prop where
  affectedModules : report.summary.affectedModules = report.affected.length
  impactPaths : report.summary.impactPaths = report.paths.length
  levels : report.summary.highRisk + report.summary.mediumRisk + report.summary.lowRisk +
    report.summary.minimalRisk = report.summary.affectedModules
  languages : report.summary.languages.values.sum = report.summary.affectedModules
  depths : report.summary.depths.values.sum = report.summary.affectedModules
  changed : report.summary.depths.get? 0 = some change.modules.eraseDups.length
  deepest : IsGreatest {depth | depth ∈ report.summary.depths.keys} report.summary.maxDepth
  maxDepth : report.summary.maxDepth ≤ config.maxDepth
  highRisk : report.assessment.highRiskModules.length = report.summary.highRisk
  ids : (report.paths.map ImpactPath.id).Nodup
  /-- What is listed as critical is the id of one path, which is dangerous. -/
  critical : ∀ id ∈ report.assessment.criticalPaths, ∃ path ∈ report.paths, path.id = id ∧
    config.riskThresholds.high ≤ path.risk ∧ ∀ other ∈ report.paths, other.id = id → other = path
  /-- Every dangerous path is listed as critical. -/
  dangerous : ∀ path ∈ report.paths, config.riskThresholds.high ≤ path.risk →
    path.id ∈ report.assessment.criticalPaths
  cycles : ∀ cycle ∈ report.assessment.cycles, ∀ path ∈ cycle,
    path ∈ report.affected.map AffectedModule.path
  crossLanguage : (∀ entry ∈ report.affected, entry.language ≠ "unknown") →
    (report.summary.crossLanguage = true ↔
      2 ≤ (report.summary.languages.keys.filter (· ≠ "unknown")).length)

namespace Analyzer

variable {α : Type} [Scalar α] {analyzer : Analyzer α} {change : ChangeSet} {snapshot : Snapshot}
  {coverage : CoverageSource α}

/-- As many modules have no distance as there are different changed ones. -/
theorem countP_changed (analyzer : Analyzer α) (change : ChangeSet) (snapshot : Snapshot)
    (coverage : CoverageSource α) :
    (analyzer.affectedBy change snapshot coverage).countP (·.distance == 0) =
      change.modules.eraseDups.length := by
  have nodup := (affectedBy_nodup analyzer change snapshot coverage).sublist
    ((List.filter_sublist (p := (·.distance == 0))).map AffectedModule.path)
  have same : (((analyzer.affectedBy change snapshot coverage).filter (·.distance == 0)).map
      AffectedModule.path).Perm (distinct change.modules) := by
    refine (List.perm_ext_iff_of_nodup nodup (distinct_nodup _)).mpr fun path => ?_
    simp only [List.mem_map, List.mem_filter, beq_iff_eq, mem_distinct]
    constructor
    · rintro ⟨entry, ⟨member, here⟩, rfl⟩
      exact (distance_eq_zero_iff member).mp here
    · intro changed
      obtain ⟨entry, member, rfl⟩ :=
        exists_affectedBy_of_changed analyzer snapshot coverage changed
      exact ⟨entry, ⟨member, (distance_eq_zero_iff member).mpr changed⟩, rfl⟩
  rw [List.countP_eq_length_filter, ← distinct_eq_eraseDups, ← same.length_eq, List.length_map]

/-- A path is told apart from all others by its number. -/
theorem pathId_injective : Function.Injective fun number : Nat => s!"path_{number}" := by
  intro number other same
  have digits : number.repr = other.repr := by
    simpa [toString, String.append_right_inj] using same
  exact Nat.repr_inj.mp digits

/-- The ids of traced paths are those of their places, in order. -/
theorem map_id_of_traces {pairs : List (String × AffectedModule α)} {traced : List (ImpactPath α)}
    (each : List.Forall₂ (fun item path => analyzer.Traces snapshot (item.2 + 1) item.1 path)
      pairs.zipIdx traced) :
    traced.map ImpactPath.id = (List.range traced.length).map fun place => s!"path_{place + 1}" := by
  have places : List.range traced.length = pairs.zipIdx.map Prod.snd := by
    rw [List.zipIdx_map_snd, List.range_eq_range', ← each.length_eq, List.length_zipIdx]
  rw [places, List.map_map, ← List.forall₂_eq_eq_eq, List.forall₂_map_left_iff,
    List.forall₂_map_right_iff]
  exact each.flip.imp fun _ _ traces => traces.id

variable [WholeText α] {now : Timestamp} {report : Report α}

theorem affected_ne_nil (analyzed : analyzer.analyze change snapshot coverage now = .ok report) :
    report.affected ≠ [] := by
  obtain ⟨path, changed⟩ := exists_changed analyzed
  obtain ⟨entry, member, _⟩ := exists_affectedBy_of_changed analyzer snapshot coverage changed
  rw [affected_of_analyze analyzed]
  exact List.ne_nil_of_mem member

/-- No two paths of a report have the same id. -/
theorem ids_nodup (analyzed : analyzer.analyze change snapshot coverage now = .ok report) :
    (report.paths.map ImpactPath.id).Nodup := by
  obtain ⟨traced, done, each⟩ := exists_traced analyzer change snapshot coverage
  have sorted : ImpactPath.sort traced = report.paths :=
    Except.ok.inj (done.symm.trans (paths_of_analyze analyzed))
  have same : (report.paths.map ImpactPath.id).Perm (traced.map ImpactPath.id) := by
    rw [← sorted]
    exact (List.mergeSort_perm _ _).map ImpactPath.id
  rw [same.nodup_iff, map_id_of_traces each]
  exact List.nodup_range.map fun _ _ same => Nat.succ_injective (pathId_injective same)

/-- The parts of a report agree with each other, although each is computed on its own. -/
theorem analyze_consistent (analyzed : analyzer.analyze change snapshot coverage now = .ok report) :
    report.Consistent analyzer.config change := by
  have isAffected := affected_of_analyze analyzed
  have isAssessment := assessment_of_analyze analyzed
  have isSummary := (advice_of_analyze analyzed).1
  have isGreatest := Summary.isGreatest_maxDepth report.affected report.paths
    report.assessment.overall (affected_ne_nil analyzed)
  have ids := ids_nodup analyzed
  have isCritical (id : String) : id ∈ report.assessment.criticalPaths ↔
      ∃ path ∈ report.paths, path.id = id ∧ analyzer.config.riskThresholds.high ≤ path.risk := by
    rw [isAssessment]
    simp [RiskAssessment.ofChange, RiskAssessment.criticalPathsOf, and_assoc, and_comm]
  rw [← isSummary] at isGreatest
  refine
    { affectedModules := by rw [isSummary]; rfl
      impactPaths := by rw [isSummary]; rfl
      levels := by rw [isSummary]; exact Summary.sum_levels _ _ _
      languages := by rw [isSummary]; exact Summary.sum_languages _ _ _
      depths := by rw [isSummary]; exact Summary.sum_depths _ _ _
      changed := ?_
      deepest := isGreatest
      maxDepth := ?_
      highRisk := ?_
      ids
      critical := ?_
      dangerous := fun path member danger => (isCritical path.id).mpr ⟨path, member, rfl, danger⟩
      cycles := ?_
      crossLanguage := by rw [isSummary]; exact Summary.crossLanguage_iff _ _ _ }
  · obtain ⟨path, changed⟩ := exists_changed analyzed
    obtain ⟨entry, member, rfl⟩ := exists_affectedBy_of_changed analyzer snapshot coverage changed
    have here := (distance_eq_zero_iff member).mpr changed
    rw [← countP_changed analyzer change snapshot coverage, ← isAffected, isSummary, ← here]
    exact Summary.get?_depths _ _ _ (isAffected ▸ member)
  · have deepest := isGreatest.1
    rw [isSummary] at deepest ⊢
    obtain ⟨entry, member, same⟩ := List.mem_map.mp (Table.mem_keys_tally.mp deepest)
    rw [isAffected] at member
    exact same ▸ (isNearest_of_affectedBy member).1.1
  · rw [isSummary, isAssessment]
    exact (List.length_map _).trans List.countP_eq_length_filter.symm
  · intro id listed
    obtain ⟨path, member, rfl, danger⟩ := (isCritical id).mp listed
    exact ⟨path, member, rfl, danger, fun other isOther same =>
      List.inj_on_of_nodup_map ids isOther member same⟩
  · intro cycle listed path member
    rw [cycles_of_analyze analyzed] at listed
    rw [isAffected]
    exact (Graph.mem_cycles_iff.mp listed).2.1.among path member

section Sample

/-- In the chain one module has no distance, and no module is farther away than the depth allows. -/
theorem analyze_consistent_chain :
    ∃ report, plain.analyze firstChanged chain CoverageSource.none default = .ok report ∧
      report.summary.depths.get? 0 = some 1 ∧ report.summary.maxDepth ≤ 10 := by
  obtain ⟨report, analyzed⟩ := exists_report plain CoverageSource.none default checkInputs_chain
  have consistent := analyze_consistent analyzed
  exact ⟨report, analyzed, consistent.changed, consistent.maxDepth⟩

end Sample

end Analyzer

end ChangeImpact
