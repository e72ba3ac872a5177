/-
This file compares the reports of an addition, a modification and a deletion of the same modules:
they tell of the same modules, paths and cycles, and of a risk and efforts that rise.
-/

import ChangeImpact.Proofs.Analysis.Outcome
import ChangeImpact.Proofs.Analysis.Ranking
import ChangeImpact.Proofs.Report.Effort
import ChangeImpact.Proofs.Risk.Metrics

namespace ChangeImpact

/-- This change is one of another kind to the same modules. -/
def ChangeSet.ofKind (change : ChangeSet) (kind : ChangeKind) : ChangeSet :=
  { change with kind }

section Retold

variable {α : Type}

/-- This is what a report of a change of another kind tells of a module. -/
def AffectedModule.retold (kind : ChangeKind) (entry : AffectedModule α) : AffectedModule α :=
  { entry with
    tags := Impact.tags entry.distance entry.kind kind
    reason := Impact.reason entry.distance entry.strength kind }

variable [Scalar α] {change : ChangeSet} {affected : List (AffectedModule α)}
  {paths : List (ImpactPath α)} {cycles : List (List String)} {thresholds : RiskThresholds α}

theorem AffectedModule.order_retold (kind : ChangeKind) (left right : AffectedModule α) :
    order (left.retold kind) (right.retold kind) = order left right := rfl

/-- Neither the tags nor the reasons matter for the metrics. -/
theorem RiskMetrics.ofChange_retold (kind : ChangeKind) :
    ofChange change (affected.map (AffectedModule.retold kind)) paths =
      ofChange change affected paths := by
  simp only [ofChange, coverageRisk, List.length_map, List.isEmpty_map, List.map_map]
  rfl

theorem TestImpact.estimateEffort_retold (kind other : ChangeKind) :
    estimateEffort (affected.map (AffectedModule.retold kind)) other =
      estimateEffort affected other := by
  simp only [estimateEffort, atRisk, List.length_map, List.countP_map]
  rfl

theorem Summary.estimateEffort_retold (kind : ChangeKind) (overall : OverallRisk) :
    estimateEffort (affected.map (AffectedModule.retold kind)) overall =
      estimateEffort affected overall := by
  simp only [estimateEffort, List.length_map, List.map_map]
  rfl

end Retold

/-- Of two changes to the same modules the graver one has no lower a metric of its risk. -/
theorem RiskMetrics.overall_mono (change : ChangeSet) (affected : List (AffectedModule Rat))
    (paths : List (ImpactPath Rat)) {milder graver : ChangeKind} (graded : milder ≤ graver) :
    (ofChange (change.ofKind milder) affected paths).overall ≤
      (ofChange (change.ofKind graver) affected paths).overall := by
  have baseline := baseline_mono graded
  have historical : (0.1 * RiskMetrics.baseline milder : Rat) ≤
      0.1 * RiskMetrics.baseline graver := by
    gcongr
  exact add_le_add_right historical _

/-- One report tells of no more risk and no more effort than another. -/
structure Report.NoGraver (report other : Report Rat) : Prop where
  score : report.assessment.metrics.overall ≤ other.assessment.metrics.overall
  risk : report.assessment.overall ≤ other.assessment.overall
  /-- Either both reports estimate the effort of testing or neither does. -/
  testing : Option.Rel (fun tests others => tests.effort ≤ others.effort) report.tests other.tests
  effort : report.summary.effort ≤ other.summary.effort

namespace Analyzer

section Same

variable {α : Type} [Scalar α] {analyzer : Analyzer α} {change : ChangeSet} {snapshot : Snapshot}
  {coverage : CoverageSource α}

/-- The same modules are reported in the same order. -/
theorem affectedBy_ofKind (kind : ChangeKind) :
    analyzer.affectedBy (change.ofKind kind) snapshot coverage =
      (analyzer.affectedBy change snapshot coverage).map (AffectedModule.retold kind) := by
  rw [affectedBy, affectedBy, affected, affected,
    AffectedModule.map_sort (AffectedModule.order_retold kind), List.map_map]
  rfl

theorem cyclesBy_ofKind (kind : ChangeKind) :
    analyzer.cyclesBy (change.ofKind kind) snapshot coverage =
      analyzer.cyclesBy change snapshot coverage := by
  rw [cyclesBy, cyclesBy, affectedBy_ofKind, List.map_map]
  rfl

/-- The same pairs of modules are connected along the same paths. -/
theorem connections_retold (graph : Graph) (limit : Nat) (seeds : List String)
    (affected : List (AffectedModule α)) (kind : ChangeKind) :
    analyzer.connections graph limit (pairs seeds (affected.map (AffectedModule.retold kind))) =
      (analyzer.connections graph limit (pairs seeds affected)).map
        fun connection => (connection.1, connection.2.1.retold kind, connection.2.2) := by
  have paired : pairs seeds (affected.map (AffectedModule.retold kind)) =
      (pairs seeds affected).map fun pair => (pair.1, pair.2.retold kind) := by
    simp only [pairs, List.map_flatMap, List.map_map, List.filter_map]
    rfl
  have joined (pair : String × AffectedModule α) :
      analyzer.joined? graph (pair.1, pair.2.retold kind) =
        (analyzer.joined? graph pair).map
          fun connection => (connection.1, connection.2.1.retold kind, connection.2.2) := by
    rw [joined?, joined?, Option.map_map]
    rfl
  rw [connections_eq_take, connections_eq_take, paired, List.filterMap_map, List.map_take,
    List.map_filterMap]
  congr 2
  exact funext joined

/-- The same paths are traced, as no path tells more of its target than the score. -/
theorem pathsBy_ofKind (kind : ChangeKind) :
    analyzer.pathsBy (change.ofKind kind) snapshot coverage =
      analyzer.pathsBy change snapshot coverage := by
  rw [pathsBy, pathsBy, affectedBy_ofKind, cyclesBy_ofKind, impactPaths, impactPaths,
    connections_retold, List.zipIdx_map, List.mapM_map]
  rfl

end Same

variable {analyzer : Analyzer Rat} {change : ChangeSet} {snapshot : Snapshot}
  {coverage : CoverageSource Rat} {paths : List (ImpactPath Rat)}

/-- The report of a graver change tells of no less risk and of no less effort. -/
theorem reportOf_noGraver {milder graver : ChangeKind} (graded : milder ≤ graver)
    (now later : Timestamp) :
    (analyzer.reportOf (change.ofKind milder) snapshot coverage now paths).NoGraver
      (analyzer.reportOf (change.ofKind graver) snapshot coverage later paths) := by
  have score := RiskMetrics.overall_mono change (analyzer.affectedBy change snapshot coverage)
    paths graded
  have same := Outweighed.refl (analyzer.affectedBy change snapshot coverage)
  have testing := TestImpact.estimateEffort_mono same graded
  have effort := Summary.estimateEffort_mono same (OverallRisk.ofScore_mono score)
  refine ⟨?_, ?_, ?_, ?_⟩
  all_goals
    simp only [reportOf, RiskAssessment.ofChange, Summary.ofAnalysis, affectedBy_ofKind,
      RiskMetrics.ofChange_retold, Summary.estimateEffort_retold]
  · exact score
  · exact OverallRisk.ofScore_mono score
  · split
    · refine .some ?_
      simp only [TestImpact.ofAffected, TestImpact.estimateEffort_retold]
      exact testing
    · exact .none
  · exact effort

/-- Whether modules are added, modified or deleted, an analysis refuses the change for the same
cause, or it reports the same affected modules, but for what their tags and reasons say of the kind,
the same paths and the same cycles. From an addition to a modification to a deletion neither the
risk nor an effort ever falls. -/
theorem analyze_ofKind (analyzer : Analyzer Rat) (change : ChangeSet) (snapshot : Snapshot)
    (coverage : CoverageSource Rat) (now : ChangeKind → Timestamp) :
    (∃ cause, checkInputs change snapshot = .error cause ∧ ∀ kind,
      analyzer.analyze (change.ofKind kind) snapshot coverage (now kind) =
        .error (.input cause)) ∨
    ∃ reports : ChangeKind → Report Rat,
      (∀ kind, analyzer.analyze (change.ofKind kind) snapshot coverage (now kind) =
        .ok (reports kind)) ∧
      (∀ kind other,
        (reports other).affected = (reports kind).affected.map (AffectedModule.retold other) ∧
        (reports other).paths = (reports kind).paths ∧
        (reports other).assessment.cycles = (reports kind).assessment.cycles) ∧
      ∀ milder graver, milder ≤ graver → (reports milder).NoGraver (reports graver) := by
  have sameCheck (kind : ChangeKind) :
      checkInputs (change.ofKind kind) snapshot = checkInputs change snapshot := rfl
  cases checked : checkInputs change snapshot with
  | error cause =>
      exact .inl ⟨cause, rfl, fun kind =>
        analyze_of_checkInputs_error ((sameCheck kind).trans checked)⟩
  | ok _ =>
      obtain ⟨report, analyzed⟩ := exists_report analyzer coverage (now change.kind) checked
      obtain ⟨_, paths, traced, _⟩ := analyze_eq_ok_iff.mp analyzed
      refine .inr ⟨fun kind => analyzer.reportOf (change.ofKind kind) snapshot coverage (now kind)
        paths, fun kind => ?_, fun kind other => ⟨?_, rfl, ?_⟩, fun milder graver graded => ?_⟩
      · exact analyze_eq_ok_iff.mpr
          ⟨(sameCheck kind).trans checked, paths, (pathsBy_ofKind kind).trans traced, rfl⟩
      · simp only [reportOf, affectedBy_ofKind, List.map_map]
        rfl
      · simp only [reportOf, RiskAssessment.ofChange, cyclesBy_ofKind]
      · exact reportOf_noGraver graded _ _

end Analyzer

end ChangeImpact
