/-
This file shows that a smaller depth cuts the affected modules of an analysis off and changes
nothing about those that are left.
-/

import ChangeImpact.Proofs.Analysis.Affected
import ChangeImpact.Proofs.Analysis.Ranking
import ChangeImpact.Proofs.Graph.Depth
import ChangeImpact.Proofs.Graph.Merge

namespace ChangeImpact.Analyzer

variable {α : Type} [Scalar α]

/-- This analyzer differs in its depth alone. -/
def cutOff (analyzer : Analyzer α) (depth : Nat) : Analyzer α :=
  ⟨{ analyzer.config with maxDepth := depth }, analyzer.exclusion, analyzer.isValid⟩

variable {analyzer shallow : Analyzer α} {change : ChangeSet} {snapshot : Snapshot}
  {coverage : CoverageSource α} {depth : Nat}

/-- The depth has no part in what an analyzer excludes. -/
theorem eq_cutOff (same : shallow.config = { analyzer.config with maxDepth := depth }) :
    shallow = analyzer.cutOff depth := by
  obtain ⟨config, exclusion, isValid⟩ := shallow
  obtain rfl : config = { analyzer.config with maxDepth := depth } := same
  obtain rfl : analyzer.exclusion = exclusion :=
    Except.ok.inj (analyzer.isValid.symm.trans isValid)
  rfl

/-- In one direction the smaller depth leaves what lies within it. -/
theorem explored_cutOff (below : depth ≤ analyzer.config.maxDepth) (direction : Direction) :
    (analyzer.cutOff depth).explored change snapshot direction =
      (analyzer.explored change snapshot direction).filter (·.distance ≤ depth) :=
  (Graph.filter_reachable _ _ direction below _).symm

theorem reached_eq_merge (analyzer : Analyzer α) (change : ChangeSet) (snapshot : Snapshot) :
    analyzer.reached change snapshot = Reaches.merge
      [analyzer.explored change snapshot .dependents,
        analyzer.explored change snapshot .dependencies] := rfl

/-- In both directions together it leaves the same records, if in another order. -/
theorem reached_cutOff_perm (below : depth ≤ analyzer.config.maxDepth) :
    ((analyzer.reached change snapshot).filter (·.distance ≤ depth)).Perm
      ((analyzer.cutOff depth).reached change snapshot) := by
  rw [reached_eq_merge, reached_eq_merge, explored_cutOff below, explored_cutOff below]
  exact Reaches.filter_merge_perm (Graph.reachable_nodup _ _ _ _ _)
    (Graph.reachable_nodup _ _ _ _ _) depth

variable [Std.TransCmp (Scalar.order : α → α → Ordering)]

/-- The order in which modules are reported makes up for the order in which they are reached. -/
theorem affectedBy_cutOff (below : depth ≤ analyzer.config.maxDepth) :
    (analyzer.cutOff depth).affectedBy change snapshot coverage =
      (analyzer.affectedBy change snapshot coverage).filter (·.distance ≤ depth) := by
  have nodup : ((((analyzer.reached change snapshot).filter
      (analyzer.isReported change coverage)).map
        (analyzer.assess change snapshot coverage)).map AffectedModule.path).Nodup :=
    ((affectedBy_perm analyzer change snapshot coverage).map AffectedModule.path).nodup_iff.mp
      (affectedBy_nodup analyzer change snapshot coverage)
  -- Whether and how a record is reported has nothing to do with the depth.
  have cut : (((analyzer.reached change snapshot).filter
      (analyzer.isReported change coverage)).map
        (analyzer.assess change snapshot coverage)).filter (·.distance ≤ depth) =
      (((analyzer.reached change snapshot).filter (·.distance ≤ depth)).filter
        (analyzer.isReported change coverage)).map (analyzer.assess change snapshot coverage) := by
    rw [List.filter_map, List.filter_filter, List.filter_filter]
    congr 1
    exact List.filter_congr fun record _ => Bool.and_comm _ _
  change AffectedModule.sort ((((analyzer.cutOff depth).reached change snapshot).filter
    (analyzer.isReported change coverage)).map (analyzer.assess change snapshot coverage)) =
      (AffectedModule.sort (((analyzer.reached change snapshot).filter
        (analyzer.isReported change coverage)).map
          (analyzer.assess change snapshot coverage))).filter (·.distance ≤ depth)
  rw [AffectedModule.filter_sort nodup, cut]
  refine (AffectedModule.sort_eq_of_perm ?_ ?_).symm
  · rw [← cut]
    exact nodup.sublist (List.filter_sublist.map AffectedModule.path)
  · exact ((reached_cutOff_perm below).filter _).map _

variable [WholeText α]

/-- Of two analyses that differ in their depths alone the one with the smaller depth reports the
modules of the other that are no farther away, in the same order and with the same entries. -/
theorem analyze_affected_of_smaller_depth
    (same : shallow.config = { analyzer.config with maxDepth := shallow.config.maxDepth })
    (below : shallow.config.maxDepth ≤ analyzer.config.maxDepth) (change : ChangeSet)
    (snapshot : Snapshot) (coverage : CoverageSource α) (now later : Timestamp) :
    (shallow.analyze change snapshot coverage later).map Report.affected =
      (analyzer.analyze change snapshot coverage now).map fun report =>
        report.affected.filter (·.distance ≤ shallow.config.maxDepth) := by
  have isCut := eq_cutOff same
  cases checked : checkInputs change snapshot with
  | error error =>
      rw [analyze_of_checkInputs_error checked, analyze_of_checkInputs_error checked]
      rfl
  | ok _ =>
      obtain ⟨report, analyzed⟩ := exists_report analyzer coverage now checked
      obtain ⟨other, cut⟩ := exists_report shallow coverage later checked
      rw [analyzed, cut, Except.map, Except.map, affected_of_analyze analyzed,
        affected_of_analyze cut, ← affectedBy_cutOff below, ← isCut]

/-- In the chain a depth of one leaves the module `b`, which is one step away. -/
theorem analyze_affected_of_smaller_depth_chain :
    ∃ report other, plain.analyze firstChanged chain CoverageSource.none default = .ok report ∧
      (plain.cutOff 1).analyze firstChanged chain CoverageSource.none default = .ok other ∧
      other.affected = report.affected.filter (·.distance ≤ 1) ∧
      ∃ entry ∈ other.affected, entry.path = "b" := by
  obtain ⟨report, analyzed⟩ := exists_report plain CoverageSource.none default checkInputs_chain
  obtain ⟨other, cut⟩ :=
    exists_report (plain.cutOff 1) CoverageSource.none default checkInputs_chain
  have same : (plain.cutOff 1).config =
      { plain.config with maxDepth := (plain.cutOff 1).config.maxDepth } := rfl
  have below : (plain.cutOff 1).config.maxDepth ≤ plain.config.maxDepth := by decide
  have left := analyze_affected_of_smaller_depth same below firstChanged chain
    CoverageSource.none default default
  rw [analyzed, cut] at left
  have fewer : other.affected = report.affected.filter (·.distance ≤ 1) := Except.ok.inj left
  obtain ⟨entry, member, path, distance⟩ := exists_affectedBy_of_isNearest_one rfl isNearest_chain
  rw [← affected_of_analyze analyzed] at member
  refine ⟨report, other, analyzed, cut, fewer, entry, ?_, path⟩
  rw [fewer]
  exact List.mem_filter.mpr ⟨member, decide_eq_true distance.le⟩

end ChangeImpact.Analyzer
