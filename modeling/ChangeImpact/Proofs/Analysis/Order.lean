/-
This file shows in which order a report lists its modules, and that it lists dangerous paths first
and leaves paths of equal risk in the order in which they were traced.
-/

import ChangeImpact.Proofs.Analysis.Consistency
import ChangeImpact.Proofs.Analysis.Ranking

namespace ChangeImpact

/-- Items that may stand in any order keep the one they have when their list is sorted. -/
theorem filter_mergeSort {β : Type} {before : β → β → Bool} {keep : β → Bool}
    (trans : ∀ first second third, before first second → before second third →
      before first third)
    (total : ∀ left right, before left right || before right left)
    (tied : ∀ left right, keep left → keep right → before left right) (items : List β) :
    (items.mergeSort before).filter keep = items.filter keep := by
  have ordered : (items.filter keep).Pairwise fun left right => before left right :=
    List.pairwise_of_forall_mem_list fun left isLeft right isRight =>
      tied left right (List.mem_filter.mp isLeft).2 (List.mem_filter.mp isRight).2
  have inside : (items.filter keep).Sublist ((items.mergeSort before).filter keep) := by
    simpa using (List.sublist_mergeSort trans total ordered List.filter_sublist).filter keep
  have same := (List.mergeSort_perm items before).filter keep
  exact (inside.eq_of_length same.length_eq.symm).symm

variable {α : Type} [Scalar α]

namespace AffectedModule

/-- A module precedes another if it scores higher, or as high at a shorter distance, or as high at
the same distance with a lesser path. -/
def Precedes (left right : AffectedModule α) : Prop :=
  Scalar.order right.score left.score = .lt ∨
    Scalar.order right.score left.score = .eq ∧
      (left.distance < right.distance ∨ left.distance = right.distance ∧ left.path < right.path)

theorem order_eq_lt_iff {left right : AffectedModule α} :
    order left right = .lt ↔ left.Precedes right := by
  rw [order, Ordering.then_eq_lt, Ordering.then_eq_lt, Nat.compare_eq_lt, Nat.compare_eq_eq,
    compare_lt_iff_lt, Precedes]

variable [Std.TransCmp (Scalar.order : α → α → Ordering)]

/-- In a sorted list of modules with different paths each one precedes all those after it. -/
theorem pairwise_precedes {affected : List (AffectedModule α)}
    (nodup : (affected.map path).Nodup)
    (sorted : affected.Pairwise fun left right => (order left right).isLE) :
    affected.Pairwise Precedes := by
  refine sorted.imp₂ (fun left right before apart => ?_) (List.pairwise_map.mp nodup)
  rw [← order_eq_lt_iff]
  cases compared : order left right with
  | lt => rfl
  | eq => exact absurd (path_eq_of_isLE before (by simp [Std.OrientedCmp.eq_symm compared])) apart
  | gt => simp [compared] at before

end AffectedModule

namespace ImpactPath

variable [Std.TransCmp (Scalar.order : α → α → Ordering)]

theorem isLE_trans (first second third : ImpactPath α)
    (before : (Scalar.order second.risk first.risk).isLE)
    (after : (Scalar.order third.risk second.risk).isLE) :
    (Scalar.order third.risk first.risk).isLE :=
  Std.TransCmp.isLE_trans after before

/-- No path is listed before one of a greater risk. -/
theorem pairwise_sort (paths : List (ImpactPath α)) :
    (sort paths).Pairwise fun left right => (Scalar.order right.risk left.risk).isLE :=
  List.pairwise_mergeSort isLE_trans (fun left right => Scalar.isLE_or_isLE right.risk left.risk)
    paths

/-- The paths of one risk are listed in the order in which they were given. -/
theorem filter_sort (paths : List (ImpactPath α)) (risk : α) :
    (sort paths).filter (fun path => Scalar.order path.risk risk = .eq) =
      paths.filter (fun path => Scalar.order path.risk risk = .eq) := by
  refine filter_mergeSort isLE_trans (fun left right => Scalar.isLE_or_isLE right.risk left.risk)
    (fun left right same another => ?_) paths
  rw [decide_eq_true_eq] at same another
  rw [Std.TransCmp.eq_trans another (Std.OrientedCmp.eq_symm same)]
  rfl

end ImpactPath

namespace Analyzer

variable [Std.TransCmp (Scalar.order : α → α → Ordering)] [WholeText α] {analyzer : Analyzer α}
  {change : ChangeSet} {snapshot : Snapshot} {coverage : CoverageSource α} {now : Timestamp}
  {report : Report α}

/-- A report lists its modules by their scores, distances and paths. It lists the traced paths,
which are numbered in the order in which they were traced, by falling risk, and paths of equal risk
in the order of their numbers. Of modules with different paths any list has the same order, however
it was given. -/
theorem analyze_sorted (analyzed : analyzer.analyze change snapshot coverage now = .ok report) :
    report.affected.Pairwise AffectedModule.Precedes ∧
      (∃ traced : List (ImpactPath α),
        List.Forall₂ (fun item path => analyzer.Traces snapshot (item.2 + 1) item.1 path)
          ((analyzer.connectedPairs change snapshot report.affected).take
            analyzer.config.maxPaths).zipIdx traced ∧
        traced.map ImpactPath.id =
          (List.range traced.length).map (fun place => s!"path_{place + 1}") ∧
        (report.paths.map ImpactPath.id).Nodup ∧
        report.paths.Perm traced ∧
        report.paths.Pairwise (fun left right => (Scalar.order right.risk left.risk).isLE) ∧
        ∀ risk, report.paths.filter (fun path => Scalar.order path.risk risk = .eq) =
          traced.filter (fun path => Scalar.order path.risk risk = .eq)) ∧
      ∀ affected others : List (AffectedModule α), (affected.map AffectedModule.path).Nodup →
        affected.Perm others → AffectedModule.sort affected = AffectedModule.sort others := by
  have isAffected := affected_of_analyze analyzed
  obtain ⟨traced, done, each⟩ := exists_traced analyzer change snapshot coverage
  have sorted : ImpactPath.sort traced = report.paths :=
    Except.ok.inj (done.symm.trans (paths_of_analyze analyzed))
  refine ⟨?_, ⟨traced, isAffected ▸ each, map_id_of_traces each, ids_nodup analyzed, ?_, ?_, ?_⟩,
    fun affected others nodup same => AffectedModule.sort_eq_of_perm nodup same⟩
  · rw [isAffected]
    exact AffectedModule.pairwise_precedes (affectedBy_nodup analyzer change snapshot coverage)
      (AffectedModule.pairwise_sort _)
  · rw [← sorted]
    exact List.mergeSort_perm _ _
  · rw [← sorted]
    exact ImpactPath.pairwise_sort traced
  · intro risk
    rw [← sorted, ImpactPath.filter_sort]

section Sample

/-- The report on the chain lists its modules in the same order as if they were given in reverse. -/
theorem analyze_sorted_chain :
    ∃ report, plain.analyze firstChanged chain CoverageSource.none default = .ok report ∧
      report.affected.Pairwise AffectedModule.Precedes ∧
      (report.paths.map ImpactPath.id).Nodup ∧
      AffectedModule.sort report.affected = AffectedModule.sort report.affected.reverse := by
  obtain ⟨report, analyzed⟩ := exists_report plain CoverageSource.none default checkInputs_chain
  obtain ⟨precedes, ⟨traced, _, _, ids, _⟩, unique⟩ := analyze_sorted analyzed
  have nodup : (report.affected.map AffectedModule.path).Nodup := by
    rw [affected_of_analyze analyzed]
    exact affectedBy_nodup plain firstChanged chain CoverageSource.none
  exact ⟨report, analyzed, precedes, ids, unique _ _ nodup report.affected.reverse_perm.symm⟩

end Sample

end Analyzer

end ChangeImpact
