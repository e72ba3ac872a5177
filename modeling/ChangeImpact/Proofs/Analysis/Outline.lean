/-
This file shows that neither the order of the dependencies nor that of the changed modules has a
part in which modules an analysis reports, how they rank, and which cycles it finds among them.
-/

import ChangeImpact.Proofs.Analysis.Affected
import ChangeImpact.Proofs.Analysis.Ranking
import ChangeImpact.Proofs.Graph.Cycle

namespace ChangeImpact

/-- What a report says of a module apart from what depends on the dependency that reached it. -/
def AffectedModule.outline {α : Type} (affected : AffectedModule α) : AffectedModule α :=
  { affected with language := "", kind := none, tags := [], features := [] }

namespace Analyzer

variable {α : Type} [Scalar α]

/-- The outline of a module follows from its standing. -/
def outlineOf (analyzer : Analyzer α) (change : ChangeSet) (coverage : CoverageSource α)
    (standing : String × Nat × Strength) : AffectedModule α :=
  let score := Impact.score standing.2.1 standing.2.2 (coverage.coverageOf standing.1)
  { path := standing.1
    language := ""
    distance := standing.2.1
    strength := standing.2.2
    kind := none
    coverage := coverage.coverageOf standing.1
    score
    risk := analyzer.config.riskThresholds.classify score
    tags := []
    reason := Impact.reason standing.2.1 standing.2.2 change.kind
    features := [] }

/-- So does whether it is reported. -/
def reportsStanding (analyzer : Analyzer α) (change : ChangeSet) (coverage : CoverageSource α)
    (standing : String × Nat × Strength) : Bool :=
  change.touches standing.1 ||
    !decide (Impact.score standing.2.1 standing.2.2 (coverage.coverageOf standing.1) <
      analyzer.config.impactThreshold)

variable {analyzer : Analyzer α} {change swapped : ChangeSet} {snapshot reordered : Snapshot}
  {coverage : CoverageSource α} {path : String} {distance : Nat} {strength : Strength}

theorem outline_assess (analyzer : Analyzer α) (change : ChangeSet) (snapshot : Snapshot)
    (coverage : CoverageSource α) (record : Reach) :
    (analyzer.assess change snapshot coverage record).outline =
      analyzer.outlineOf change coverage record.standing := rfl

theorem isReported_eq (analyzer : Analyzer α) (change : ChangeSet) (coverage : CoverageSource α)
    (record : Reach) :
    analyzer.isReported change coverage record =
      analyzer.reportsStanding change coverage record.standing := rfl

/-- Changed modules stand at the change, and others where the change reaches them. -/
theorem mem_standings_iff :
    (path, distance, strength) ∈ (analyzer.reached change snapshot).map Reach.standing ↔
      path ∈ change.modules ∧ distance = 0 ∧ strength = .strong ∨
        path ∉ change.modules ∧ analyzer.IsNearest change snapshot path distance ∧
          IsGreatest (analyzer.carriers change snapshot path distance) strength := by
  have unfolded : (path, distance, strength) ∈
      (analyzer.reached change snapshot).map Reach.standing ↔
        ∃ record ∈ analyzer.reached change snapshot,
          record.path = path ∧ record.distance = distance ∧ record.strength = strength := by
    simp [Reach.standing]
  rw [unfolded]
  by_cases changed : path ∈ change.modules
  · simp only [changed, true_and, not_true_eq_false, false_and, or_false]
    constructor
    · rintro ⟨record, isReached, rfl, rfl, rfl⟩
      rw [start_of_reached isReached changed]
      exact ⟨rfl, rfl⟩
    · rintro ⟨rfl, rfl⟩
      obtain ⟨record, isReached, rfl⟩ := exists_reached_of_changed analyzer snapshot changed
      refine ⟨record, isReached, rfl, ?_⟩
      rw [start_of_reached isReached changed]
      exact ⟨rfl, rfl⟩
  · simp only [changed, false_and, not_false_eq_true, true_and, false_or]
    exact exists_reached_iff changed

theorem nodup_standings (analyzer : Analyzer α) (change : ChangeSet) (snapshot : Snapshot) :
    ((analyzer.reached change snapshot).map Reach.standing).Nodup := by
  have nodup := (gathered_reached analyzer change snapshot).nodup
  have paths : (analyzer.reached change snapshot).map Reach.path =
      ((analyzer.reached change snapshot).map Reach.standing).map Prod.fst := by
    rw [List.map_map]
    rfl
  exact (paths ▸ nodup).of_map

theorem order_outline (left right : AffectedModule α) :
    AffectedModule.order left.outline right.outline = AffectedModule.order left right := rfl

/-- The affected modules are reported in the order of their outlines. -/
theorem map_outline_affectedBy (analyzer : Analyzer α) (change : ChangeSet) (snapshot : Snapshot)
    (coverage : CoverageSource α) :
    (analyzer.affectedBy change snapshot coverage).map AffectedModule.outline =
      AffectedModule.sort ((((analyzer.reached change snapshot).map Reach.standing).filter
        (analyzer.reportsStanding change coverage)).map (analyzer.outlineOf change coverage)) := by
  have reports : analyzer.reportsStanding change coverage ∘ Reach.standing =
      analyzer.isReported change coverage :=
    funext fun record => (isReported_eq analyzer change coverage record).symm
  have outlines : analyzer.outlineOf change coverage ∘ Reach.standing =
      AffectedModule.outline ∘ analyzer.assess change snapshot coverage :=
    funext fun record => (outline_assess analyzer change snapshot coverage record).symm
  rw [List.filter_map, List.map_map, reports, outlines, ← List.map_map]
  exact AffectedModule.map_sort order_outline _

section Reordering

variable (sameEdges : ∀ edge, edge ∈ reordered.dependencies ↔ edge ∈ snapshot.dependencies)
  (sameModules : ∀ path, path ∈ swapped.modules ↔ path ∈ change.modules)

include sameEdges

theorem mem_kept_congr (edge : Dependency) :
    edge ∈ analyzer.kept reordered ↔ edge ∈ analyzer.kept snapshot := by
  rw [mem_kept_iff, mem_kept_iff, sameEdges]

/-- Only the set of the dependencies matters for where paths lead. -/
theorem connects_congr (direction : Direction) :
    analyzer.Connects reordered direction = analyzer.Connects snapshot direction := by
  funext source target
  simp only [Connects, Follows, mem_kept_congr sameEdges]

include sameModules

/-- Only the sets of the dependencies and of the changed modules matter for where a change spreads.
-/
theorem spreads_congr (direction : Direction) :
    analyzer.Spreads swapped reordered direction = analyzer.Spreads change snapshot direction := by
  funext source target
  simp only [Spreads, Follows, mem_kept_congr sameEdges, sameModules]

theorem isNearest_congr :
    analyzer.IsNearest swapped reordered path distance ↔
      analyzer.IsNearest change snapshot path distance := by
  simp only [IsNearest, spreads_congr sameEdges sameModules, sameModules]

theorem carriers_congr :
    analyzer.carriers swapped reordered path distance =
      analyzer.carriers change snapshot path distance := by
  simp only [carriers, IsDistance, spreads_congr sameEdges sameModules, sameModules,
    mem_kept_congr sameEdges]

/-- Every module is reached with the same standing. -/
theorem standings_perm :
    ((analyzer.reached swapped reordered).map Reach.standing).Perm
      ((analyzer.reached change snapshot).map Reach.standing) := by
  refine (List.perm_ext_iff_of_nodup (nodup_standings analyzer swapped reordered)
    (nodup_standings analyzer change snapshot)).mpr fun ⟨path, distance, strength⟩ => ?_
  rw [mem_standings_iff, mem_standings_iff, sameModules, isNearest_congr sameEdges sameModules,
    carriers_congr sameEdges sameModules]

variable [Std.TransCmp (Scalar.order : α → α → Ordering)] (sameKind : swapped.kind = change.kind)

include sameKind

/-- The same modules are reported with the same outlines, in the same order. -/
theorem outlines_congr (analyzer : Analyzer α) (coverage : CoverageSource α) :
    (analyzer.affectedBy swapped reordered coverage).map AffectedModule.outline =
      (analyzer.affectedBy change snapshot coverage).map AffectedModule.outline := by
  have reports : analyzer.reportsStanding swapped coverage =
      analyzer.reportsStanding change coverage := by
    funext standing
    rw [reportsStanding, reportsStanding, ChangeSet.touches_congr sameModules]
  have outlines : analyzer.outlineOf swapped coverage = analyzer.outlineOf change coverage := by
    funext standing
    rw [outlineOf, outlineOf, sameKind]
  rw [map_outline_affectedBy, map_outline_affectedBy, reports, outlines]
  refine AffectedModule.sort_eq_of_perm ?_
    (((standings_perm sameEdges sameModules).filter _).map _)
  have distinct := (gathered_reached analyzer swapped reordered).nodup
  rw [List.map_map, List.filter_map, List.map_map]
  exact distinct.sublist (List.filter_sublist.map Reach.path)

theorem paths_affectedBy_congr :
    (analyzer.affectedBy swapped reordered coverage).map AffectedModule.path =
      (analyzer.affectedBy change snapshot coverage).map AffectedModule.path := by
  have same := congrArg (List.map AffectedModule.path)
    (outlines_congr sameEdges sameModules sameKind analyzer coverage)
  rw [List.map_map, List.map_map] at same
  exact same

/-- The same cycles are found among the reported modules. -/
theorem cyclesBy_congr :
    analyzer.cyclesBy swapped reordered coverage = analyzer.cyclesBy change snapshot coverage := by
  rw [cyclesBy, cyclesBy, paths_affectedBy_congr sameEdges sameModules sameKind]
  refine Graph.cycles_congr (fun _ => Iff.rfl) ?_
  rw [graph_eq, graph_eq, Graph.within_ofDependencies, Graph.within_ofDependencies]
  funext path other
  simp only [DependsWithin, mem_kept_congr sameEdges]

end Reordering

end Analyzer

end ChangeImpact
