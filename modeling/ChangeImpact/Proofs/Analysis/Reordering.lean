/-
This file shows that the order of the dependencies has no part in which paths an analysis traces,
how long they are, and which shape they have.
-/

import ChangeImpact.Proofs.Analysis.Outline
import ChangeImpact.Proofs.Analysis.Shape

namespace ChangeImpact

/-- What a report says of a path apart from what depends on the choice among shortest paths. -/
def ImpactPath.outline {α : Type} [Scalar α] (path : ImpactPath α) : ImpactPath α :=
  { path with path := [], weight := 0.0, risk := 0.0, criticalEdges := [], breakingPoints := [] }

theorem Direction.eq_of_dependents_iff {left right : Direction}
    (same : left = .dependents ↔ right = .dependents) : left = right := by
  cases left <;> cases right <;> simp_all

namespace Analyzer

/-- These are the paths of the modules of a pair. -/
def endsOf {α : Type} (pair : String × AffectedModule α) : String × String :=
  (pair.1, pair.2.path)

/-- The pairs of a changed module and an affected one have the ends that the outlines tell. -/
theorem map_endsOf_pairs {α : Type} (seeds : List String) (affected : List (AffectedModule α)) :
    (pairs seeds affected).map endsOf =
      (pairs seeds (affected.map AffectedModule.outline)).map endsOf := by
  simp only [pairs, List.map_flatMap, List.map_map, List.filter_map]
  rfl

variable {α : Type} [Scalar α]

/-- The outline of a path follows from its ends, its number of modules and its direction. -/
def sketch (cycles : List (List String)) (number : Nat)
    (bridge : String × String × Nat × Direction) : ImpactPath α where
  id := s!"path_{number}"
  source := bridge.1
  target := bridge.2.1
  path := []
  length := bridge.2.2.1 - 1
  weight := 0.0
  risk := 0.0
  shape :=
    if Graph.shareCycle cycles bridge.1 bridge.2.1 then .circular
    else if bridge.2.2.1 = 2 then .direct
    else .transitive
  direction := bridge.2.2.2
  criticalEdges := []
  breakingPoints := []

/-- This is what a connection has in common with every other one between its ends. -/
def bridgeOf (connection : String × AffectedModule α × List String × Direction) :
    String × String × Nat × Direction :=
  (connection.1, connection.2.1.path, connection.2.2.1.length, connection.2.2.2)

/-- This is the bridge from one module to another, if they are connected. -/
def bridge? (analyzer : Analyzer α) (graph : Graph) (ends : String × String) :
    Option (String × String × Nat × Direction) :=
  (analyzer.connection? graph ends.1 ends.2).map fun connection =>
    (ends.1, ends.2, connection.1.length, connection.2)

variable {analyzer : Analyzer α} {change : ChangeSet} {snapshot reordered : Snapshot}
  {coverage : CoverageSource α}

/-- A description of a shortest route has the outline that its bridge says. -/
theorem outline_of_describes {cycles : List (List String)} {number : Nat}
    {connection : String × AffectedModule α × List String × Direction} {described : ImpactPath α}
    (describes : Describes cycles number connection described)
    (nodup : connection.2.2.1.Nodup) :
    described.outline = sketch cycles number (bridgeOf connection) := by
  obtain ⟨id, source, target, path, direction, length, shape⟩ := describes
  rw [PathShape.ofPath_of_nodup nodup] at shape
  simp only [ImpactPath.outline, sketch, bridgeOf, id, source, target, direction, length, shape]
  rfl

/-- The connections have the bridges of the first pairs of ends that have one. -/
theorem map_bridgeOf_connections (analyzer : Analyzer α) (graph : Graph) (limit : Nat)
    (pairs : List (String × AffectedModule α)) :
    (analyzer.connections graph limit pairs).map bridgeOf =
      ((pairs.map endsOf).filterMap (analyzer.bridge? graph)).take limit := by
  rw [connections_eq_take, List.map_take, List.map_filterMap, List.filterMap_map]
  congr 2
  funext pair
  simp only [joined?, bridge?, Option.map_map, Function.comp_apply]
  rfl

/-- The paths of a report have the outlines of the first bridges, in any order. -/
theorem exists_outlines (analyzer : Analyzer α) (change : ChangeSet) (snapshot : Snapshot)
    (coverage : CoverageSource α) :
    ∃ traced, analyzer.pathsBy change snapshot coverage = .ok (ImpactPath.sort traced) ∧
      traced.map ImpactPath.outline =
        ((((pairs (distinct change.modules)
          (analyzer.affectedBy change snapshot coverage)).map endsOf).filterMap
            (analyzer.bridge? (analyzer.graph snapshot))).take
              analyzer.config.maxPaths).zipIdx.map fun item =>
                sketch (analyzer.cyclesBy change snapshot coverage) (item.2 + 1) item.1 := by
  obtain ⟨traced, done, describes⟩ := exists_impactPaths analyzer snapshot
    (distinct change.modules) (analyzer.affectedBy change snapshot coverage)
    (analyzer.cyclesBy change snapshot coverage)
  refine ⟨traced, done, ?_⟩
  have shortest : ∀ item ∈ (analyzer.connections (analyzer.graph snapshot)
      analyzer.config.maxPaths (pairs (distinct change.modules)
        (analyzer.affectedBy change snapshot coverage))).zipIdx, item.1.2.2.1.Nodup := by
    rintro ⟨⟨source, target, path, direction⟩, index⟩ member
    have found := connection?_of_mem (List.fst_mem_of_mem_zipIdx member)
    exact (shortestRoute_of_connection? found).1.nodup
  rw [← map_bridgeOf_connections, List.zipIdx_map, List.map_map, eq_comm,
    ← List.forall₂_eq_eq_eq, List.forall₂_map_left_iff, List.forall₂_map_right_iff]
  refine List.Forall₂.imp ?_ ((List.forall₂_and_left _ _).mpr ⟨shortest, describes⟩)
  rintro item path ⟨nodup, describes⟩
  exact (outline_of_describes describes nodup).symm

section Reordering

variable (sameEdges : ∀ edge, edge ∈ reordered.dependencies ↔ edge ∈ snapshot.dependencies)

include sameEdges

/-- Whichever shortest routes are found between two modules, they have one length and direction. -/
theorem bridge?_congr (ends : String × String) :
    analyzer.bridge? (analyzer.graph reordered) ends =
      analyzer.bridge? (analyzer.graph snapshot) ends := by
  have connected : analyzer.Connected reordered ends.1 ends.2 ↔
      analyzer.Connected snapshot ends.1 ends.2 := by
    simp only [Connected, Joins, connects_congr sameEdges]
  rw [← isSome_connection?_iff, ← isSome_connection?_iff] at connected
  rw [bridge?, bridge?]
  cases other : analyzer.connection? (analyzer.graph reordered) ends.1 ends.2 with
  | none =>
      cases found : analyzer.connection? (analyzer.graph snapshot) ends.1 ends.2 with
      | none => rfl
      | some connection => simp [other, found] at connected
  | some another =>
      cases found : analyzer.connection? (analyzer.graph snapshot) ends.1 ends.2 with
      | none => simp [other, found] at connected
      | some connection =>
          obtain ⟨route, way⟩ := shortestRoute_of_connection? found
          obtain ⟨otherRoute, otherWay⟩ := shortestRoute_of_connection? other
          rw [connects_congr sameEdges] at otherRoute
          rw [Joins, connects_congr sameEdges, ← Joins, ← way] at otherWay
          have direction : another.2 = connection.2 := Direction.eq_of_dependents_iff otherWay
          rw [direction] at otherRoute
          simp only [Option.map_some, direction, otherRoute.length_eq route]

variable [Std.TransCmp (Scalar.order : α → α → Ordering)]

/-- The paths of the two reports have the same outlines. -/
theorem exists_outlines_perm (analyzer : Analyzer α) (change : ChangeSet)
    (coverage : CoverageSource α) :
    ∃ paths others, analyzer.pathsBy change snapshot coverage = .ok paths ∧
      analyzer.pathsBy change reordered coverage = .ok others ∧
      (others.map ImpactPath.outline).Perm (paths.map ImpactPath.outline) := by
  have sameModules : ∀ path, path ∈ change.modules ↔ path ∈ change.modules := fun _ => Iff.rfl
  obtain ⟨traced, done, outlines⟩ := exists_outlines analyzer change snapshot coverage
  obtain ⟨others, otherDone, otherOutlines⟩ := exists_outlines analyzer change reordered coverage
  have ends : (pairs (distinct change.modules)
        (analyzer.affectedBy change reordered coverage)).map endsOf =
      (pairs (distinct change.modules)
        (analyzer.affectedBy change snapshot coverage)).map endsOf := by
    rw [map_endsOf_pairs, outlines_congr sameEdges sameModules rfl, ← map_endsOf_pairs]
  have same : others.map ImpactPath.outline = traced.map ImpactPath.outline := by
    rw [outlines, otherOutlines, ends, cyclesBy_congr sameEdges sameModules rfl,
      funext (bridge?_congr sameEdges)]
  refine ⟨_, _, done, otherDone, ?_⟩
  have sorted (list : List (ImpactPath α)) : (ImpactPath.sort list).Perm list :=
    List.mergeSort_perm _ _
  exact ((sorted others).map _).trans (same ▸ (sorted traced).symm.map _)

end Reordering

variable [Std.TransCmp (Scalar.order : α → α → Ordering)] [WholeText α] {now : Timestamp}
  {report : Report α}

/-- In another order the same dependencies give a report with the same outlines of the affected
modules, in the same order, with the same cycles and with the same outlines of the paths, however
many paths are allowed. In another order the same changed modules give a report with the same
outlines of the affected modules, in the same order, and with the same cycles. -/
theorem analyze_reordered
    (analyzed : analyzer.analyze change snapshot coverage now = .ok report) (later : Timestamp) :
    (∀ dependencies : List Dependency, dependencies.Perm snapshot.dependencies →
      ∃ other, analyzer.analyze change { snapshot with dependencies } coverage later = .ok other ∧
        other.affected.map AffectedModule.outline =
          report.affected.map AffectedModule.outline ∧
        other.assessment.cycles = report.assessment.cycles ∧
        (other.paths.map ImpactPath.outline).Perm (report.paths.map ImpactPath.outline)) ∧
    ∀ modules : List String, modules.Perm change.modules →
      ∃ other, analyzer.analyze { change with modules } snapshot coverage later = .ok other ∧
        other.affected.map AffectedModule.outline =
          report.affected.map AffectedModule.outline ∧
        other.assessment.cycles = report.assessment.cycles := by
  have passes := checkInputs_eq_ok_iff.mp (analyze_eq_ok_iff.mp analyzed).1
  constructor
  · intro dependencies perm
    have sameEdges : ∀ edge, edge ∈ { snapshot with dependencies }.dependencies ↔
        edge ∈ snapshot.dependencies := fun _ => perm.mem_iff
    have sameModules : ∀ path, path ∈ change.modules ↔ path ∈ change.modules := fun _ => Iff.rfl
    obtain ⟨other, again⟩ := exists_report analyzer coverage later
      (checkInputs_eq_ok_iff.mpr (mt (refuses_congr sameEdges sameModules rfl).mp passes))
    obtain ⟨paths, others, done, otherDone, outlines⟩ :=
      exists_outlines_perm sameEdges analyzer change coverage
    obtain rfl : paths = report.paths :=
      Except.ok.inj (done.symm.trans (paths_of_analyze analyzed))
    obtain rfl : others = other.paths :=
      Except.ok.inj (otherDone.symm.trans (paths_of_analyze again))
    refine ⟨other, again, ?_, ?_, outlines⟩
    · rw [affected_of_analyze analyzed, affected_of_analyze again]
      exact outlines_congr sameEdges sameModules rfl analyzer coverage
    · rw [cycles_of_analyze analyzed, cycles_of_analyze again]
      exact cyclesBy_congr sameEdges sameModules rfl
  · intro modules perm
    have sameEdges : ∀ edge, edge ∈ snapshot.dependencies ↔ edge ∈ snapshot.dependencies :=
      fun _ => Iff.rfl
    have sameModules : ∀ path, path ∈ { change with modules }.modules ↔ path ∈ change.modules :=
      fun _ => perm.mem_iff
    obtain ⟨other, again⟩ := exists_report analyzer coverage later
      (checkInputs_eq_ok_iff.mpr (mt (refuses_congr sameEdges sameModules rfl).mp passes))
    refine ⟨other, again, ?_, ?_⟩
    · rw [affected_of_analyze analyzed, affected_of_analyze again]
      exact outlines_congr sameEdges sameModules rfl analyzer coverage
    · rw [cycles_of_analyze analyzed, cycles_of_analyze again]
      exact cyclesBy_congr sameEdges sameModules rfl

/-- In the chain the dependencies may be listed in reverse. -/
theorem analyze_reordered_chain :
    ∃ report other, plain.analyze firstChanged chain CoverageSource.none default = .ok report ∧
      plain.analyze firstChanged
        { chain with dependencies := chain.dependencies.reverse } CoverageSource.none default =
          .ok other ∧
      other.affected.map AffectedModule.outline = report.affected.map AffectedModule.outline ∧
      (other.paths.map ImpactPath.outline).Perm (report.paths.map ImpactPath.outline) := by
  obtain ⟨report, analyzed⟩ := exists_report plain CoverageSource.none default checkInputs_chain
  obtain ⟨other, again, affected, _, paths⟩ :=
    (analyze_reordered analyzed default).1 _ (List.reverse_perm chain.dependencies)
  exact ⟨report, other, analyzed, again, affected, paths⟩

end Analyzer

end ChangeImpact
