/-
This file shows which modules an analysis reports, at which distance and with which strength.
-/

import ChangeImpact.Proofs.Analysis.Outcome
import ChangeImpact.Proofs.Graph.Reachable

namespace ChangeImpact

namespace Analyzer

variable {α : Type} [Scalar α]

/-- The nearest way to a module is a shortest walk of all directions within the depth. -/
def IsNearest (analyzer : Analyzer α) (change : ChangeSet) (snapshot : Snapshot) (path : String)
    (distance : Nat) : Prop :=
  IsLeast {length | length ≤ analyzer.config.maxDepth ∧ ∃ direction, ∃ source ∈ change.modules,
    Walk (analyzer.Spreads change snapshot direction) length source path} distance

/-- These are the strengths of the dependencies that enter a module, in a direction in which it has
the given distance, from a module that is one step nearer in that direction. -/
def carriers (analyzer : Analyzer α) (change : ChangeSet) (snapshot : Snapshot) (path : String)
    (distance : Nat) : Set Strength :=
  {strength | ∃ direction,
    IsDistance (analyzer.Spreads change snapshot direction) change.modules path distance ∧
    ∃ edge ∈ analyzer.kept snapshot, direction.finish edge = path ∧ edge.strength = strength ∧
      ∃ nearer, distance = nearer + 1 ∧ IsDistance (analyzer.Spreads change snapshot direction)
        change.modules (direction.start edge) nearer}

/-- This is what the change reaches in one direction. -/
def explored (analyzer : Analyzer α) (change : ChangeSet) (snapshot : Snapshot)
    (direction : Direction) : List Reach :=
  (analyzer.graph snapshot).reachable (distinct change.modules) direction
    analyzer.config.maxDepth analyzer.exclusion.excludes

/-- This is the best of what the change reaches in both directions. -/
def reached (analyzer : Analyzer α) (change : ChangeSet) (snapshot : Snapshot) : List Reach :=
  analyzer.reaches (analyzer.graph snapshot) (distinct change.modules)

variable {analyzer : Analyzer α} {change : ChangeSet} {snapshot : Snapshot}
  {direction : Direction} {path : String} {distance : Nat} {record other : Reach}

theorem leads_graph (analyzer : Analyzer α) (change : ChangeSet) (snapshot : Snapshot)
    (direction : Direction) :
    ((analyzer.graph snapshot).Leads direction fun path =>
      path ∈ distinct change.modules ∨ analyzer.exclusion.excludes path = false) =
      analyzer.Spreads change snapshot direction := by
  simp only [graph_eq, Graph.leads_ofDependencies, mem_distinct, Spreads]

theorem mem_layers_explored_iff :
    (path, distance) ∈ (analyzer.explored change snapshot direction).map Reach.layer ↔
      distance ≤ analyzer.config.maxDepth ∧
        IsDistance (analyzer.Spreads change snapshot direction) change.modules path distance := by
  rw [explored, Graph.mem_layers_reachable_iff, leads_graph]
  simp only [IsDistance, mem_distinct]

theorem distance_of_explored (member : record ∈ analyzer.explored change snapshot direction) :
    record.distance ≤ analyzer.config.maxDepth ∧ IsDistance
      (analyzer.Spreads change snapshot direction) change.modules record.path record.distance :=
  mem_layers_explored_iff.mp (List.mem_map_of_mem member)

/-- A module that a walk within the depth leads to is explored, and no later than by that walk. -/
theorem exists_explored {source : String} {length : Nat} (changed : source ∈ change.modules)
    (walk : Walk (analyzer.Spreads change snapshot direction) length source path)
    (inDepth : length ≤ analyzer.config.maxDepth) :
    ∃ record ∈ analyzer.explored change snapshot direction,
      record.path = path ∧ record.distance ≤ length := by
  obtain ⟨distance, near, isDistance⟩ := exists_isDistance_of_walk changed walk
  obtain ⟨record, member, same⟩ :=
    List.mem_map.mp (mem_layers_explored_iff.mpr ⟨near.trans inDepth, isDistance⟩)
  rw [Reach.layer, Prod.mk.injEq] at same
  exact ⟨record, member, same.1, same.2.trans_le near⟩

theorem gathered_reached (analyzer : Analyzer α) (change : ChangeSet) (snapshot : Snapshot) :
    Reaches.Gathered (fun _ => false)
      (analyzer.explored change snapshot .dependents ++
        analyzer.explored change snapshot .dependencies)
      (analyzer.reached change snapshot) := by
  simpa [reached, reaches, explored] using Reaches.gathered_merge
    [analyzer.explored change snapshot .dependents,
      analyzer.explored change snapshot .dependencies]

theorem mem_explored_of_reached (member : record ∈ analyzer.reached change snapshot) :
    ∃ direction, record ∈ analyzer.explored change snapshot direction := by
  rcases List.mem_append.mp ((gathered_reached analyzer change snapshot).among _ member).1 with
    up | down
  · exact ⟨.dependents, up⟩
  · exact ⟨.dependencies, down⟩

theorem mem_both_of_explored (member : other ∈ analyzer.explored change snapshot direction) :
    other ∈ analyzer.explored change snapshot .dependents ++
      analyzer.explored change snapshot .dependencies := by
  cases direction with
  | dependents => exact List.mem_append_left _ member
  | dependencies => exact List.mem_append_right _ member

/-- A reached module has no better record in any direction. -/
theorem best_of_reached (member : record ∈ analyzer.reached change snapshot)
    (isOther : other ∈ analyzer.explored change snapshot direction)
    (same : other.path = record.path) :
    record.distance ≤ other.distance ∧
      (other.distance = record.distance → other.strength ≤ record.strength) := by
  have best := (gathered_reached analyzer change snapshot).best record member other
    (mem_both_of_explored isOther) same
  rw [← Bool.not_eq_true, Reach.isImprovedBy_iff, not_or, not_and] at best
  exact ⟨Nat.not_lt.mp best.1, fun equal => Nat.not_lt.mp (best.2 equal)⟩

/-- A module is reached at its nearest distance. -/
theorem isNearest_of_reached (member : record ∈ analyzer.reached change snapshot) :
    analyzer.IsNearest change snapshot record.path record.distance := by
  obtain ⟨direction, isExplored⟩ := mem_explored_of_reached member
  obtain ⟨inDepth, ⟨source, changed, walk⟩, _⟩ := distance_of_explored isExplored
  refine ⟨⟨inDepth, direction, source, changed, walk⟩, ?_⟩
  rintro length ⟨bound, way, other, isChanged, walk⟩
  obtain ⟨better, isBetter, same, near⟩ := exists_explored isChanged walk bound
  exact (best_of_reached member isBetter same).1.trans near

/-- The modules without a distance are changed. -/
theorem changed_of_isNearest_zero (nearest : analyzer.IsNearest change snapshot path 0) :
    path ∈ change.modules := by
  obtain ⟨⟨_, direction, source, changed, walk⟩, _⟩ := nearest
  cases walk with
  | here => exact changed

/-- A module that a change spreads to in one step has distance one, unless it is changed itself. -/
theorem isNearest_one_of_spreads {source : String} (changed : source ∈ change.modules)
    (step : analyzer.Spreads change snapshot direction source path)
    (unchanged : path ∉ change.modules) (inDepth : 1 ≤ analyzer.config.maxDepth) :
    analyzer.IsNearest change snapshot path 1 := by
  refine ⟨⟨inDepth, direction, source, changed, (Walk.here source).onward step⟩, ?_⟩
  rintro length ⟨_, way, other, isChanged, walk⟩
  cases walk with
  | here => exact absurd isChanged unchanged
  | onward => exact Nat.le_add_left _ _

/-- A module that some walk within the depth leads to is reached. -/
theorem exists_reached_of_walk {source : String} {length : Nat} (changed : source ∈ change.modules)
    (walk : Walk (analyzer.Spreads change snapshot direction) length source path)
    (inDepth : length ≤ analyzer.config.maxDepth) :
    ∃ record ∈ analyzer.reached change snapshot, record.path = path := by
  obtain ⟨other, isOther, same, _⟩ := exists_explored changed walk inDepth
  have known := (gathered_reached analyzer change snapshot).complete other
    (mem_both_of_explored isOther) rfl
  obtain ⟨record, member, path⟩ := List.mem_map.mp known
  exact ⟨record, member, path.trans same⟩

theorem exists_reached_of_isNearest (nearest : analyzer.IsNearest change snapshot path distance) :
    ∃ record ∈ analyzer.reached change snapshot, record.path = path ∧
      record.distance = distance := by
  obtain ⟨inDepth, _, source, changed, walk⟩ := nearest.1
  obtain ⟨record, member, rfl⟩ := exists_reached_of_walk changed walk inDepth
  exact ⟨record, member, rfl, (isNearest_of_reached member).unique nearest⟩

/-- Every changed module is reached. -/
theorem exists_reached_of_changed (analyzer : Analyzer α) (snapshot : Snapshot)
    (changed : path ∈ change.modules) :
    ∃ record ∈ analyzer.reached change snapshot, record.path = path := by
  have walk : Walk (analyzer.Spreads change snapshot .dependents) 0 path path := .here path
  exact exists_reached_of_walk changed walk (Nat.zero_le _)

/-- A changed module is reached in no steps and over no dependency. -/
theorem start_of_reached (member : record ∈ analyzer.reached change snapshot)
    (changed : record.path ∈ change.modules) : record = Reach.start record.path := by
  obtain ⟨_, isExplored⟩ := mem_explored_of_reached member
  exact Graph.start_of_reachable isExplored (mem_distinct.mpr changed)

/-- A module that is not changed is reached with the greatest strength that there is at its
distance. -/
theorem isGreatest_strength_of_reached (member : record ∈ analyzer.reached change snapshot)
    (unchanged : record.path ∉ change.modules) :
    IsGreatest (analyzer.carriers change snapshot record.path record.distance) record.strength := by
  constructor
  · obtain ⟨direction, isExplored⟩ := mem_explored_of_reached member
    obtain ⟨source, isSource, edge, isEdge, finish, next, carried⟩ :=
      Graph.edge_of_reachable isExplored (mt mem_distinct.mp unchanged)
    rw [graph_eq, Graph.mem_edgesFrom_ofDependencies] at isEdge
    refine ⟨direction, (distance_of_explored isExplored).2, edge, isEdge.1, finish, ?_,
      source.distance, next, ?_⟩
    · rw [Reach.strength, carried]
    · rw [isEdge.2]
      exact (distance_of_explored isSource).2
  · rintro strength ⟨direction, isDistance, edge, isKept, finish, rfl, nearer, next, isNearer⟩
    have inDepth := (isNearest_of_reached member).1.1
    obtain ⟨other, isOther, same⟩ :=
      List.mem_map.mp (mem_layers_explored_iff.mpr ⟨inDepth, isDistance⟩)
    obtain ⟨source, isSource, before⟩ := List.mem_map.mp
      (mem_layers_explored_iff.mpr ⟨by omega, isNearer⟩)
    rw [Reach.layer, Prod.mk.injEq] at same before
    have isEdge : edge ∈ (analyzer.graph snapshot).edgesFrom source.path direction := by
      rw [graph_eq, Graph.mem_edgesFrom_ofDependencies]
      exact ⟨isKept, before.1.symm⟩
    have below := Graph.strength_le_of_reachable isOther isSource isEdge (finish.trans same.1.symm)
      (by omega)
    exact Nat.le_trans below ((best_of_reached member isOther same.1).2 same.2)

/-- A module that is not changed is reached exactly at its nearest distance and with the greatest
strength that there is at that distance. -/
theorem exists_reached_iff {strength : Strength} (unchanged : path ∉ change.modules) :
    (∃ record ∈ analyzer.reached change snapshot,
      record.path = path ∧ record.distance = distance ∧ record.strength = strength) ↔
      analyzer.IsNearest change snapshot path distance ∧
        IsGreatest (analyzer.carriers change snapshot path distance) strength := by
  constructor
  · rintro ⟨record, isReached, rfl, rfl, rfl⟩
    exact ⟨isNearest_of_reached isReached, isGreatest_strength_of_reached isReached unchanged⟩
  · rintro ⟨nearest, greatest⟩
    obtain ⟨record, isReached, rfl, rfl⟩ := exists_reached_of_isNearest nearest
    have best := isGreatest_strength_of_reached isReached unchanged
    exact ⟨record, isReached, rfl, rfl,
      Strength.eq_of_le_of_le (greatest.2 best.1) (best.2 greatest.1)⟩

variable {coverage : CoverageSource α}

/-- The affected modules are the reported ones of those that the change reaches. -/
theorem affectedBy_perm (analyzer : Analyzer α) (change : ChangeSet) (snapshot : Snapshot)
    (coverage : CoverageSource α) :
    (analyzer.affectedBy change snapshot coverage).Perm
      (((analyzer.reached change snapshot).filter (analyzer.isReported change coverage)).map
        (analyzer.assess change snapshot coverage)) :=
  List.mergeSort_perm _ _

theorem isReported_iff : analyzer.isReported change coverage record = true ↔
    record.path ∈ change.modules ∨
      ¬ Impact.score record.distance record.strength (coverage.coverageOf record.path) <
        analyzer.config.impactThreshold := by
  rw [isReported, Bool.or_eq_true, ChangeSet.touches_iff, Bool.not_eq_true',
    decide_eq_false_iff_not, scoreOf]

theorem mem_affectedBy_iff {entry : AffectedModule α} :
    entry ∈ analyzer.affectedBy change snapshot coverage ↔
      ∃ record ∈ analyzer.reached change snapshot,
        (record.path ∈ change.modules ∨
          ¬ Impact.score record.distance record.strength (coverage.coverageOf record.path) <
            analyzer.config.impactThreshold) ∧
        analyzer.assess change snapshot coverage record = entry := by
  simp only [(affectedBy_perm analyzer change snapshot coverage).mem_iff, List.mem_map,
    List.mem_filter, isReported_iff, and_assoc]

/-- Every changed module is reported. -/
theorem exists_affectedBy_of_changed (analyzer : Analyzer α) (snapshot : Snapshot)
    (coverage : CoverageSource α) (changed : path ∈ change.modules) :
    ∃ entry ∈ analyzer.affectedBy change snapshot coverage, entry.path = path := by
  obtain ⟨record, isReached, rfl⟩ := exists_reached_of_changed analyzer snapshot changed
  exact ⟨_, mem_affectedBy_iff.mpr ⟨record, isReached, .inl changed, rfl⟩, rfl⟩

/-- Every module is reported at its nearest distance. -/
theorem isNearest_of_affectedBy {entry : AffectedModule α}
    (member : entry ∈ analyzer.affectedBy change snapshot coverage) :
    analyzer.IsNearest change snapshot entry.path entry.distance := by
  obtain ⟨record, isReached, _, rfl⟩ := mem_affectedBy_iff.mp member
  exact isNearest_of_reached isReached

/-- A module whose score is not below the threshold, however strong the dependency is that reaches
it, is reported. -/
theorem exists_affectedBy_of_isNearest (nearest : analyzer.IsNearest change snapshot path distance)
    (scored : ∀ strength, ¬ Impact.score distance strength (coverage.coverageOf path) <
      analyzer.config.impactThreshold) :
    ∃ entry ∈ analyzer.affectedBy change snapshot coverage,
      entry.path = path ∧ entry.distance = distance := by
  obtain ⟨record, isReached, rfl, rfl⟩ := exists_reached_of_isNearest nearest
  exact ⟨_, mem_affectedBy_iff.mpr ⟨record, isReached, .inr (scored record.strength), rfl⟩,
    rfl, rfl⟩

/-- The modules without a distance are the changed ones. -/
theorem distance_eq_zero_iff {entry : AffectedModule α}
    (member : entry ∈ analyzer.affectedBy change snapshot coverage) :
    entry.distance = 0 ↔ entry.path ∈ change.modules := by
  have nearest := isNearest_of_affectedBy member
  obtain ⟨record, isReached, _, rfl⟩ := mem_affectedBy_iff.mp member
  constructor
  · intro here
    rw [here] at nearest
    exact changed_of_isNearest_zero nearest
  · intro changed
    rw [start_of_reached isReached changed]
    rfl

/-- No module is reported twice. -/
theorem affectedBy_nodup (analyzer : Analyzer α) (change : ChangeSet) (snapshot : Snapshot)
    (coverage : CoverageSource α) :
    ((analyzer.affectedBy change snapshot coverage).map AffectedModule.path).Nodup := by
  have distinct := (gathered_reached analyzer change snapshot).nodup
  have same := (affectedBy_perm analyzer change snapshot coverage).map AffectedModule.path
  refine same.nodup_iff.mpr ?_
  rw [List.map_map]
  exact distinct.sublist (List.filter_sublist.map Reach.path)

/-- A module that is not changed is reported exactly at its nearest distance, with the greatest
strength that there is at that distance, and only if its score is not below the threshold. -/
theorem exists_affectedBy_iff {strength : Strength} (unchanged : path ∉ change.modules) :
    (∃ entry ∈ analyzer.affectedBy change snapshot coverage,
      entry.path = path ∧ entry.distance = distance ∧ entry.strength = strength) ↔
      analyzer.IsNearest change snapshot path distance ∧
        IsGreatest (analyzer.carriers change snapshot path distance) strength ∧
        ¬ Impact.score distance strength (coverage.coverageOf path) <
          analyzer.config.impactThreshold := by
  rw [← and_assoc, ← exists_reached_iff unchanged]
  constructor
  · rintro ⟨entry, member, rfl, rfl, rfl⟩
    obtain ⟨record, isReached, isReported, rfl⟩ := mem_affectedBy_iff.mp member
    exact ⟨⟨record, isReached, rfl, rfl, rfl⟩, isReported.resolve_left unchanged⟩
  · rintro ⟨⟨record, isReached, rfl, rfl, rfl⟩, scored⟩
    exact ⟨_, mem_affectedBy_iff.mpr ⟨record, isReached, .inr scored, rfl⟩, rfl, rfl, rfl⟩

section Sample

theorem spreads_chain : plain.Spreads firstChanged chain .dependents "a" "b" :=
  ⟨.inr rfl, ⟨"b", "a", .imports, "", .strong, false⟩, by decide, rfl, rfl⟩

/-- The module `b` is one step from the change. -/
theorem isNearest_chain : plain.IsNearest firstChanged chain "b" 1 :=
  isNearest_one_of_spreads List.mem_cons_self spreads_chain (by decide) (by decide)

/-- The step to the module `b` is taken over a strong dependency. -/
theorem isGreatest_chain : IsGreatest (plain.carriers firstChanged chain "b" 1) .strong := by
  refine ⟨⟨.dependents, ⟨⟨"a", List.mem_cons_self, (Walk.here "a").onward spreads_chain⟩, ?_⟩,
    ⟨"b", "a", .imports, "", .strong, false⟩, by decide, rfl, rfl, 0, rfl,
    ⟨"a", List.mem_cons_self, .here "a"⟩, fun _ _ => Nat.zero_le _⟩, ?_⟩
  · rintro length ⟨source, changed, walk⟩
    cases walk with
    | here => exact absurd changed (by decide)
    | onward => exact Nat.le_add_left _ _
  · intro strength _
    cases strength <;> decide

/-- One step from the change the default threshold keeps every module in the report, however strong
its dependency is. -/
theorem exists_affectedBy_of_isNearest_one {analyzer : Analyzer Rat}
    (lenient : analyzer.config.impactThreshold = plain.config.impactThreshold)
    (nearest : analyzer.IsNearest change snapshot path 1) :
    ∃ entry ∈ analyzer.affectedBy change snapshot CoverageSource.none,
      entry.path = path ∧ entry.distance = 1 := by
  refine exists_affectedBy_of_isNearest nearest fun strength => ?_
  rw [lenient]
  change ¬ Impact.score 1 strength (0.0 : Rat) < plain.config.impactThreshold
  cases strength <;> decide +kernel

end Sample

variable [WholeText α] {now : Timestamp} {report : Report α}

/-- An analysis reports each changed module once, without a distance, and each other module once
that a change spreads to within the depth if its score is not below the threshold. Its distance is
the nearest one and its strength the greatest one at that distance. -/
theorem analyze_affected_nearest
    (analyzed : analyzer.analyze change snapshot coverage now = .ok report) :
    (report.affected.map AffectedModule.path).Nodup ∧
    (∀ path ∈ change.modules, ∃ entry ∈ report.affected,
      entry.path = path ∧ entry.distance = 0 ∧ entry.strength = .strong ∧ entry.kind = none) ∧
    (∀ path, path ∉ change.modules → ∀ distance strength,
      (∃ entry ∈ report.affected,
        entry.path = path ∧ entry.distance = distance ∧ entry.strength = strength) ↔
        analyzer.IsNearest change snapshot path distance ∧
          IsGreatest (analyzer.carriers change snapshot path distance) strength ∧
          ¬ Impact.score distance strength (coverage.coverageOf path) <
            analyzer.config.impactThreshold) ∧
    (∀ path, path ∉ change.modules → ∀ direction, ∀ source ∈ change.modules,
      ∀ length ≤ analyzer.config.maxDepth,
        Walk (analyzer.Spreads change snapshot direction) length source path →
        ∃ distance ≤ length, ∃ strength, analyzer.IsNearest change snapshot path distance ∧
          IsGreatest (analyzer.carriers change snapshot path distance) strength) ∧
    (∀ entry ∈ report.affected, entry.score =
      Impact.score entry.distance entry.strength (coverage.coverageOf entry.path)) ∧
    ∀ edge, edge ∈ analyzer.kept snapshot ↔ edge ∈ snapshot.dependencies ∧
      (edge.external = false ∨ analyzer.config.includeExternal = true) ∧
      (edge.strength ≠ .weak ∨ analyzer.config.considerWeak = true) := by
  rw [affected_of_analyze analyzed]
  refine ⟨affectedBy_nodup analyzer change snapshot coverage, ?_,
    fun path unchanged distance strength => exists_affectedBy_iff unchanged, ?_, ?_,
    fun _ => mem_kept_iff⟩
  · intro path changed
    obtain ⟨record, isReached, rfl⟩ := exists_reached_of_changed analyzer snapshot changed
    have isStart := start_of_reached isReached changed
    refine ⟨_, mem_affectedBy_iff.mpr ⟨record, isReached, .inl changed, rfl⟩, rfl, ?_⟩
    rw [isStart]
    exact ⟨rfl, rfl, rfl⟩
  · intro path unchanged direction source changed length inDepth walk
    obtain ⟨record, isReached, rfl⟩ := exists_reached_of_walk changed walk inDepth
    have nearest := isNearest_of_reached isReached
    exact ⟨record.distance, nearest.2 ⟨inDepth, direction, source, changed, walk⟩,
      record.strength, nearest, isGreatest_strength_of_reached isReached unchanged⟩
  · intro entry member
    obtain ⟨record, _, _, rfl⟩ := mem_affectedBy_iff.mp member
    rfl

/-- In the chain the dependency of `b` on `a` reports `b` one step away. -/
theorem analyze_affected_chain :
    ∃ report, plain.analyze firstChanged chain CoverageSource.none default = .ok report ∧
      ∃ entry ∈ report.affected,
        entry.path = "b" ∧ entry.distance = 1 ∧ entry.strength = .strong := by
  obtain ⟨report, analyzed⟩ := exists_report plain CoverageSource.none default checkInputs_chain
  refine ⟨report, analyzed, ?_⟩
  exact ((analyze_affected_nearest analyzed).2.2.1 "b" (by decide) 1 .strong).mpr
    ⟨isNearest_chain, isGreatest_chain, by decide +kernel⟩

end Analyzer

end ChangeImpact
