/-
This file shows which shape the paths of a report have, and how long they are.
-/

import ChangeImpact.Proofs.Analysis.Depth
import ChangeImpact.Proofs.Analysis.Paths
import ChangeImpact.Proofs.Graph.Cycle

namespace ChangeImpact

open Relation

/-- The shape of a path that passes no module twice depends on its length and its ends alone. -/
theorem PathShape.ofPath_of_nodup {path : List String} (nodup : path.Nodup) (inCycle : Bool) :
    ofPath path inCycle =
      if inCycle then circular else if path.length = 2 then direct else transitive := by
  cases inCycle <;> simp [ofPath, nodup]

/-- A path of one step or more that passes no module twice is circular if its ends share a cycle.
Otherwise the number of its steps decides. -/
theorem PathShape.ofPath_eq_iff {path : List String} {length : Nat} (nodup : path.Nodup)
    (size : path.length = length + 1) (far : 1 ≤ length) (inCycle : Bool) :
    (ofPath path inCycle = circular ↔ inCycle = true) ∧
      (ofPath path inCycle = direct ↔ ¬ inCycle = true ∧ length = 1) ∧
      (ofPath path inCycle = transitive ↔ ¬ inCycle = true ∧ 2 ≤ length) := by
  rw [ofPath_of_nodup nodup, size]
  cases inCycle with
  | true => simp
  | false =>
      by_cases single : length = 1
      · simp [single]
      · have several : 2 ≤ length := by omega
        simp [single, several]

namespace Analyzer

variable {α : Type} [Scalar α]

/-- Two modules lie on a common cycle if each depends on the other, in one step or more and through
the given modules alone. -/
def OnCycle (analyzer : Analyzer α) (snapshot : Snapshot) (modules : List String)
    (path other : String) : Prop :=
  TransGen (DependsWithin (analyzer.kept snapshot) modules) path other ∧
    TransGen (DependsWithin (analyzer.kept snapshot) modules) other path

variable {analyzer : Analyzer α} {change : ChangeSet} {snapshot : Snapshot}
  {coverage : CoverageSource α} {path other : String}

/-- The cycles that an analysis lists are those among the affected modules. -/
theorem shareCycle_iff_onCycle :
    Graph.shareCycle (analyzer.cyclesBy change snapshot coverage) path other = true ↔
      analyzer.OnCycle snapshot
        ((analyzer.affectedBy change snapshot coverage).map AffectedModule.path) path other := by
  rw [cyclesBy, Graph.shareCycle_iff, graph_eq, Graph.within_ofDependencies]
  constructor
  · intro shared
    exact shared.2.2
  · intro onCycle
    -- The first step already shows that both ends are among the modules.
    obtain ⟨_, first, _⟩ := TransGen.head'_iff.mp onCycle.1
    obtain ⟨_, otherFirst, _⟩ := TransGen.head'_iff.mp onCycle.2
    exact ⟨first.1, otherFirst.1, onCycle⟩

/-- The number of steps of a path is the least one between its ends in its direction. -/
theorem isLeast_length_of_traces {number : Nat} {pair : String × AffectedModule α}
    {traced : ImpactPath α} (traces : analyzer.Traces snapshot number pair traced) :
    IsLeast {length | Walk (analyzer.Connects snapshot traced.direction) length traced.source
      traced.target} traced.length := by
  rw [traces.source, traces.target]
  obtain ⟨length, size, walk⟩ := traces.route.toRoute.walk
  obtain rfl : length = traced.length := Nat.succ.inj (size.symm.trans traces.length)
  constructor
  · exact walk
  · intro other isWalk
    have shortest := traces.route.shortest other isWalk
    rw [traces.length] at shortest
    exact Nat.le_of_succ_le_succ shortest

/-- A path to a module at some distance does not end where it starts. -/
theorem source_ne_target_of_traces {number : Nat} {pair : String × AffectedModule α}
    {traced : ImpactPath α} (traces : analyzer.Traces snapshot number pair traced)
    (far : 1 ≤ pair.2.distance) : traced.source ≠ traced.target := by
  intro same
  have least := (isLeast_length_of_traces traces).2
  rw [← same] at least
  have none : traced.length ≤ 0 := least (Walk.here traced.source)
  have near := traces.near
  omega

variable [WholeText α] {now : Timestamp} {report : Report α}

/-- Every path of a report describes a connection between a changed module and an affected one. -/
theorem exists_described (analyzed : analyzer.analyze change snapshot coverage now = .ok report)
    {traced : ImpactPath α} (member : traced ∈ report.paths) :
    ∃ number connection,
      Describes (analyzer.cyclesBy change snapshot coverage) number connection traced ∧
      analyzer.connection? (analyzer.graph snapshot) connection.1 connection.2.1.path =
        some connection.2.2 ∧
      connection.1 ∈ change.modules ∧
      connection.2.1 ∈ analyzer.affectedBy change snapshot coverage ∧
      1 ≤ connection.2.1.distance := by
  obtain ⟨described, done, each⟩ := exists_impactPaths analyzer snapshot
    (distinct change.modules) (analyzer.affectedBy change snapshot coverage)
    (analyzer.cyclesBy change snapshot coverage)
  have same : ImpactPath.sort described = report.paths :=
    Except.ok.inj (done.symm.trans (paths_of_analyze analyzed))
  rw [← same, ImpactPath.sort, List.mem_mergeSort] at member
  obtain ⟨item, isItem, describes⟩ := exists_of_forall₂ each member
  exact ⟨_, item.1, describes, of_mem_connections (List.fst_mem_of_mem_zipIdx isItem)⟩

/-- A path of a report is circular exactly if its ends lie on a common cycle among the affected
modules. Otherwise its length tells whether it is direct or transitive. No path passes a module
twice, so that none is circular for that reason. -/
theorem analyze_paths_shaped
    (analyzed : analyzer.analyze change snapshot coverage now = .ok report) :
    ∀ traced ∈ report.paths,
      (traced.shape = .circular ↔ analyzer.OnCycle snapshot
        (report.affected.map AffectedModule.path) traced.source traced.target) ∧
      (traced.shape = .direct ↔ ¬ analyzer.OnCycle snapshot
        (report.affected.map AffectedModule.path) traced.source traced.target ∧
          traced.length = 1) ∧
      (traced.shape = .transitive ↔ ¬ analyzer.OnCycle snapshot
        (report.affected.map AffectedModule.path) traced.source traced.target ∧
          2 ≤ traced.length) ∧
      traced.path.Nodup := by
  intro traced member
  obtain ⟨number, connection, describes, found, changed, isAffected, far⟩ :=
    exists_described analyzed member
  have traces := traces_of_describes describes found changed isAffected
  have nodup := (shortestRoute_of_connection? found).1.nodup
  have size : connection.2.2.1.length = traced.length + 1 := by
    rw [← describes.path, traces.length]
  rw [affected_of_analyze analyzed, describes.source, describes.target, describes.path,
    describes.shape, ← shareCycle_iff_onCycle]
  obtain ⟨circular, direct, transitive⟩ :=
    PathShape.ofPath_eq_iff nodup size (far.trans traces.near) _
  exact ⟨circular, direct, transitive, nodup⟩

/-- A path is as long as a shortest way from its own source in its own direction. The depth bounds
the distance of its target, which is that of the nearest changed module in any direction. So the
path keeps to the depth if nothing else connects a changed module with its target. -/
theorem analyze_path_lengths_least
    (analyzed : analyzer.analyze change snapshot coverage now = .ok report) :
    ∀ traced ∈ report.paths, ∃ target ∈ report.affected, target.path = traced.target ∧
      target.distance ≤ analyzer.config.maxDepth ∧ target.distance ≤ traced.length ∧
      IsLeast {length | Walk (analyzer.Connects snapshot traced.direction) length traced.source
        traced.target} traced.length ∧
      ((∀ source ∈ change.modules, ∀ direction,
          analyzer.Joins snapshot direction source traced.target →
            source = traced.source ∧ direction = traced.direction) →
        traced.length = target.distance) := by
  intro traced member
  obtain ⟨number, connection, describes, found, changed, isAffected, far⟩ :=
    exists_described analyzed member
  have traces := traces_of_describes describes found changed isAffected
  have least := isLeast_length_of_traces traces
  rw [affected_of_analyze analyzed]
  refine ⟨connection.2.1, isAffected, describes.target.symm, ?_, traces.near, least, ?_⟩
  · exact (isNearest_of_affectedBy isAffected).1.1
  · intro alone
    obtain ⟨source, isSource, direction, length, near, walk⟩ := exists_near_connection isAffected
    rw [← describes.target] at walk
    obtain ⟨rfl, rfl⟩ := alone source isSource direction ⟨length, walk⟩
    exact le_antisymm ((least.2 walk).trans near) traces.near

section Sample

/-- In the chain nothing but `a` itself is connected with `a` by what `a` depends on. -/
theorem eq_of_joins_chain (joins : plain.Joins chain .dependencies "a" path) : path = "a" := by
  rcases (exists_walk_iff.mp joins).cases_head with same | ⟨_, step, _⟩
  · exact same.symm
  · obtain ⟨_, edge, isKept, start, _⟩ := step
    have none : ∀ edge ∈ plain.kept chain, Direction.dependencies.start edge ≠ "a" := by decide
    exact absurd start (none edge isKept)

/-- Some path is traced in the chain. -/
theorem exists_path_chain {report : Report Rat}
    (analyzed : plain.analyze firstChanged chain CoverageSource.none default = .ok report) :
    ∃ traced, traced ∈ report.paths := by
  obtain ⟨first, rest, listed⟩ := exists_pair_chain analyzed
  have isFirst : first ∈ (plain.connectedPairs firstChanged chain report.affected).take
      plain.config.maxPaths := by
    rw [listed, show plain.config.maxPaths = 99 + 1 from rfl, List.take_succ_cons]
    exact List.mem_cons_self
  obtain ⟨_, traced, isTraced, _⟩ := exists_traces_of_pair analyzed isFirst
  exact ⟨traced, isTraced⟩

/-- In the chain all connections of `a` with other modules lead to dependents, so that its paths
keep to the depth. -/
theorem analyze_path_lengths_least_chain :
    ∃ report, plain.analyze firstChanged chain CoverageSource.none default = .ok report ∧
      ∃ traced ∈ report.paths, traced.length ≤ plain.config.maxDepth := by
  obtain ⟨report, analyzed⟩ := exists_report plain CoverageSource.none default checkInputs_chain
  obtain ⟨traced, member⟩ := exists_path_chain analyzed
  refine ⟨report, analyzed, traced, member, ?_⟩
  obtain ⟨target, _, _, inDepth, _, least, alone⟩ :=
    analyze_path_lengths_least analyzed traced member
  obtain ⟨number, pair, isPair, traces⟩ := exists_traces analyzed member
  obtain ⟨changed, _, far, _⟩ := mem_connectedPairs_iff.mp isPair
  have isSource : traced.source = "a" := traces.source.trans (List.mem_singleton.mp changed)
  have apart := source_ne_target_of_traces traces far
  have way (direction : Direction) (joins : plain.Joins chain direction "a" traced.target) :
      direction = .dependents := by
    cases direction with
    | dependents => rfl
    | dependencies => exact absurd (isSource.trans (eq_of_joins_chain joins).symm) apart
  have itself : plain.Joins chain traced.direction "a" traced.target := isSource ▸ ⟨_, least.1⟩
  have same : traced.length = target.distance := by
    apply alone
    intro source isChanged direction joins
    rw [List.mem_singleton.mp isChanged] at joins ⊢
    exact ⟨isSource.symm, (way direction joins).trans (way _ itself).symm⟩
  rw [same]
  exact inDepth

/-- In this snapshot `a` depends on `b`, `b` on `c`, and `c` on `a` again. -/
def ring : Snapshot :=
  { chain with
    dependencies :=
      [⟨"b", "c", .imports, "", .strong, false⟩, ⟨"c", "a", .imports, "", .strong, false⟩,
        ⟨"a", "b", .imports, "", .strong, false⟩] }

theorem checkInputs_ring : checkInputs firstChanged ring = .ok () := by
  decide

theorem spreads_ring_down : (plain.cutOff 1).Spreads firstChanged ring .dependencies "a" "b" :=
  ⟨.inr rfl, ⟨"a", "b", .imports, "", .strong, false⟩, by decide, rfl, rfl⟩

theorem spreads_ring_up : (plain.cutOff 1).Spreads firstChanged ring .dependents "a" "c" :=
  ⟨.inr rfl, ⟨"c", "a", .imports, "", .strong, false⟩, by decide, rfl, rfl⟩

/-- The modules next to the change are reported one step away. -/
theorem exists_affected_ring {direction : Direction}
    (step : (plain.cutOff 1).Spreads firstChanged ring direction "a" path) (apart : path ≠ "a") :
    ∃ entry ∈ (plain.cutOff 1).affectedBy firstChanged ring CoverageSource.none,
      entry.path = path ∧ entry.distance = 1 := by
  have nearest : (plain.cutOff 1).IsNearest firstChanged ring path 1 :=
    isNearest_one_of_spreads List.mem_cons_self step (mt List.mem_singleton.mp apart) (by decide)
  exact exists_affectedBy_of_isNearest_one rfl nearest

theorem mem_affected_ring (isModule : path ∈ ["a", "b", "c"]) :
    path ∈ ((plain.cutOff 1).affectedBy firstChanged ring CoverageSource.none).map
      AffectedModule.path := by
  suffices reported : ∃ entry ∈ (plain.cutOff 1).affectedBy firstChanged ring CoverageSource.none,
      entry.path = path by
    obtain ⟨entry, member, rfl⟩ := reported
    exact List.mem_map_of_mem member
  simp only [List.mem_cons, List.not_mem_nil, or_false] at isModule
  rcases isModule with rfl | rfl | rfl
  · exact exists_affectedBy_of_changed _ _ _ List.mem_cons_self
  · obtain ⟨entry, member, path, _⟩ := exists_affected_ring spreads_ring_down (by decide)
    exact ⟨entry, member, path⟩
  · obtain ⟨entry, member, path, _⟩ := exists_affected_ring spreads_ring_up (by decide)
    exact ⟨entry, member, path⟩

/-- A change of the ring spreads to nothing else. -/
theorem mem_ring_of_walk {source : String} {direction : Direction} {length : Nat}
    (changed : source ∈ firstChanged.modules)
    (walk : Walk ((plain.cutOff 1).Spreads firstChanged ring direction) length source path) :
    path ∈ ["a", "b", "c"] := by
  cases walk with
  | here => exact List.mem_cons.mpr (.inl (List.mem_singleton.mp changed))
  | onward _ last =>
      obtain ⟨_, edge, isKept, _, rfl⟩ := last
      have isEdge := (mem_kept_iff.mp isKept).1
      simp only [ring, List.mem_cons, List.not_mem_nil, or_false] at isEdge
      rcases isEdge with rfl | rfl | rfl <;> cases direction <;> decide

/-- So the ring has no more connected pairs than a report has room for. -/
theorem length_connectedPairs_ring :
    ((plain.cutOff 1).connectedPairs firstChanged ring
      ((plain.cutOff 1).affectedBy firstChanged ring CoverageSource.none)).length ≤
      (plain.cutOff 1).config.maxPaths := by
  have within : ((plain.cutOff 1).affectedBy firstChanged ring CoverageSource.none).map
      AffectedModule.path ⊆ ["a", "b", "c"] := by
    intro path member
    obtain ⟨entry, isEntry, rfl⟩ := List.mem_map.mp member
    obtain ⟨⟨_, direction, source, changed, walk⟩, _⟩ := isNearest_of_affectedBy isEntry
    exact mem_ring_of_walk changed walk
  have few := (affectedBy_nodup (plain.cutOff 1) firstChanged ring
    CoverageSource.none).length_le_of_subset within
  have bound := length_connectedPairs_le (plain.cutOff 1) firstChanged ring
    ((plain.cutOff 1).affectedBy firstChanged ring CoverageSource.none)
  have single : firstChanged.modules.eraseDups.length = 1 := by decide
  have room : (plain.cutOff 1).config.maxPaths = 100 := rfl
  rw [List.length_map, List.length_cons, List.length_cons, List.length_singleton] at few
  rw [single, Nat.one_mul] at bound
  omega

/-- The report of the ring holds a path from `a` to `b` that follows the dependents. -/
theorem exists_path_ring :
    ∃ report, (plain.cutOff 1).analyze firstChanged ring CoverageSource.none default =
        .ok report ∧
      ∃ traced ∈ report.paths, traced.source = "a" ∧ traced.target = "b" ∧
        traced.direction = .dependents := by
  obtain ⟨report, analyzed⟩ :=
    exists_report (plain.cutOff 1) CoverageSource.none default checkInputs_ring
  have isAffected := affected_of_analyze analyzed
  obtain ⟨entry, member, path, distance⟩ := exists_affected_ring spreads_ring_down (by decide)
  have joins : (plain.cutOff 1).Joins ring .dependents "a" "b" :=
    ⟨2, ((Walk.here "a").onward
      ⟨rfl, ⟨"c", "a", .imports, "", .strong, false⟩, by decide, rfl, rfl⟩).onward
        ⟨rfl, ⟨"b", "c", .imports, "", .strong, false⟩, by decide, rfl, rfl⟩⟩
  have isPair : ("a", entry) ∈ ((plain.cutOff 1).connectedPairs firstChanged ring
      report.affected).take (plain.cutOff 1).config.maxPaths := by
    rw [isAffected, List.take_of_length_le length_connectedPairs_ring]
    refine mem_connectedPairs_iff.mpr ⟨List.mem_cons_self, member, distance.ge, ?_⟩
    rw [path]
    exact ⟨.dependents, joins⟩
  obtain ⟨_, traced, isTraced, traces⟩ := exists_traces_of_pair analyzed isPair
  refine ⟨report, analyzed, traced, isTraced, traces.source, traces.target.trans path, ?_⟩
  rw [traces.direction, path]
  exact joins

/-- In the ring that path is circular, for all three modules are reported. -/
theorem analyze_paths_shaped_ring :
    ∃ report, (plain.cutOff 1).analyze firstChanged ring CoverageSource.none default =
        .ok report ∧
      ∃ traced ∈ report.paths, traced.source = "a" ∧ traced.target = "b" ∧
        traced.shape = .circular := by
  obtain ⟨report, analyzed, traced, member, source, target, _⟩ := exists_path_ring
  refine ⟨report, analyzed, traced, member, source, target, ?_⟩
  have depends (edge : Dependency) (isEdge : edge ∈ ring.dependencies) :
      DependsWithin ((plain.cutOff 1).kept ring) (report.affected.map AffectedModule.path)
        edge.dependent edge.provider := by
    rw [affected_of_analyze analyzed]
    have known : ∀ edge ∈ ring.dependencies, edge.dependent ∈ ["a", "b", "c"] ∧
        edge.provider ∈ ["a", "b", "c"] ∧ edge ∈ (plain.cutOff 1).kept ring := by decide
    obtain ⟨isLeft, isRight, isKept⟩ := known edge isEdge
    exact ⟨mem_affected_ring isLeft, mem_affected_ring isRight, edge, isKept, rfl, rfl⟩
  rw [(analyze_paths_shaped analyzed traced member).1, source, target]
  have around := depends ⟨"a", "b", .imports, "", .strong, false⟩ (by decide)
  have further := depends ⟨"b", "c", .imports, "", .strong, false⟩ (by decide)
  have back := depends ⟨"c", "a", .imports, "", .strong, false⟩ (by decide)
  exact ⟨.single around, (TransGen.single further).tail back⟩

/-- In the ring that path is longer than the depth, although its target is next to the change. -/
theorem exists_path_beyond_depth :
    ∃ report, (plain.cutOff 1).analyze firstChanged ring CoverageSource.none default =
        .ok report ∧
      ∃ traced ∈ report.paths, (plain.cutOff 1).config.maxDepth < traced.length := by
  obtain ⟨report, analyzed, traced, member, source, target, direction⟩ := exists_path_ring
  refine ⟨report, analyzed, traced, member, ?_⟩
  obtain ⟨number, pair, _, traces⟩ := exists_traces analyzed member
  have walk := (isLeast_length_of_traces traces).1
  rw [source, target, direction] at walk
  -- No walk of one step leads from `a` to `b` that way, for `b` does not depend on `a`.
  by_contra within
  rcases walk.eq_or_step (Nat.le_of_not_lt within) with same | ⟨_, edge, isKept, start, finish⟩
  · exact absurd same (by decide)
  · have none : ∀ edge ∈ (plain.cutOff 1).kept ring,
        Direction.dependents.start edge = "a" → Direction.dependents.finish edge ≠ "b" := by
      decide
    exact none edge isKept start finish

end Sample

end Analyzer

end ChangeImpact
