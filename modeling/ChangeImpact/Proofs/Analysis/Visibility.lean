/-
This file shows that the modules an analysis excludes leave no trace in its report, so that their
dependencies may as well be missing.
-/

import ChangeImpact.Proofs.Analysis.Paths
import ChangeImpact.Proofs.Graph.Pruning

namespace ChangeImpact.Analyzer

variable {α : Type} [Scalar α]

/-- The excluded modules are hidden unless they are changed. -/
def hides (analyzer : Analyzer α) (change : ChangeSet) (path : String) : Bool :=
  analyzer.exclusion.excludes path && !change.touches path

/-- This is the snapshot without the dependencies that have a hidden end. -/
def visible (analyzer : Analyzer α) (change : ChangeSet) (snapshot : Snapshot) : Snapshot :=
  { snapshot with dependencies := shown (analyzer.hides change) snapshot.dependencies }

variable {analyzer : Analyzer α} {change : ChangeSet} {snapshot : Snapshot}
  {coverage : CoverageSource α} {direction : Direction} {source target path : String}

theorem hides_iff : analyzer.hides change path = true ↔
    analyzer.exclusion.excludes path = true ∧ path ∉ change.modules := by
  simp [hides, ChangeSet.touches]

theorem not_hides_iff : analyzer.hides change path = false ↔
    path ∈ change.modules ∨ analyzer.exclusion.excludes path = false := by
  rw [← Bool.not_eq_true, hides_iff, not_and_or, not_not, Bool.not_eq_true, or_comm]

/-- The analysis of the visible snapshot works on a pruned graph. -/
theorem prunes_graph (analyzer : Analyzer α) (change : ChangeSet) (snapshot : Snapshot) :
    (analyzer.graph snapshot).Prunes (analyzer.hides change)
      (analyzer.graph (analyzer.visible change snapshot)) := by
  have kept : analyzer.kept (analyzer.visible change snapshot) =
      shown (analyzer.hides change) (analyzer.kept snapshot) := List.filter_comm _ _ _
  rw [graph_eq, graph_eq, kept]
  exact Graph.prunes_ofDependencies _ _

/-- The change reaches the same modules in the same way. -/
theorem reached_visible (analyzer : Analyzer α) (change : ChangeSet) (snapshot : Snapshot) :
    analyzer.reached change (analyzer.visible change snapshot) =
      analyzer.reached change snapshot := by
  have closed : ∀ path, analyzer.hides change path = true →
      path ∉ distinct change.modules ∧ analyzer.exclusion.excludes path = true := by
    intro path isHidden
    rw [mem_distinct]
    exact (hides_iff.mp isHidden).symm
  simp only [reached, reaches,
    Graph.reachable_of_prunes (prunes_graph analyzer change snapshot) closed]

theorem affectedBy_visible (analyzer : Analyzer α) (change : ChangeSet) (snapshot : Snapshot)
    (coverage : CoverageSource α) :
    analyzer.affectedBy change (analyzer.visible change snapshot) coverage =
      analyzer.affectedBy change snapshot coverage :=
  congrArg (analyzer.affected change snapshot coverage) (reached_visible analyzer change snapshot)

/-- No change spreads onto a hidden module. -/
theorem not_hides_of_walk {length : Nat} (changed : source ∈ change.modules)
    (walk : Walk (analyzer.Spreads change snapshot direction) length source target) :
    analyzer.hides change target = false := by
  rw [not_hides_iff]
  cases walk with
  | here => exact .inl changed
  | onward _ last => exact last.1

/-- No hidden module is reported. -/
theorem not_hides_of_affectedBy {entry : AffectedModule α}
    (member : entry ∈ analyzer.affectedBy change snapshot coverage) :
    analyzer.hides change entry.path = false := by
  obtain ⟨⟨_, direction, source, changed, walk⟩, _⟩ := isNearest_of_affectedBy member
  exact not_hides_of_walk changed walk

theorem cyclesBy_visible (analyzer : Analyzer α) (change : ChangeSet) (snapshot : Snapshot)
    (coverage : CoverageSource α) :
    analyzer.cyclesBy change (analyzer.visible change snapshot) coverage =
      analyzer.cyclesBy change snapshot coverage := by
  rw [cyclesBy, cyclesBy, affectedBy_visible]
  refine Graph.cycles_of_prunes (prunes_graph analyzer change snapshot) fun path member => ?_
  obtain ⟨entry, isEntry, rfl⟩ := List.mem_map.mp member
  exact not_hides_of_affectedBy isEntry

/-- A changed module has the same connections. -/
theorem connection?_visible (changed : source ∈ change.modules) (target : String) :
    analyzer.connection? (analyzer.graph (analyzer.visible change snapshot)) source target =
      analyzer.connection? (analyzer.graph snapshot) source target := by
  have closed : ∀ path, analyzer.hides change path = true →
      analyzer.exclusion.excludes path = true := fun path isHidden => (hides_iff.mp isHidden).1
  have start : analyzer.hides change source = false := not_hides_iff.mpr (.inl changed)
  simp only [connection?,
    Graph.pathAvoiding?_of_prunes (prunes_graph analyzer change snapshot) closed start]

/-- A path that starts at a changed module passes no hidden one. -/
theorem not_hides_of_route {path : List String} (changed : source ∈ change.modules)
    (route : Route (analyzer.Connects snapshot direction) source target path) :
    ∀ passed ∈ path, analyzer.hides change passed = false := by
  intro passed member
  obtain ⟨rest, rfl⟩ := List.head?_eq_some_iff.mp route.starts
  rw [not_hides_iff]
  rcases List.mem_cons.mp member with rfl | later
  · exact .inl changed
  · obtain ⟨before, step⟩ := route.entered later
    exact .inr step.1

omit [Scalar α] in
theorem changed_of_mem_pairs {affected : List (AffectedModule α)} {pair : String × AffectedModule α}
    (member : pair ∈ pairs (distinct change.modules) affected) : pair.1 ∈ change.modules :=
  mem_distinct.mp (mem_pairs_iff.mp member).1

/-- The changed modules have the same connections with affected ones. -/
theorem connections_visible (analyzer : Analyzer α) (change : ChangeSet) (snapshot : Snapshot)
    (limit : Nat) (affected : List (AffectedModule α)) :
    analyzer.connections (analyzer.graph (analyzer.visible change snapshot)) limit
        (pairs (distinct change.modules) affected) =
      analyzer.connections (analyzer.graph snapshot) limit
        (pairs (distinct change.modules) affected) := by
  rw [connections_eq_take, connections_eq_take]
  congr 1
  refine List.filterMap_congr fun pair member => ?_
  rw [joined?, joined?, connection?_visible (changed_of_mem_pairs member)]

/-- The same paths are traced. -/
theorem pathsBy_visible (analyzer : Analyzer α) (change : ChangeSet) (snapshot : Snapshot)
    (coverage : CoverageSource α) :
    analyzer.pathsBy change (analyzer.visible change snapshot) coverage =
      analyzer.pathsBy change snapshot coverage := by
  let cycles := analyzer.cyclesBy change snapshot coverage
  rw [pathsBy, pathsBy, affectedBy_visible, cyclesBy_visible, impactPaths, impactPaths,
    connections_visible]
  congr 1
  refine mapM_congr fun ⟨⟨source, affected, path, direction⟩, index⟩ member => ?_
  have isListed := List.fst_mem_of_mem_zipIdx member
  have changed := changed_of_mem_pairs (ends_mem_of_mem isListed)
  obtain ⟨route, _⟩ := shortestRoute_of_connection? (connection?_of_mem isListed)
  -- No module along the path is hidden, so that the same dependencies are the strongest.
  have same := Graph.edgeBetween_steps_of_prunes (prunes_graph analyzer change snapshot)
    (not_hides_of_route changed route.toRoute) direction
  exact describe_congr same cycles (index + 1)

variable [WholeText α] {now : Timestamp} {report : Report α}

/-- Without the dependencies of hidden modules an analysis gives the same report but for the
performance impact and the time. No hidden module is reported as affected, and none is on a path or
in a cycle. -/
theorem analyze_visible
    (analyzed : analyzer.analyze change snapshot coverage now = .ok report) (later : Timestamp) :
    (∃ other, analyzer.analyze change (analyzer.visible change snapshot) coverage later =
        .ok other ∧
      other = { report with performance := other.performance, generatedAt := later }) ∧
    ∀ path, analyzer.hides change path = true →
      (∀ entry ∈ report.affected, entry.path ≠ path) ∧
      (∀ traced ∈ report.paths, path ∉ traced.path) ∧
      ∀ cycle ∈ report.assessment.cycles, path ∉ cycle := by
  have isAffected := affected_of_analyze analyzed
  constructor
  · obtain ⟨checked, paths, traced, rfl⟩ := analyze_eq_ok_iff.mp analyzed
    have passes : checkInputs change (analyzer.visible change snapshot) = .ok () := by
      rw [checkInputs_eq_ok_iff, refuses_iff] at checked ⊢
      exact checked
    refine ⟨_, analyze_eq_ok_iff.mpr ⟨passes, paths, ?_, rfl⟩, ?_⟩
    · rw [pathsBy_visible, traced]
    · simp only [reportOf, affectedBy_visible, cyclesBy_visible]
  · intro path isHidden
    have isShown : ∀ entry ∈ report.affected, entry.path ≠ path := by
      rintro entry member rfl
      rw [isAffected] at member
      exact Bool.false_ne_true ((not_hides_of_affectedBy member).symm.trans isHidden)
    refine ⟨isShown, ?_, ?_⟩
    · intro traced member passes
      obtain ⟨number, pair, isPair, traces⟩ := exists_traces analyzed member
      have changed := (mem_connectedPairs_iff.mp isPair).1
      have passed := not_hides_of_route changed traces.route.toRoute path passes
      exact Bool.false_ne_true (passed.symm.trans isHidden)
    · intro cycle member isInside
      rw [cycles_of_analyze analyzed, cyclesBy, Graph.mem_cycles_iff] at member
      obtain ⟨entry, isEntry, same⟩ := List.mem_map.mp (member.2.1.among path isInside)
      exact isShown entry (isAffected ▸ isEntry) same

section Sample

/-- This analyzer excludes every file `c`. -/
def selective : Analyzer Rat where
  config := { plain.config with excludePatterns := ["**/c"] }
  exclusion := ⟨[⟨"**/c", [.leadingDirectories, .literal 'c']⟩]⟩
  isValid := by with_unfolding_all rfl

/-- In the chain the module `c` is not reported, and without its dependency on `b` the same modules
are. -/
theorem analyze_visible_chain :
    (selective.visible firstChanged chain).dependencies = chain.dependencies.take 1 ∧
    ∃ report other, selective.analyze firstChanged chain CoverageSource.none default =
        .ok report ∧
      selective.analyze firstChanged (selective.visible firstChanged chain) CoverageSource.none
        default = .ok other ∧
      other.affected = report.affected ∧ ∀ entry ∈ report.affected, entry.path ≠ "c" := by
  have isHidden : selective.hides firstChanged "c" = true := by decide +kernel
  obtain ⟨report, analyzed⟩ :=
    exists_report selective CoverageSource.none default checkInputs_chain
  obtain ⟨⟨other, again, same⟩, absent⟩ := analyze_visible analyzed default
  refine ⟨by decide +kernel, report, other, analyzed, again, ?_, (absent "c" isHidden).1⟩
  rw [same]

end Sample

end ChangeImpact.Analyzer
