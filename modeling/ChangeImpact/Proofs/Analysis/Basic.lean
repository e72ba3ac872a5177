/-
This file takes an analysis apart: the dependencies that it keeps, the steps that a change takes
along them, and the parts of its report.
-/

import ChangeImpact.Analysis
import ChangeImpact.Proofs.Graph.Adjacency
import ChangeImpact.Proofs.Graph.Walk

namespace ChangeImpact

theorem ChangeSet.touches_iff {change : ChangeSet} {path : String} :
    change.touches path = true ↔ path ∈ change.modules := by
  rw [touches, List.contains_iff_mem]

/-- Changes of the same modules touch the same ones, however often the modules are listed. -/
theorem ChangeSet.touches_congr {change other : ChangeSet}
    (same : ∀ path, path ∈ other.modules ↔ path ∈ change.modules) :
    other.touches = change.touches := by
  funext path
  rw [Bool.eq_iff_iff, touches_iff, touches_iff, same]

namespace Analyzer

variable {α : Type} [Scalar α]

/-- These are the dependencies that an analysis follows. -/
def kept (analyzer : Analyzer α) (snapshot : Snapshot) : List Dependency :=
  snapshot.dependencies.filter analyzer.config.follows

theorem graph_eq (analyzer : Analyzer α) (snapshot : Snapshot) :
    analyzer.graph snapshot = .ofDependencies (analyzer.kept snapshot) := rfl

/-- A dependency is kept unless it is external or weak and the configuration leaves such
dependencies out. -/
theorem mem_kept_iff {analyzer : Analyzer α} {snapshot : Snapshot} {edge : Dependency} :
    edge ∈ analyzer.kept snapshot ↔ edge ∈ snapshot.dependencies ∧
      (edge.external = false ∨ analyzer.config.includeExternal = true) ∧
      (edge.strength ≠ .weak ∨ analyzer.config.considerWeak = true) := by
  simp [kept, Config.follows, or_comm]

/-- A change spreads one way over the kept dependencies, onto changed modules and onto those that
are not excluded. -/
def Spreads (analyzer : Analyzer α) (change : ChangeSet) (snapshot : Snapshot)
    (direction : Direction) : String → String → Prop :=
  Follows (analyzer.kept snapshot) direction fun path =>
    path ∈ change.modules ∨ analyzer.exclusion.excludes path = false

/-- A path leads one way over the kept dependencies, onto modules that are not excluded. -/
def Connects (analyzer : Analyzer α) (snapshot : Snapshot) (direction : Direction) :
    String → String → Prop :=
  Follows (analyzer.kept snapshot) direction fun path => analyzer.exclusion.excludes path = false

/-- These are the modules that an analysis reports. -/
def affectedBy (analyzer : Analyzer α) (change : ChangeSet) (snapshot : Snapshot)
    (coverage : CoverageSource α) : List (AffectedModule α) :=
  analyzer.affected change snapshot coverage
    (analyzer.reaches (analyzer.graph snapshot) (distinct change.modules))

/-- These are the cycles among the modules that an analysis reports. -/
def cyclesBy (analyzer : Analyzer α) (change : ChangeSet) (snapshot : Snapshot)
    (coverage : CoverageSource α) : List (List String) :=
  (analyzer.graph snapshot).cycles
    ((analyzer.affectedBy change snapshot coverage).map AffectedModule.path)

/-- These are the paths that an analysis traces, if each of them can be weighed. -/
def pathsBy (analyzer : Analyzer α) (change : ChangeSet) (snapshot : Snapshot)
    (coverage : CoverageSource α) : Except (Error α) (List (ImpactPath α)) :=
  analyzer.impactPaths (analyzer.graph snapshot) (distinct change.modules)
    (analyzer.affectedBy change snapshot coverage) (analyzer.cyclesBy change snapshot coverage)

/-- The report is put together from the affected modules and the given paths. -/
def reportOf [WholeText α] (analyzer : Analyzer α) (change : ChangeSet) (snapshot : Snapshot)
    (coverage : CoverageSource α) (now : Timestamp) (paths : List (ImpactPath α)) : Report α :=
  let affected := analyzer.affectedBy change snapshot coverage
  let assessment := RiskAssessment.ofChange change affected paths
    (analyzer.cyclesBy change snapshot coverage) analyzer.config.riskThresholds
  { change
    summary := .ofAnalysis affected paths assessment.overall
    affected
    paths
    assessment
    tests :=
      if analyzer.config.analyzeTests then some (.ofAffected change.kind affected) else none
    performance := .ofAffected (.ofDependencies snapshot.dependencies) affected
    recommendations := assessment.recommendations change affected
    strategies := assessment.strategies affected
    generatedAt := now }

variable [WholeText α] {analyzer : Analyzer α} {change : ChangeSet} {snapshot : Snapshot}
  {coverage : CoverageSource α} {now : Timestamp} {report : Report α}

/-- An analysis checks its inputs, traces the paths and puts the report together. -/
theorem analyze_eq (analyzer : Analyzer α) (change : ChangeSet) (snapshot : Snapshot)
    (coverage : CoverageSource α) (now : Timestamp) :
    analyzer.analyze change snapshot coverage now =
      match checkInputs change snapshot, analyzer.pathsBy change snapshot coverage with
      | .error error, _ => .error (.input error)
      | .ok _, .error error => .error error
      | .ok _, .ok paths => .ok (analyzer.reportOf change snapshot coverage now paths) := by
  unfold analyze
  cases checkInputs change snapshot with
  | error error => rfl
  | ok _ =>
      change (do
        let paths ← analyzer.pathsBy change snapshot coverage
        return analyzer.reportOf change snapshot coverage now paths) = _
      cases analyzer.pathsBy change snapshot coverage <;> rfl

theorem analyze_eq_ok_iff : analyzer.analyze change snapshot coverage now = .ok report ↔
    checkInputs change snapshot = .ok () ∧
      ∃ paths, analyzer.pathsBy change snapshot coverage = .ok paths ∧
        report = analyzer.reportOf change snapshot coverage now paths := by
  rw [analyze_eq]
  cases checkInputs change snapshot <;> cases analyzer.pathsBy change snapshot coverage <;>
    simp [eq_comm]

theorem affected_of_analyze
    (analyzed : analyzer.analyze change snapshot coverage now = .ok report) :
    report.affected = analyzer.affectedBy change snapshot coverage := by
  obtain ⟨_, paths, _, rfl⟩ := analyze_eq_ok_iff.mp analyzed
  rfl

theorem paths_of_analyze
    (analyzed : analyzer.analyze change snapshot coverage now = .ok report) :
    analyzer.pathsBy change snapshot coverage = .ok report.paths := by
  obtain ⟨_, paths, traced, rfl⟩ := analyze_eq_ok_iff.mp analyzed
  exact traced

theorem cycles_of_analyze
    (analyzed : analyzer.analyze change snapshot coverage now = .ok report) :
    report.assessment.cycles = analyzer.cyclesBy change snapshot coverage := by
  obtain ⟨_, paths, _, rfl⟩ := analyze_eq_ok_iff.mp analyzed
  rfl

/-- The assessment weighs the change, the affected modules, the paths and the cycles. -/
theorem assessment_of_analyze
    (analyzed : analyzer.analyze change snapshot coverage now = .ok report) :
    report.assessment = .ofChange change report.affected report.paths report.assessment.cycles
      analyzer.config.riskThresholds := by
  obtain ⟨_, paths, _, rfl⟩ := analyze_eq_ok_iff.mp analyzed
  rfl

/-- The advice follows from the assessment, and so does the summary. -/
theorem advice_of_analyze
    (analyzed : analyzer.analyze change snapshot coverage now = .ok report) :
    report.summary = .ofAnalysis report.affected report.paths report.assessment.overall ∧
      report.recommendations = report.assessment.recommendations change report.affected ∧
      report.strategies = report.assessment.strategies report.affected := by
  obtain ⟨_, paths, _, rfl⟩ := analyze_eq_ok_iff.mp analyzed
  exact ⟨rfl, rfl, rfl⟩

/-- The estimates follow from the affected modules. -/
theorem estimates_of_analyze
    (analyzed : analyzer.analyze change snapshot coverage now = .ok report) :
    report.tests = (if analyzer.config.analyzeTests then
        some (.ofAffected change.kind report.affected) else none) ∧
      report.performance = .ofAffected (.ofDependencies snapshot.dependencies) report.affected := by
  obtain ⟨_, paths, _, rfl⟩ := analyze_eq_ok_iff.mp analyzed
  exact ⟨rfl, rfl⟩

section Sample

/-- This analyzer computes with exact numbers and excludes nothing. -/
def plain : Analyzer Rat where
  config := { (default : Config Rat) with excludePatterns := [] }
  exclusion := ⟨[]⟩
  isValid := by with_unfolding_all rfl

/-- In this snapshot `c` depends on `b`, and `b` depends on `a`. -/
def chain : Snapshot where
  repository := ""
  dependencies :=
    [⟨"b", "a", .imports, "", .strong, false⟩, ⟨"c", "b", .imports, "", .weak, false⟩]
  modules := ⟨[("a", default)], List.pairwise_singleton _ _⟩

/-- This change modifies `a` alone. -/
def firstChanged : ChangeSet :=
  .ofModules "" .modification ["a"] default

theorem checkInputs_chain : checkInputs firstChanged chain = .ok () := by
  decide

end Sample

end Analyzer

end ChangeImpact
