/-
This file shows what becomes of a report if a changed module is listed once more: the assessment
counts the module again, and everything else takes the changed modules as a set.
-/

import ChangeImpact.Proofs.Analysis.Paths
import ChangeImpact.Proofs.Scalar
import Mathlib.Tactic.Linarith
import Mathlib.Tactic.NormNum

namespace ChangeImpact

/-- This change lists a module once more. -/
def ChangeSet.repeated (change : ChangeSet) (path : String) : ChangeSet :=
  { change with modules := change.modules ++ [path] }

section Change

variable {change : ChangeSet} {path : String}

@[simp] theorem ChangeSet.length_repeated :
    (change.repeated path).modules.length = change.modules.length + 1 :=
  List.length_append

/-- The same modules are changed, as far as the repeated one was listed before. -/
theorem ChangeSet.mem_repeated_iff (listed : path ∈ change.modules) (other : String) :
    other ∈ (change.repeated path).modules ↔ other ∈ change.modules := by
  simp only [repeated, List.mem_append, List.mem_singleton, or_iff_left_iff_imp]
  rintro rfl
  exact listed

/-- Without repetitions the two lists are the same. -/
theorem ChangeSet.distinct_repeated (listed : path ∈ change.modules) :
    distinct (change.repeated path).modules = distinct change.modules := by
  rw [distinct_eq_eraseDups, distinct_eq_eraseDups, repeated, eraseDups_concat, if_pos listed]

end Change

variable {α : Type} [Scalar α]

namespace RiskMetrics

/-- This is the complexity of a change that lists this number of modules. -/
def complexity (count : Nat) : α :=
  Scalar.cap (Scalar.ofNat count * 1.5) limit

theorem complexity_eq_min (count : Nat) :
    complexity count = min ((count : Rat) * (3 / 2)) 10 := by
  rw [complexity, limit, Scalar.cap_eq_min]
  norm_num [Scalar.ofNat]

/-- The complexity grows with each module up to the seventh one. -/
theorem complexity_succ_eq_iff {count : Nat} :
    complexity (count + 1) = (complexity count : Rat) ↔ 7 ≤ count := by
  rw [complexity_eq_min, complexity_eq_min, Nat.cast_add_one]
  constructor
  · intro same
    by_contra few
    have bound : (count : Rat) ≤ 6 := by exact_mod_cast Nat.le_of_lt_succ (Nat.lt_of_not_le few)
    rw [min_eq_left (by linarith : (count : Rat) * (3 / 2) ≤ 10)] at same
    have larger : (count : Rat) * (3 / 2) < min (((count : Rat) + 1) * (3 / 2)) 10 := by
      apply lt_min
      · linarith
      · linarith
    exact larger.ne' same
  · intro many
    have bound : (7 : Rat) ≤ count := by exact_mod_cast many
    rw [min_eq_right (by linarith), min_eq_right (by linarith)]

/-- These metrics differ in the complexity of the change alone. -/
def withComplexity (metrics : RiskMetrics α) (changeComplexity : α) : RiskMetrics α :=
  { metrics with
    changeComplexity
    overall := 0.2 * changeComplexity + 0.3 * metrics.impactScope +
      0.2 * metrics.testCoverageRisk + 0.2 * metrics.dependencyRisk +
      0.1 * metrics.historicalRisk }

theorem ofChange_repeated (change : ChangeSet) (path : String)
    (affected : List (AffectedModule α)) (paths : List (ImpactPath α)) :
    ofChange (change.repeated path) affected paths =
      (ofChange change affected paths).withComplexity (complexity (change.modules.length + 1)) := by
  rw [← ChangeSet.length_repeated]
  rfl

end RiskMetrics

namespace RiskAssessment

theorem when_lt_succ (limit count : Nat) (text : String) :
    when (limit < count + 1) text = when (count = limit) text ++ when (limit < count) text := by
  rcases Nat.lt_trichotomy count limit with below | rfl | above
  · have few : ¬ limit < count + 1 := by omega
    simp [when, few, below.ne, below.not_gt]
  · simp [when]
  · have many : limit < count + 1 := by omega
    simp [when, many, above, above.ne']

/-- This assessment counts one module more than the given number. -/
def recounted (assessment : RiskAssessment α) (count : Nat) : RiskAssessment α :=
  let metrics := assessment.metrics.withComplexity (RiskMetrics.complexity (count + 1))
  { assessment with
    overall := .ofScore metrics.overall
    riskFactors := when (count = 5) "Large number of changed modules" ++ assessment.riskFactors
    metrics }

variable {change : ChangeSet} {path : String} {affected : List (AffectedModule α)}
  {paths : List (ImpactPath α)} {cycles : List (List String)} {thresholds : RiskThresholds α}

/-- The sixth module in the list makes the change a large one, also if it is a repeated one. -/
theorem riskFactorsOf_repeated : riskFactorsOf (change.repeated path) affected paths cycles =
    when (change.modules.length = 5) "Large number of changed modules" ++
      riskFactorsOf change affected paths cycles := by
  simp only [riskFactorsOf, ChangeSet.length_repeated, when_lt_succ, List.append_assoc]
  rfl

theorem ofChange_repeated : ofChange (change.repeated path) affected paths cycles thresholds =
    (ofChange change affected paths cycles thresholds).recounted change.modules.length := by
  rw [ofChange, riskFactorsOf_repeated, RiskMetrics.ofChange_repeated]
  rfl

/-- One module more makes no difference if neither the complexity grows nor the change comes to be a
large one. -/
theorem recounted_eq_iff :
    (ofChange change affected paths cycles thresholds).recounted change.modules.length =
        ofChange change affected paths cycles thresholds ↔
      RiskMetrics.complexity (change.modules.length + 1) =
          (RiskMetrics.complexity change.modules.length : α) ∧
        change.modules.length ≠ 5 := by
  constructor
  · intro same
    have complexity := congrArg (fun assessment => assessment.metrics.changeComplexity) same
    have factors := congrArg riskFactors same
    refine ⟨complexity, ?_⟩
    intro five
    simp [recounted, ofChange, when, five] at factors
  · rintro ⟨same, few⟩
    rw [recounted, same]
    simp only [when, few, if_false, List.nil_append]
    rfl

variable {assessment : RiskAssessment α} {count : Nat}

theorem recommendations_recounted [WholeText α]
    (same : (assessment.recounted count).overall = assessment.overall) (change : ChangeSet)
    (affected : List (AffectedModule α)) :
    (assessment.recounted count).recommendations change affected =
      assessment.recommendations change affected := by
  rw [recommendations, same]
  rfl

theorem strategies_recounted (same : (assessment.recounted count).overall = assessment.overall)
    (affected : List (AffectedModule α)) :
    (assessment.recounted count).strategies affected = assessment.strategies affected := by
  rw [strategies, applicable, same]
  rfl

end RiskAssessment

/-- This report goes with an assessment that counts one changed module more. -/
def Report.recounted [WholeText α] (report : Report α) (change : ChangeSet) (path : String)
    (now : Timestamp) : Report α :=
  let assessment := report.assessment.recounted change.modules.length
  { report with
    change := change.repeated path
    summary := .ofAnalysis report.affected report.paths assessment.overall
    assessment
    recommendations := assessment.recommendations change report.affected
    strategies := assessment.strategies report.affected
    generatedAt := now }

namespace Analyzer

variable {analyzer : Analyzer α} {change : ChangeSet} {snapshot : Snapshot}
  {coverage : CoverageSource α} {path : String}

section Repeated

variable (listed : path ∈ change.modules)

include listed

theorem checkInputs_repeated (checked : checkInputs change snapshot = .ok ()) :
    checkInputs (change.repeated path) snapshot = .ok () := by
  rw [checkInputs_eq_ok_iff] at checked ⊢
  rwa [refuses_congr (fun _ => Iff.rfl) (ChangeSet.mem_repeated_iff listed) rfl]

/-- The same modules are reported with the same entries. -/
theorem affectedBy_repeated : analyzer.affectedBy (change.repeated path) snapshot coverage =
    analyzer.affectedBy change snapshot coverage := by
  have reports : analyzer.isReported (change.repeated path) coverage =
      analyzer.isReported change coverage := by
    funext record
    rw [isReported, isReported, ChangeSet.touches_congr (ChangeSet.mem_repeated_iff listed)]
  rw [affectedBy, affectedBy, affected, affected, reports, ChangeSet.distinct_repeated listed]
  rfl

theorem cyclesBy_repeated : analyzer.cyclesBy (change.repeated path) snapshot coverage =
    analyzer.cyclesBy change snapshot coverage := by
  rw [cyclesBy, cyclesBy, affectedBy_repeated listed]

/-- The same paths are traced. -/
theorem pathsBy_repeated : analyzer.pathsBy (change.repeated path) snapshot coverage =
    analyzer.pathsBy change snapshot coverage := by
  rw [pathsBy, pathsBy, affectedBy_repeated listed, cyclesBy_repeated listed,
    ChangeSet.distinct_repeated listed]

end Repeated

variable [WholeText α] {now later : Timestamp} {report : Report α}

theorem reportOf_repeated (listed : path ∈ change.modules) (paths : List (ImpactPath α)) :
    analyzer.reportOf (change.repeated path) snapshot coverage later paths =
      (analyzer.reportOf change snapshot coverage now paths).recounted change path later := by
  rw [reportOf, affectedBy_repeated listed, cyclesBy_repeated listed,
    RiskAssessment.ofChange_repeated]
  rfl

/-- If the level of the risk stays the same, only the assessment tells the reports apart. -/
theorem recounted_of_level
    (analyzed : analyzer.analyze change snapshot coverage now = .ok report) (path : String)
    (later : Timestamp)
    (same : (report.assessment.recounted change.modules.length).overall =
      report.assessment.overall) :
    report.recounted change path later = { report with
      change := change.repeated path
      assessment := report.assessment.recounted change.modules.length
      generatedAt := later } := by
  obtain ⟨summary, recommendations, strategies⟩ := advice_of_analyze analyzed
  simp only [Report.recounted, RiskAssessment.recommendations_recounted same,
    RiskAssessment.strategies_recounted same, same, ← summary, ← recommendations, ← strategies]

/-- If a changed module is listed once more, the assessment counts it again. Nothing else changes as
long as the level of the risk stays the same, and the assessment stays the same exactly if neither
the complexity grows nor five modules were listed before. -/
theorem analyze_repeated
    (analyzed : analyzer.analyze change snapshot coverage now = .ok report)
    (listed : path ∈ change.modules) (later : Timestamp) :
    analyzer.analyze (change.repeated path) snapshot coverage later =
        .ok (report.recounted change path later) ∧
      ((report.assessment.recounted change.modules.length).overall = report.assessment.overall →
        report.recounted change path later = { report with
          change := change.repeated path
          assessment := report.assessment.recounted change.modules.length
          generatedAt := later }) ∧
      (report.recounted change path later =
          { report with change := change.repeated path, generatedAt := later } ↔
        RiskMetrics.complexity (change.modules.length + 1) =
            (RiskMetrics.complexity change.modules.length : α) ∧
          change.modules.length ≠ 5) := by
  have level := recounted_of_level analyzed path later
  have steady : report.assessment.recounted change.modules.length = report.assessment ↔
      RiskMetrics.complexity (change.modules.length + 1) =
          (RiskMetrics.complexity change.modules.length : α) ∧
        change.modules.length ≠ 5 := by
    rw [assessment_of_analyze analyzed]
    exact RiskAssessment.recounted_eq_iff
  refine ⟨?_, level, ?_⟩
  · obtain ⟨checked, paths, traced, rfl⟩ := analyze_eq_ok_iff.mp analyzed
    exact analyze_eq_ok_iff.mpr ⟨checkInputs_repeated listed checked, paths,
      (pathsBy_repeated listed).trans traced, (reportOf_repeated listed paths).symm⟩
  · rw [← steady]
    constructor
    · intro same
      exact congrArg Report.assessment same
    · intro same
      rw [level (congrArg RiskAssessment.overall same), same]

section Sample

/-- In the chain the complexity of the change grows if `a` is listed twice. -/
theorem analyze_repeated_chain :
    ∃ report other, plain.analyze firstChanged chain CoverageSource.none default = .ok report ∧
      plain.analyze (firstChanged.repeated "a") chain CoverageSource.none default = .ok other ∧
      other.affected = report.affected ∧
      other ≠ { report with change := firstChanged.repeated "a", generatedAt := default } := by
  obtain ⟨report, analyzed⟩ := exists_report plain CoverageSource.none default checkInputs_chain
  have listed : "a" ∈ firstChanged.modules := List.mem_cons_self
  obtain ⟨again, _, steady⟩ := analyze_repeated analyzed listed default
  refine ⟨report, _, analyzed, again, rfl, ?_⟩
  intro same
  have many := RiskMetrics.complexity_succ_eq_iff.mp (steady.mp same).1
  exact absurd many (by decide)

/-- In this snapshot nothing depends on anything. -/
def lone : Snapshot :=
  { chain with dependencies := [] }

theorem eq_of_walk_lone {direction : Direction} {length : Nat} {source : String}
    (walk : Walk (plain.Spreads change lone direction) length source path) : path = source := by
  cases walk with
  | here => rfl
  | onward _ last =>
      obtain ⟨_, edge, isKept, _⟩ := last
      exact absurd (mem_kept_iff.mp isKept).1 List.not_mem_nil

variable (only : ∀ path, path ∈ change.modules ↔ path = "a")

include only

/-- A change of `a` alone reaches nothing else. -/
theorem reached_lone : plain.reached change lone = [Reach.start "a"] := by
  have nodup := (gathered_reached plain change lone).nodup.of_map
  apply List.perm_singleton.mp
  apply (List.perm_ext_iff_of_nodup nodup (List.nodup_singleton _)).mpr
  intro record
  rw [List.mem_singleton]
  constructor
  · intro isReached
    obtain ⟨⟨_, direction, source, isSource, walk⟩, _⟩ := isNearest_of_reached isReached
    have same := eq_of_walk_lone walk
    rw [start_of_reached isReached (same ▸ isSource), same, (only source).mp isSource]
  · rintro rfl
    obtain ⟨record, isReached, isPath⟩ :=
      exists_reached_of_changed plain lone ((only "a").mpr rfl)
    have changed : record.path ∈ change.modules := (only record.path).mpr isPath
    rw [← isPath, ← start_of_reached isReached changed]
    exact isReached

theorem affectedBy_lone (coverage : CoverageSource Rat) :
    plain.affectedBy change lone coverage =
      [plain.assess change lone coverage (Reach.start "a")] := by
  have isReported : plain.isReported change coverage (Reach.start "a") = true :=
    isReported_iff.mpr (.inl ((only "a").mpr rfl))
  rw [affectedBy, ← reached, reached_lone only, affected, List.filter_cons_of_pos isReported,
    List.filter_nil, List.map_singleton, AffectedModule.sort, List.mergeSort_singleton]

/-- So the risk of the change is that of its own complexity and of a module that is not tested. -/
theorem level_lone {report : Report Rat}
    (analyzed : plain.analyze change lone CoverageSource.none default = .ok report) :
    report.assessment.overall = .ofScore (RiskMetrics.ofChange change
      [plain.assess change lone CoverageSource.none (Reach.start "a")] []).overall := by
  have isAffected := (affected_of_analyze analyzed).trans (affectedBy_lone only CoverageSource.none)
  have noPaths : report.paths = [] := by
    apply List.eq_nil_iff_forall_not_mem.mpr
    intro traced member
    obtain ⟨number, pair, isPair, _⟩ := exists_traces analyzed member
    obtain ⟨_, isTarget, far, _⟩ := mem_connectedPairs_iff.mp isPair
    rw [isAffected, List.mem_singleton] at isTarget
    rw [isTarget] at far
    exact Nat.not_succ_le_zero 0 far
  rw [assessment_of_analyze analyzed, isAffected, noPaths]
  rfl

omit only

/-- If `a` is listed twice, the risk of its change comes to be medium. -/
theorem exists_repeated_riskier :
    ∃ report other, plain.analyze firstChanged lone CoverageSource.none default = .ok report ∧
      plain.analyze (firstChanged.repeated "a") lone CoverageSource.none default = .ok other ∧
      report.assessment.overall = .low ∧ other.assessment.overall = .medium ∧
      other ≠ { report with change := other.change, generatedAt := other.generatedAt } := by
  have checked : checkInputs firstChanged lone = .ok () := by decide
  have listed : "a" ∈ firstChanged.modules := List.mem_cons_self
  obtain ⟨report, analyzed⟩ := exists_report plain CoverageSource.none default checked
  obtain ⟨other, again⟩ :=
    exists_report plain CoverageSource.none default (checkInputs_repeated listed checked)
  have once : ∀ path, path ∈ firstChanged.modules ↔ path = "a" := fun _ => List.mem_singleton
  have twice (path : String) : path ∈ (firstChanged.repeated "a").modules ↔ path = "a" :=
    (ChangeSet.mem_repeated_iff listed path).trans (once path)
  have low : report.assessment.overall = .low := by
    rw [level_lone once analyzed]
    decide +kernel
  have medium : other.assessment.overall = .medium := by
    rw [level_lone twice again]
    decide +kernel
  refine ⟨report, other, analyzed, again, low, medium, ?_⟩
  intro same
  rw [same, low] at medium
  cases medium

end Sample

end Analyzer

end ChangeImpact
