/-
This file shows that exact scores put the changed modules before all others, at a high risk, and
what the assessment, the estimates and the strategies make of that.
-/

import ChangeImpact.Proofs.Analysis.Affected
import ChangeImpact.Proofs.Analysis.Ranking
import ChangeImpact.Proofs.Impact.Score

namespace ChangeImpact

/-- If all kept items come before the others, a list is made of these two parts. -/
theorem eq_filter_append_filter {β : Type} {keep : β → Bool} {list : List β}
    (ordered : list.Pairwise fun left right => keep right = true → keep left = true) :
    list = list.filter keep ++ list.filter (!keep ·) := by
  induction list with
  | nil => rfl
  | cons item rest ih =>
      obtain ⟨before, restOrdered⟩ := List.pairwise_cons.mp ordered
      by_cases kept : keep item = true
      · simp only [List.filter_cons, kept, if_true, Bool.not_true, Bool.false_eq_true, if_false,
          List.cons_append, ← ih restOrdered]
      · -- After an item that is not kept nothing is kept any more.
        have none : ∀ other ∈ rest, ¬ keep other = true :=
          fun other member isKept => kept (before other member isKept)
        have all : ∀ other ∈ item :: rest, (!keep other) = true := by
          simpa [kept] using none
        rw [List.filter_eq_self.mpr all, List.filter_cons_of_neg kept,
          List.filter_eq_nil_iff.mpr none, List.nil_append]

namespace AffectedModule

/-- No module comes before one of a higher exact score. -/
theorem score_le_of_isLE {left right : AffectedModule Rat} (before : (order left right).isLE) :
    right.score ≤ left.score := by
  by_contra higher
  have after : Scalar.order right.score left.score = .gt := by
    rw [not_le] at higher
    change (if right.score < left.score then Ordering.lt else
      if right.score = left.score then .eq else .gt) = .gt
    rw [if_neg higher.not_gt, if_neg higher.ne']
  rw [order, after] at before
  cases before

variable {α : Type} [Scalar α] [Std.TransCmp (Scalar.order : α → α → Ordering)]

/-- Modules of the same score and distance are ordered by their paths. -/
theorem path_lt_of_isLE {left right : AffectedModule α} (before : (order left right).isLE)
    (sameScore : left.score = right.score) (sameDistance : left.distance = right.distance)
    (apart : left.path ≠ right.path) : left.path < right.path := by
  have scores : Scalar.order right.score right.score = .eq := Std.ReflCmp.compare_self
  have distances : compare right.distance right.distance = .eq := Std.ReflCmp.compare_self
  rw [order, sameScore, sameDistance, scores, distances, Ordering.eq_then, Ordering.eq_then]
    at before
  cases compared : compare left.path right.path with
  | lt => exact compareOfLessAndEq_eq_lt.mp compared
  | eq => exact absurd (Std.LawfulEqCmp.eq_of_compare compared) apart
  | gt =>
      rw [compared] at before
      cases before

end AffectedModule

section Consequences

variable {α : Type} {affected : List (AffectedModule α)} {entry : AffectedModule α}

/-- A module at high risk near the change may be a bottleneck. -/
theorem PerformanceImpact.mem_bottlenecks (graph : Graph) (member : entry ∈ affected)
    (risky : entry.risk = .high) (near : entry.distance ≤ 2) :
    entry.path ∈ (ofAffected graph affected).bottlenecks := by
  have isBottleneck : isBottleneck graph entry = true := by
    simp [PerformanceImpact.isBottleneck, risky, near]
  exact mem_distinct.mpr (List.mem_map_of_mem (List.mem_filter.mpr ⟨member, isBottleneck⟩))

variable [Scalar α]

/-- A module at high risk makes testing an effort. -/
theorem TestImpact.estimateEffort_ne_low (member : entry ∈ affected) (risky : entry.risk = .high)
    (change : ChangeKind) : estimateEffort affected change ≠ .low := by
  have some : 1 ≤ atRisk .high affected := by
    rw [atRisk]
    exact List.countP_pos_iff.mpr ⟨entry, member, by simp [risky]⟩
  unfold estimateEffort
  simp only [some, true_or, or_true, if_true]
  split <;> decide

/-- Every strategy that an assessment calls for is numbered and listed. -/
theorem RiskAssessment.mem_strategies {assessment : RiskAssessment α}
    {strategy : MitigationStrategy} (called : (true, strategy) ∈ assessment.applicable affected) :
    ∃ id, { strategy with id } ∈ assessment.strategies affected := by
  have chosen : strategy ∈ ((applicable assessment affected).filter Prod.fst).map Prod.snd :=
    List.mem_map.mpr ⟨_, List.mem_filter.mpr ⟨called, rfl⟩, rfl⟩
  obtain ⟨index, here⟩ := List.mem_iff_getElem?.mp (List.mem_mergeSort.mpr chosen)
  refine ⟨s!"strategy_{index + 1}", List.mem_map.mpr ⟨(strategy, index), ?_, rfl⟩⟩
  exact List.mem_zipIdx_iff_getElem?.mpr here

end Consequences

namespace Analyzer

variable {analyzer : Analyzer Rat} {change : ChangeSet} {snapshot : Snapshot}
  {coverage : CoverageSource Rat} {entry : AffectedModule Rat}

/-- A changed module is reported with the highest score. -/
theorem top_of_changed (member : entry ∈ analyzer.affectedBy change snapshot coverage)
    (changed : entry.path ∈ change.modules) :
    entry.distance = 0 ∧ entry.score = 10 ∧ entry.risk = .high := by
  obtain ⟨record, isReached, _, rfl⟩ := mem_affectedBy_iff.mp member
  have isStart := start_of_reached isReached changed
  have top : scoreOf coverage record = 10 := by
    rw [isStart]
    exact Impact.score_of_changed _
  refine ⟨?_, top, ?_⟩
  · rw [isStart]
    rfl
  · rw [assess, top]
    exact RiskThresholds.classify_ten analyzer.isValid

/-- All other modules are reported with a lower score. -/
theorem score_lt_of_unchanged (member : entry ∈ analyzer.affectedBy change snapshot coverage)
    (unchanged : entry.path ∉ change.modules) : entry.score < 10 := by
  have nearest := isNearest_of_affectedBy member
  obtain ⟨record, _, _, rfl⟩ := mem_affectedBy_iff.mp member
  have far : 1 ≤ record.distance := by
    by_contra near
    have here : record.distance = 0 := by omega
    have atChange : analyzer.IsNearest change snapshot record.path 0 := here ▸ nearest
    exact unchanged (changed_of_isNearest_zero atChange)
  have below : scoreOf coverage record ≤ 44 / 5 := Impact.score_le far
  have limit : (44 / 5 : Rat) < 10 := by norm_num
  exact below.trans_lt limit

theorem affectedBy_pairwise (analyzer : Analyzer Rat) (change : ChangeSet) (snapshot : Snapshot)
    (coverage : CoverageSource Rat) :
    (analyzer.affectedBy change snapshot coverage).Pairwise fun left right =>
      (AffectedModule.order left right).isLE :=
  AffectedModule.pairwise_sort _

/-- An entry says whether its module was changed. -/
def isChanged (change : ChangeSet) (entry : AffectedModule Rat) : Bool :=
  change.touches entry.path

/-- These are the entries of the changed modules. -/
def changedBy (analyzer : Analyzer Rat) (change : ChangeSet) (snapshot : Snapshot)
    (coverage : CoverageSource Rat) : List (AffectedModule Rat) :=
  (analyzer.affectedBy change snapshot coverage).filter (isChanged change)

/-- These are the other entries. -/
def unchangedBy (analyzer : Analyzer Rat) (change : ChangeSet) (snapshot : Snapshot)
    (coverage : CoverageSource Rat) : List (AffectedModule Rat) :=
  (analyzer.affectedBy change snapshot coverage).filter (!isChanged change ·)

theorem mem_changedBy_iff : entry ∈ analyzer.changedBy change snapshot coverage ↔
    entry ∈ analyzer.affectedBy change snapshot coverage ∧ entry.path ∈ change.modules := by
  rw [changedBy, List.mem_filter, isChanged, ChangeSet.touches_iff]

theorem mem_unchangedBy_iff : entry ∈ analyzer.unchangedBy change snapshot coverage ↔
    entry ∈ analyzer.affectedBy change snapshot coverage ∧ entry.path ∉ change.modules := by
  rw [unchangedBy, List.mem_filter, isChanged, Bool.not_eq_true', ← Bool.not_eq_true,
    ChangeSet.touches_iff]

/-- The entries of the changed modules come first. -/
theorem affectedBy_eq_append (analyzer : Analyzer Rat) (change : ChangeSet) (snapshot : Snapshot)
    (coverage : CoverageSource Rat) :
    analyzer.affectedBy change snapshot coverage =
      analyzer.changedBy change snapshot coverage ++
        analyzer.unchangedBy change snapshot coverage := by
  apply eq_filter_append_filter
  apply (affectedBy_pairwise analyzer change snapshot coverage).imp_of_mem
  intro left right isLeft isRight before changed
  by_contra unchanged
  rw [isChanged, ChangeSet.touches_iff] at changed unchanged
  have low := score_lt_of_unchanged isLeft unchanged
  have high := (top_of_changed isRight changed).2.1
  have below := AffectedModule.score_le_of_isLE before
  linarith

/-- The changed modules among each other are ordered by their paths. -/
theorem paths_changedBy_pairwise (analyzer : Analyzer Rat) (change : ChangeSet)
    (snapshot : Snapshot) (coverage : CoverageSource Rat) :
    ((analyzer.changedBy change snapshot coverage).map AffectedModule.path).Pairwise (· < ·) := by
  have ordered := affectedBy_pairwise analyzer change snapshot coverage
  have nodup := List.pairwise_map.mp (affectedBy_nodup analyzer change snapshot coverage)
  rw [List.pairwise_map]
  apply ((ordered.and nodup).filter _).imp_of_mem
  intro left right isLeft isRight before
  obtain ⟨leftMember, leftChanged⟩ := mem_changedBy_iff.mp isLeft
  obtain ⟨rightMember, rightChanged⟩ := mem_changedBy_iff.mp isRight
  obtain ⟨leftHere, leftTop, _⟩ := top_of_changed leftMember leftChanged
  obtain ⟨rightHere, rightTop, _⟩ := top_of_changed rightMember rightChanged
  apply AffectedModule.path_lt_of_isLE before.1
  · exact leftTop.trans rightTop.symm
  · exact leftHere.trans rightHere.symm
  · exact before.2

/-- They are exactly the modules of the change. -/
theorem mem_paths_changedBy_iff {path : String} :
    path ∈ (analyzer.changedBy change snapshot coverage).map AffectedModule.path ↔
      path ∈ change.modules := by
  rw [List.mem_map]
  constructor
  · rintro ⟨entry, member, rfl⟩
    exact (mem_changedBy_iff.mp member).2
  · intro changed
    obtain ⟨entry, member, rfl⟩ := exists_affectedBy_of_changed analyzer snapshot coverage changed
    exact ⟨entry, mem_changedBy_iff.mpr ⟨member, changed⟩, rfl⟩

variable {now : Timestamp} {report : Report Rat}

/-- Every changed module has an entry at the top. -/
theorem exists_top (analyzed : analyzer.analyze change snapshot coverage now = .ok report)
    {path : String} (changed : path ∈ change.modules) :
    ∃ entry ∈ report.affected, entry.path = path ∧ entry.distance = 0 ∧ entry.risk = .high := by
  obtain ⟨entry, member, rfl⟩ := exists_affectedBy_of_changed analyzer snapshot coverage changed
  obtain ⟨here, _, risky⟩ := top_of_changed member changed
  rw [← affected_of_analyze analyzed] at member
  exact ⟨entry, member, rfl, here, risky⟩

/-- So every changed module is listed as one at high risk. -/
theorem mem_highRiskModules (analyzed : analyzer.analyze change snapshot coverage now = .ok report)
    {path : String} (changed : path ∈ change.modules) :
    path ∈ report.assessment.highRiskModules := by
  obtain ⟨entry, member, rfl, _, risky⟩ := exists_top analyzed changed
  rw [assessment_of_analyze analyzed]
  exact List.mem_map_of_mem (List.mem_filter.mpr ⟨member, beq_iff_eq.mpr risky⟩)

/-- So the strategies against such modules are called for. -/
theorem exists_monitoring (analyzed : analyzer.analyze change snapshot coverage now = .ok report) :
    ∃ id, { RiskAssessment.highRiskMonitoring with id } ∈ report.strategies := by
  obtain ⟨path, changed⟩ := exists_changed analyzed
  have called : (!report.assessment.highRiskModules.isEmpty) = true := by
    rw [Bool.not_eq_true', List.isEmpty_eq_false_iff]
    exact List.ne_nil_of_mem (mem_highRiskModules analyzed changed)
  rw [(advice_of_analyze analyzed).2.2]
  apply RiskAssessment.mem_strategies
  rw [RiskAssessment.applicable, called]
  exact List.mem_cons_self

/-- With exact scores a report begins with the changed modules, in the order of their paths. Each of
them has the highest score and is at high risk, whatever its coverage and the thresholds, and no
other module scores as high. So each of them is listed as a module at high risk and as a bottleneck,
the monitoring of such modules is among the strategies, and testing the change is an effort. -/
theorem analyze_changed_first
    (analyzed : analyzer.analyze change snapshot coverage now = .ok report) :
    (∃ first rest, report.affected = first ++ rest ∧
      (first.map AffectedModule.path).Pairwise (· < ·) ∧
      (∀ path, path ∈ first.map AffectedModule.path ↔ path ∈ change.modules) ∧
      (∀ entry ∈ first, entry.score = 10 ∧ entry.risk = .high) ∧
      ∀ entry ∈ rest, entry.path ∉ change.modules ∧ entry.score < 10) ∧
    (∀ path ∈ change.modules, path ∈ report.assessment.highRiskModules ∧
      path ∈ report.performance.bottlenecks) ∧
    (∃ id, { RiskAssessment.highRiskMonitoring with id } ∈ report.strategies) ∧
    ∀ tests, report.tests = some tests → tests.effort ≠ .low := by
  obtain ⟨isTests, isPerformance⟩ := estimates_of_analyze analyzed
  refine ⟨?_, ?_, exists_monitoring analyzed, ?_⟩
  · refine ⟨analyzer.changedBy change snapshot coverage,
      analyzer.unchangedBy change snapshot coverage, ?_,
      paths_changedBy_pairwise analyzer change snapshot coverage,
      fun _ => mem_paths_changedBy_iff, ?_, ?_⟩
    · rw [affected_of_analyze analyzed]
      exact affectedBy_eq_append analyzer change snapshot coverage
    · intro entry member
      obtain ⟨isEntry, changed⟩ := mem_changedBy_iff.mp member
      exact (top_of_changed isEntry changed).2
    · intro entry member
      obtain ⟨isEntry, unchanged⟩ := mem_unchangedBy_iff.mp member
      exact ⟨unchanged, score_lt_of_unchanged isEntry unchanged⟩
  · intro path changed
    constructor
    · exact mem_highRiskModules analyzed changed
    · obtain ⟨entry, member, rfl, here, risky⟩ := exists_top analyzed changed
      rw [isPerformance]
      exact PerformanceImpact.mem_bottlenecks _ member risky (by omega)
  · intro tests estimated
    obtain ⟨path, changed⟩ := exists_changed analyzed
    obtain ⟨entry, member, _, _, risky⟩ := exists_top analyzed changed
    rw [isTests] at estimated
    split_ifs at estimated
    obtain rfl := Option.some.inj estimated
    exact TestImpact.estimateEffort_ne_low member risky change.kind

section Sample

/-- In the chain the report begins with `a`, which may be a bottleneck. -/
theorem analyze_changed_first_chain :
    ∃ report, plain.analyze firstChanged chain CoverageSource.none default = .ok report ∧
      (∃ rest, report.affected.map AffectedModule.path = "a" :: rest) ∧
      "a" ∈ report.performance.bottlenecks := by
  obtain ⟨report, analyzed⟩ := exists_report plain CoverageSource.none default checkInputs_chain
  obtain ⟨⟨first, rest, parts, ordered, onlyChanged, _⟩, listed, _⟩ :=
    analyze_changed_first analyzed
  have nodup : (first.map AffectedModule.path).Nodup := by
    apply ordered.imp
    rintro left _ before rfl
    exact String.lt_irrefl left before
  have same : (first.map AffectedModule.path).Perm ["a"] :=
    (List.perm_ext_iff_of_nodup nodup (List.nodup_singleton "a")).mpr onlyChanged
  refine ⟨report, analyzed, ⟨rest.map AffectedModule.path, ?_⟩, (listed "a" ?_).2⟩
  · rw [parts, List.map_append, List.perm_singleton.mp same]
    rfl
  · exact List.mem_cons_self

end Sample

end Analyzer

end ChangeImpact
