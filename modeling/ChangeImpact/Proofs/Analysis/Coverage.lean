/-
This file shows that coverage lowers scores and levels of risk, and that it takes modules out of a
report but never changes how the others are reached.
-/

import ChangeImpact.Proofs.Analysis.Ranges

namespace ChangeImpact

/-- An entry dominates another one of its module if that was reached the same way and neither
scores higher nor is at a higher risk. -/
structure AffectedModule.Dominates (entry other : AffectedModule Rat) : Prop where
  path : other.path = entry.path
  distance : other.distance = entry.distance
  strength : other.strength = entry.strength
  kind : other.kind = entry.kind
  score : other.score ≤ entry.score
  risk : other.risk ≤ entry.risk

namespace Analyzer

variable {analyzer : Analyzer Rat} {change : ChangeSet} {snapshot : Snapshot}
  {less more : CoverageSource Rat}

theorem scoreOf_le (below : ∀ path, less.share path ≤ more.share path) (record : Reach) :
    scoreOf more record ≤ scoreOf less record := by
  apply Impact.score_antitone
  rw [CoverageSource.coverageOf_eq_share, CoverageSource.coverageOf_eq_share]
  exact below record.path

/-- With less coverage a module is assessed no better. -/
theorem assess_dominates (analyzer : Analyzer Rat) (change : ChangeSet) (snapshot : Snapshot)
    (below : ∀ path, less.share path ≤ more.share path) (record : Reach) :
    (analyzer.assess change snapshot less record).Dominates
      (analyzer.assess change snapshot more record) where
  path := rfl
  distance := rfl
  strength := rfl
  kind := rfl
  score := scoreOf_le below record
  risk := RiskThresholds.classify_mono _ (scoreOf_le below record)

/-- What is reported with more coverage is reported with less. -/
theorem exists_dominating (below : ∀ path, less.share path ≤ more.share path)
    {entry : AffectedModule Rat} (member : entry ∈ analyzer.affectedBy change snapshot more) :
    ∃ other ∈ analyzer.affectedBy change snapshot less, other.Dominates entry := by
  obtain ⟨record, isReached, isReported, rfl⟩ := mem_affectedBy_iff.mp member
  refine ⟨_, mem_affectedBy_iff.mpr ⟨record, isReached, ?_, rfl⟩,
    assess_dominates analyzer change snapshot below record⟩
  exact isReported.imp_right fun kept dropped => kept ((scoreOf_le below record).trans_lt dropped)

/-- If a source of coverage shows no module to be tested more than another one does, then both lead
to the same refusal, or every module reported with the other one is reported with it too. Each such
module is reached the same way in both reports, and it has no higher a score and is at no higher a
risk where the coverage is higher. Both reports contain every changed module. -/
theorem analyze_coverage_antitone (analyzer : Analyzer Rat) (change : ChangeSet)
    (snapshot : Snapshot) (now later : Timestamp)
    (below : ∀ path, less.share path ≤ more.share path) :
    (∃ cause, checkInputs change snapshot = .error cause ∧
      analyzer.analyze change snapshot less now = .error (.input cause) ∧
      analyzer.analyze change snapshot more later = .error (.input cause)) ∨
    ∃ exposed covered,
      analyzer.analyze change snapshot less now = .ok exposed ∧
      analyzer.analyze change snapshot more later = .ok covered ∧
      (∀ entry ∈ covered.affected, ∃ other ∈ exposed.affected, other.path = entry.path) ∧
      (∀ entry ∈ covered.affected, ∀ other ∈ exposed.affected, other.path = entry.path →
        other.Dominates entry) ∧
      ∀ path ∈ change.modules, (∃ entry ∈ exposed.affected, entry.path = path) ∧
        ∃ entry ∈ covered.affected, entry.path = path := by
  cases checked : checkInputs change snapshot with
  | error cause =>
      exact .inl ⟨cause, rfl, analyze_of_checkInputs_error checked,
        analyze_of_checkInputs_error checked⟩
  | ok _ =>
      obtain ⟨exposed, exposes⟩ := exists_report analyzer less now checked
      obtain ⟨covered, covers⟩ := exists_report analyzer more later checked
      refine .inr ⟨exposed, covered, exposes, covers, ?_⟩
      rw [affected_of_analyze exposes, affected_of_analyze covers]
      refine ⟨?_, ?_, fun path changed => ⟨?_, ?_⟩⟩
      · intro entry member
        obtain ⟨other, isOther, dominates⟩ := exists_dominating below member
        exact ⟨other, isOther, dominates.path.symm⟩
      · intro entry member other isOther same
        obtain ⟨found, isFound, dominates⟩ := exists_dominating below member
        -- No module is reported twice, so that the entry found is the given one.
        have nodup := affectedBy_nodup analyzer change snapshot less
        rwa [List.inj_on_of_nodup_map nodup isOther isFound (same.trans dominates.path)]
      · exact exists_affectedBy_of_changed analyzer snapshot less changed
      · exact exists_affectedBy_of_changed analyzer snapshot more changed

section Sample

theorem share_none_le_unsound (path : String) :
    CoverageSource.none.share path ≤ unsound.share path := by
  change 0 ≤ unsound.share path
  rw [← CoverageSource.coverageOf_eq_share]
  exact (CoverageSource.coverageOf_mem_Icc unsound path).1

/-- In the chain the module `b` scores no higher if it is tested. -/
theorem analyze_coverage_antitone_chain :
    (∀ path, CoverageSource.none.share path ≤ unsound.share path) ∧
    ∃ exposed covered,
      plain.analyze firstChanged chain CoverageSource.none default = .ok exposed ∧
      plain.analyze firstChanged chain unsound default = .ok covered ∧
      ∃ entry ∈ covered.affected, entry.path = "b" ∧
        ∃ other ∈ exposed.affected, other.Dominates entry := by
  refine ⟨share_none_le_unsound, ?_⟩
  obtain ⟨cause, refused, _⟩ | ⟨exposed, covered, exposes, covers, kept, dominates, _⟩ :=
    analyze_coverage_antitone plain firstChanged chain default default share_none_le_unsound
  · rw [checkInputs_chain] at refused
    cases refused
  · have reported : ∃ entry ∈ plain.affectedBy firstChanged chain unsound,
        entry.path = "b" ∧ entry.distance = 1 ∧ entry.strength = .strong :=
      (exists_affectedBy_iff (by decide)).mpr
        ⟨isNearest_chain, isGreatest_chain, by decide +kernel⟩
    obtain ⟨entry, member, here, _⟩ := reported
    rw [← affected_of_analyze covers] at member
    obtain ⟨other, isOther, same⟩ := kept entry member
    exact ⟨exposed, covered, exposes, covers, entry, member, here, other, isOther,
      dominates entry member other isOther same⟩

end Sample

end Analyzer

end ChangeImpact
