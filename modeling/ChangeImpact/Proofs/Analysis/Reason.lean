/-
This file shows which modules a report says depend directly on the change.
-/

import ChangeImpact.Proofs.Analysis.Affected

namespace ChangeImpact

namespace Impact

variable {distance : Nat} {strength : Strength} {kind : ChangeKind}

/-- A reason says that the module depends directly on the change. -/
def SaysDirect (reason : String) : Prop :=
  ∃ rest, reason = "Module directly depends on modified code" ++ rest

/-- Away from the change a reason starts with how the module was reached. -/
theorem exists_reason_eq (away : distance ≠ 0) :
    ∃ rest, reason distance strength kind = reachPhrase distance ++ rest := by
  refine ⟨" (" ++ couplingPhrase strength ++ ") - " ++ consequencePhrase kind, ?_⟩
  rw [reason, if_neg away]
  simp only [String.append_assoc]
  rfl

theorem exists_reachPhrase_eq (far : distance ≠ 1) :
    ∃ rest, reachPhrase distance = "Module transitively affected through " ++ rest := by
  refine ⟨toString distance ++ "-degree dependency", ?_⟩
  rw [reachPhrase, if_neg far]
  exact String.append_assoc

/-- A reason says so exactly one step away from the change. -/
theorem saysDirect_reason_iff : SaysDirect (reason distance strength kind) ↔ distance = 1 := by
  constructor
  · rintro ⟨rest, same⟩
    -- The eighth characters tell the three sentences apart.
    have eighth := congrArg (fun text => text.toList[7]?) same
    by_contra far
    by_cases here : distance = 0
    · simp [reason, here] at eighth
    · obtain ⟨more, isReason⟩ := @exists_reason_eq distance strength kind here
      obtain ⟨between, isPhrase⟩ := exists_reachPhrase_eq far
      simp [isReason, isPhrase] at eighth
  · rintro rfl
    exact exists_reason_eq one_ne_zero

end Impact

namespace Analyzer

variable {α : Type} [Scalar α]

/-- Some kept dependency leads from a module to a changed one. -/
def DependsOnChange (analyzer : Analyzer α) (change : ChangeSet) (snapshot : Snapshot)
    (path : String) : Prop :=
  ∃ edge ∈ analyzer.kept snapshot, edge.dependent = path ∧ edge.provider ∈ change.modules

/-- Some kept dependency leads from a changed module to another. -/
def ServesChange (analyzer : Analyzer α) (change : ChangeSet) (snapshot : Snapshot)
    (path : String) : Prop :=
  ∃ edge ∈ analyzer.kept snapshot, edge.provider = path ∧ edge.dependent ∈ change.modules

variable {analyzer : Analyzer α} {change : ChangeSet} {snapshot : Snapshot}
  {coverage : CoverageSource α} {path : String} {distance : Nat}

/-- A module next to a changed one depends on it or is depended on by it. -/
theorem exists_follows_iff : (∃ direction : Direction, ∃ source ∈ change.modules,
      ∃ edge ∈ analyzer.kept snapshot, direction.start edge = source ∧
        direction.finish edge = path) ↔
      analyzer.DependsOnChange change snapshot path ∨
        analyzer.ServesChange change snapshot path := by
  constructor
  · rintro ⟨direction, source, changed, edge, isKept, rfl, finish⟩
    cases direction with
    | dependents => exact .inl ⟨edge, isKept, finish, changed⟩
    | dependencies => exact .inr ⟨edge, isKept, finish, changed⟩
  · rintro (⟨edge, isKept, rfl, changed⟩ | ⟨edge, isKept, rfl, changed⟩)
    · exact ⟨.dependents, edge.provider, changed, edge, isKept, rfl, rfl⟩
    · exact ⟨.dependencies, edge.dependent, changed, edge, isKept, rfl, rfl⟩

/-- A module that is reached from the change may be entered. -/
theorem enters_of_isNearest (nearest : analyzer.IsNearest change snapshot path distance) :
    path ∈ change.modules ∨ analyzer.exclusion.excludes path = false := by
  obtain ⟨⟨_, direction, source, changed, walk⟩, _⟩ := nearest
  cases walk with
  | here => exact .inl changed
  | onward _ last => exact last.1

/-- An unchanged module is one step away exactly if some dependency joins it and a changed one. -/
theorem eq_one_iff_of_isNearest (nearest : analyzer.IsNearest change snapshot path distance)
    (unchanged : path ∉ change.modules) :
    distance = 1 ↔ analyzer.DependsOnChange change snapshot path ∨
      analyzer.ServesChange change snapshot path := by
  rw [← exists_follows_iff]
  constructor
  · rintro rfl
    obtain ⟨⟨_, direction, source, changed, walk⟩, _⟩ := nearest
    rcases walk.eq_or_step le_rfl with rfl | ⟨_, step⟩
    · exact absurd changed unchanged
    · exact ⟨direction, source, changed, step⟩
  · rintro ⟨direction, source, changed, step⟩
    have away : distance ≠ 0 := by
      rintro rfl
      exact unchanged (changed_of_isNearest_zero nearest)
    have inDepth : 1 ≤ analyzer.config.maxDepth :=
      (Nat.one_le_iff_ne_zero.mpr away).trans nearest.1.1
    exact nearest.unique (isNearest_one_of_spreads changed
      ⟨enters_of_isNearest nearest, step⟩ unchanged inDepth)

theorem saysDirect_iff_of_affectedBy {entry : AffectedModule α}
    (member : entry ∈ analyzer.affectedBy change snapshot coverage) :
    Impact.SaysDirect entry.reason ↔ entry.distance = 1 := by
  obtain ⟨record, _, _, rfl⟩ := mem_affectedBy_iff.mp member
  exact Impact.saysDirect_reason_iff

section Sample

/-- In this snapshot of the chain the module `b` is known instead of `a`. -/
def chainOfSecond : Snapshot :=
  { chain with modules := ⟨[("b", default)], List.pairwise_singleton _ _⟩ }

/-- This change modifies `b` alone. -/
def secondChanged : ChangeSet :=
  .ofModules "" .modification ["b"] default

/-- The module `a`, on which `b` depends, is one step from the change. -/
theorem isNearest_chainOfSecond : plain.IsNearest secondChanged chainOfSecond "a" 1 := by
  have step : plain.Spreads secondChanged chainOfSecond .dependencies "b" "a" :=
    ⟨.inr rfl, ⟨"b", "a", .imports, "", .strong, false⟩, by decide, rfl, rfl⟩
  exact isNearest_one_of_spreads List.mem_cons_self step (by decide) (by decide)

end Sample

variable [WholeText α] {now : Timestamp} {report : Report α}

/-- The reason of a reported module away from the change says that it depends directly on the change
exactly if some dependency joins it and a changed module, whichever of them depends on the other.
So what is said is true unless a changed module depends on it and it depends on none. -/
theorem analyze_reason_direct
    (analyzed : analyzer.analyze change snapshot coverage now = .ok report) :
    ∀ entry ∈ report.affected, 1 ≤ entry.distance →
      (Impact.SaysDirect entry.reason ↔ analyzer.DependsOnChange change snapshot entry.path ∨
        analyzer.ServesChange change snapshot entry.path) ∧
      ((Impact.SaysDirect entry.reason → analyzer.DependsOnChange change snapshot entry.path) ↔
        (analyzer.ServesChange change snapshot entry.path →
          analyzer.DependsOnChange change snapshot entry.path)) := by
  rw [affected_of_analyze analyzed]
  intro entry member away
  have unchanged : entry.path ∉ change.modules :=
    mt (distance_eq_zero_iff member).mpr (Nat.one_le_iff_ne_zero.mp away)
  have joined := eq_one_iff_of_isNearest (isNearest_of_affectedBy member) unchanged
  have said := (saysDirect_iff_of_affectedBy member).trans joined
  refine ⟨said, ?_⟩
  rw [said]
  tauto

/-- In the chain `b` is said to depend directly on the change of `a`, which is true. -/
theorem analyze_reason_direct_chain :
    ∃ report, plain.analyze firstChanged chain CoverageSource.none default = .ok report ∧
      ∃ entry ∈ report.affected, entry.path = "b" ∧ entry.distance = 1 ∧
        Impact.SaysDirect entry.reason ∧ plain.DependsOnChange firstChanged chain "b" := by
  obtain ⟨report, analyzed⟩ := exists_report plain CoverageSource.none default checkInputs_chain
  obtain ⟨entry, member, path, single⟩ := exists_affectedBy_of_isNearest_one rfl isNearest_chain
  rw [← affected_of_analyze analyzed] at member
  have depends : plain.DependsOnChange firstChanged chain "b" :=
    ⟨⟨"b", "a", .imports, "", .strong, false⟩, by decide, rfl, List.mem_cons_self⟩
  refine ⟨report, analyzed, entry, member, path, single, ?_, depends⟩
  exact (analyze_reason_direct analyzed entry member single.ge).1.mpr (.inl (path ▸ depends))

/-- If `b` is changed instead, `a` is said to depend directly on the change, but no dependency leads
from `a` to `b`. -/
theorem exists_reason_of_served :
    ∃ report, plain.analyze secondChanged chainOfSecond CoverageSource.none default =
        .ok report ∧
      ∃ entry ∈ report.affected, entry.path = "a" ∧ 1 ≤ entry.distance ∧
        Impact.SaysDirect entry.reason ∧
        ¬ plain.DependsOnChange secondChanged chainOfSecond "a" := by
  obtain ⟨report, analyzed⟩ := exists_report plain CoverageSource.none default
    (show checkInputs secondChanged chainOfSecond = .ok () by decide)
  obtain ⟨entry, member, path, single⟩ :=
    exists_affectedBy_of_isNearest_one rfl isNearest_chainOfSecond
  have none : ¬ plain.DependsOnChange secondChanged chainOfSecond "a" := by
    unfold DependsOnChange
    decide
  exact ⟨report, analyzed, entry, (affected_of_analyze analyzed).symm ▸ member, path, single.ge,
    (saysDirect_iff_of_affectedBy member).mpr single, none⟩

end Analyzer

end ChangeImpact
