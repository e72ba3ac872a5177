/-
This file shows which analyses fail, and that all others give a report.
-/

import ChangeImpact.Proofs.Analysis.Connection

namespace ChangeImpact.Analyzer

/-- A change is refused if it is empty, if the snapshot is empty, or if the snapshot does not know
a changed module. -/
def Refuses (change : ChangeSet) (snapshot : Snapshot) : Prop :=
  change.modules = [] ∨
    (snapshot.dependencies = [] ∧ snapshot.modules.isEmpty = true) ∨
    ∃ path ∈ change.modules, snapshot.modules.contains path = false

variable {α : Type} [Scalar α] {analyzer : Analyzer α} {change : ChangeSet} {snapshot : Snapshot}
  {coverage : CoverageSource α} {now : Timestamp}

/-- The check lets through all that is not refused. -/
theorem checkInputs_eq_ok_iff :
    checkInputs change snapshot = .ok () ↔ ¬ Refuses change snapshot := by
  unfold checkInputs Refuses
  split_ifs with noChange empty
  · simp [List.isEmpty_iff.mp noChange]
  · simp_all [Snapshot.isEmpty]
  · cases unknown : change.modules.find? fun path => !snapshot.modules.contains path with
    | none => simp_all [Snapshot.isEmpty, List.find?_eq_none]
    | some path =>
        have member := List.mem_of_find?_eq_some unknown
        have absent := List.find?_some unknown
        refine iff_of_false (by simp) fun passes => passes (.inr (.inr ⟨path, member, ?_⟩))
        simpa using absent

/-- An empty snapshot knows no module, so that only the modules matter for what is refused. -/
theorem refuses_iff : Refuses change snapshot ↔
    change.modules = [] ∨ ∃ path ∈ change.modules, snapshot.modules.contains path = false := by
  refine ⟨?_, Or.imp_right .inr⟩
  rintro (noChange | ⟨_, isEmpty⟩ | unknown)
  · exact .inl noChange
  · refine or_iff_not_imp_left.mpr fun someChange => ?_
    obtain ⟨path, member⟩ := List.exists_mem_of_ne_nil _ someChange
    have noEntries := List.isEmpty_iff.mp isEmpty
    exact ⟨path, member, by simp [Table.contains, Table.get?, noEntries]⟩
  · exact .inr unknown

/-- Only the sets of the dependencies and of the changed modules matter for what is refused. -/
theorem refuses_congr {swapped : ChangeSet} {reordered : Snapshot}
    (sameEdges : ∀ edge, edge ∈ reordered.dependencies ↔ edge ∈ snapshot.dependencies)
    (sameModules : ∀ path, path ∈ swapped.modules ↔ path ∈ change.modules)
    (known : reordered.modules = snapshot.modules) :
    Refuses swapped reordered ↔ Refuses change snapshot := by
  simp only [Refuses, List.eq_nil_iff_forall_not_mem, sameEdges, sameModules, known]

variable [WholeText α]

/-- Whatever passes the check is analysed and gives a report. -/
theorem exists_report (analyzer : Analyzer α) (coverage : CoverageSource α) (now : Timestamp)
    (checked : checkInputs change snapshot = .ok ()) :
    ∃ report, analyzer.analyze change snapshot coverage now = .ok report := by
  obtain ⟨described, done, _⟩ := exists_impactPaths analyzer snapshot (distinct change.modules)
    (analyzer.affectedBy change snapshot coverage) (analyzer.cyclesBy change snapshot coverage)
  exact ⟨_, analyze_eq_ok_iff.mpr ⟨checked, _, done, rfl⟩⟩

/-- What is analysed is a change of some module. -/
theorem exists_changed {report : Report α}
    (analyzed : analyzer.analyze change snapshot coverage now = .ok report) :
    ∃ path, path ∈ change.modules := by
  have passes := checkInputs_eq_ok_iff.mp (analyze_eq_ok_iff.mp analyzed).1
  rw [refuses_iff, not_or] at passes
  exact List.exists_mem_of_ne_nil _ passes.1

/-- What does not pass the check is refused as an invalid input. -/
theorem analyze_of_checkInputs_error {error : InputError}
    (refused : checkInputs change snapshot = .error error) :
    analyzer.analyze change snapshot coverage now = .error (.input error) := by
  rw [analyze_eq, refused]

/-- An analysis fails exactly if its inputs are refused, and it names them as the cause. Otherwise
it gives a report, for every path that is traced can be weighed. -/
theorem analyze_fails_iff_refuses (analyzer : Analyzer α) (change : ChangeSet) (snapshot : Snapshot)
    (coverage : CoverageSource α) (now : Timestamp) :
    ((∃ error, analyzer.analyze change snapshot coverage now = .error error) ↔
      Refuses change snapshot) ∧
    (∀ error, analyzer.analyze change snapshot coverage now = .error error →
      ∃ cause, error = .input cause) ∧
    (¬ Refuses change snapshot →
      ∃ report, analyzer.analyze change snapshot coverage now = .ok report) ∧
    (∀ limit pairs,
      ∀ traced ∈ analyzer.connections (analyzer.graph snapshot) limit pairs, ∃ weight : α,
        (analyzer.graph snapshot).pathWeight traced.2.2.1 traced.2.2.2 = .ok weight) := by
  have gives (passes : ¬ Refuses change snapshot) :
      ∃ report, analyzer.analyze change snapshot coverage now = .ok report :=
    exists_report analyzer coverage now (checkInputs_eq_ok_iff.mpr passes)
  have fails (refused : Refuses change snapshot) :
      ∃ cause, analyzer.analyze change snapshot coverage now = .error (.input cause) := by
    cases checked : checkInputs change snapshot with
    | ok _ => exact absurd refused (checkInputs_eq_ok_iff.mp checked)
    | error cause => exact ⟨cause, analyze_of_checkInputs_error checked⟩
  have refused {error : Error α}
      (failed : analyzer.analyze change snapshot coverage now = .error error) :
      Refuses change snapshot := by
    by_contra passes
    obtain ⟨report, analyzed⟩ := gives passes
    rw [analyzed] at failed
    cases failed
  refine ⟨⟨fun ⟨_, failed⟩ => refused failed, fun isRefused => ?_⟩, ?_, gives, ?_⟩
  · obtain ⟨cause, failed⟩ := fails isRefused
    exact ⟨_, failed⟩
  · intro error failed
    obtain ⟨cause, again⟩ := fails (refused failed)
    rw [again] at failed
    exact ⟨cause, (Except.error.inj failed).symm⟩
  · rintro limit pairs ⟨source, affected, path, direction⟩ member
    exact exists_weight_of_connection? (connection?_of_mem member)

end ChangeImpact.Analyzer
