/-
This file shows that the summary of an analysis counts what was found, each count in its own way.
-/

import ChangeImpact.Proofs.Distinct
import ChangeImpact.Proofs.Table
import ChangeImpact.Report.Summary
import Mathlib.Algebra.Order.Ring.Nat
import Mathlib.Data.List.MinMax
import Mathlib.Order.Bounds.Basic

namespace ChangeImpact

/-- The largest of some counts, found from zero on, is one of them. -/
theorem isGreatest_foldl_max {counts : List Nat} (nonempty : counts ≠ []) :
    IsGreatest {count | count ∈ counts} (counts.foldl max 0) := by
  obtain ⟨largest, found⟩ := Option.isSome_iff_exists.mp (List.isSome_max?_of_ne_nil nonempty)
  obtain ⟨member, bound⟩ := List.max?_eq_some_iff.mp found
  rw [List.foldl_max, found, Option.getD_some, Nat.zero_max]
  exact ⟨member, fun count isCount => bound count isCount⟩

namespace Summary

variable {α : Type} [Scalar α] (affected : List (AffectedModule α)) (paths : List (ImpactPath α))
  (overall : OverallRisk)

/-- Each module is at exactly one level of risk. -/
theorem sum_levels :
    (ofAnalysis affected paths overall).highRisk + (ofAnalysis affected paths overall).mediumRisk +
      (ofAnalysis affected paths overall).lowRisk + (ofAnalysis affected paths overall).minimalRisk =
      affected.length := by
  simp only [ofAnalysis]
  induction affected with
  | nil => rfl
  | cons entry rest ih =>
      cases level : entry.risk <;> simp [level] <;> omega

/-- Each module is counted for one language. -/
theorem sum_languages : (ofAnalysis affected paths overall).languages.values.sum =
    affected.length := by
  rw [ofAnalysis, Table.sum_values_tally, List.length_map]

/-- Each module is counted for one depth. -/
theorem sum_depths : (ofAnalysis affected paths overall).depths.values.sum = affected.length := by
  rw [ofAnalysis, Table.sum_values_tally, List.length_map]

/-- The depths are the distances of the modules, and the largest depth is one of them. -/
theorem isGreatest_maxDepth (nonempty : affected ≠ []) :
    IsGreatest {depth | depth ∈ (ofAnalysis affected paths overall).depths.keys}
      (ofAnalysis affected paths overall).maxDepth := by
  have distances : affected.map AffectedModule.distance ≠ [] := by simpa using nonempty
  simpa only [ofAnalysis, Table.mem_keys_tally] using isGreatest_foldl_max distances

/-- At each depth the modules of that distance are counted. -/
theorem get?_depths {entry : AffectedModule α} (member : entry ∈ affected) :
    (ofAnalysis affected paths overall).depths.get? entry.distance =
      some (affected.countP fun other => other.distance == entry.distance) := by
  rw [ofAnalysis, Table.get?_tally, if_pos (List.mem_map_of_mem member), List.count,
    List.countP_map]
  rfl

/-- Every language that is known is counted under its own name, and so is no other, unless it is
called like the unknown ones. -/
theorem mem_languages_iff (named : ∀ entry ∈ affected, entry.language ≠ "unknown")
    {language : String} :
    language ∈ (ofAnalysis affected paths overall).languages.keys.filter (· ≠ "unknown") ↔
      language ∈ (affected.map AffectedModule.language).filter (· ≠ "") := by
  simp only [ofAnalysis, List.mem_filter, Table.mem_keys_tally, List.mem_map, decide_eq_true_eq]
  constructor
  · rintro ⟨⟨entry, member, rfl⟩, isKnown⟩
    by_cases nameless : entry.language = ""
    · simp [languageName, nameless] at isKnown
    · simp only [languageName, if_neg nameless]
      exact ⟨⟨entry, member, rfl⟩, nameless⟩
  · rintro ⟨⟨entry, member, rfl⟩, nameless⟩
    exact ⟨⟨entry, member, if_neg nameless⟩, named entry member⟩

/-- A change crosses languages exactly if several known ones are counted. -/
theorem crossLanguage_iff (named : ∀ entry ∈ affected, entry.language ≠ "unknown") :
    (ofAnalysis affected paths overall).crossLanguage = true ↔
      2 ≤ ((ofAnalysis affected paths overall).languages.keys.filter (· ≠ "unknown")).length := by
  have counted : ((ofAnalysis affected paths overall).languages.keys.filter (· ≠ "unknown")).Perm
      (distinct ((affected.map AffectedModule.language).filter (· ≠ ""))) := by
    refine (List.perm_ext_iff_of_nodup (Table.keys_nodup _ |>.filter _)
      (distinct_nodup _)).mpr fun language => ?_
    rw [mem_languages_iff affected paths overall named, mem_distinct]
  rw [counted.length_eq]
  simp [ofAnalysis, RiskAssessment.languageCount, Nat.succ_le_iff]

end Summary

end ChangeImpact
