/-
This file shows that the modules which are left out of an analysis are those that an exclude pattern
covers, and which modules that lead back up at their end are exceptions.
-/

import ChangeImpact.Proofs.Analysis.Connection
import ChangeImpact.Proofs.Glob.Shape
import Mathlib

namespace ChangeImpact

namespace Exclusion

variable {patterns : List String} {exclusion : Exclusion} {path pattern : String}

theorem isSome_matchingPattern?_iff :
    (exclusion.matchingPattern? path).isSome = true ↔
      ∃ glob ∈ exclusion.globs, glob.covers path = true := by
  rw [matchingPattern?, Option.isSome_map, List.find?_isSome]

theorem excludes_iff :
    exclusion.excludes path = true ↔
      ∃ glob ∈ exclusion.globs, glob.covers path = true ∧
        (Text.lastSegment path = ".." → glob.shape = .whole) := by
  simp only [excludes, List.any_eq_true, Glob.excludes_iff]

theorem isSome_matchingPattern?_of_excludes (isExcluded : exclusion.excludes path = true) :
    (exclusion.matchingPattern? path).isSome = true := by
  obtain ⟨glob, member, covers, _⟩ := excludes_iff.mp isExcluded
  exact isSome_matchingPattern?_iff.mpr ⟨glob, member, covers⟩

/-- Unless a module leads back up at its end, it is left out as soon as a pattern covers it. -/
theorem excludes_eq_isSome_matchingPattern? (named : Text.lastSegment path ≠ "..") :
    exclusion.excludes path = (exclusion.matchingPattern? path).isSome := by
  rw [Bool.eq_iff_iff]
  refine ⟨isSome_matchingPattern?_of_excludes, fun isCovered => ?_⟩
  obtain ⟨glob, member, covers⟩ := isSome_matchingPattern?_iff.mp isCovered
  exact excludes_iff.mpr ⟨glob, member, covers, fun leadsUp => absurd leadsUp named⟩

/-- A glob keeps the pattern that it was read from. -/
theorem pattern_of_ofPattern? {glob : Glob}
    (read : (Glob.ofPattern? pattern).mapError (Error.mk pattern) = .ok glob) :
    glob.pattern = pattern := by
  rw [Glob.ofPattern?] at read
  cases pieces : Glob.pieces? pattern.toList with
  | error fault =>
      rw [pieces] at read
      cases read
  | ok pieces =>
      rw [pieces] at read
      cases read
      rfl

/-- The pattern that is reported is one of those that were read. -/
theorem mem_of_matchingPattern? (read : ofPatterns? patterns = .ok exclusion)
    (found : exclusion.matchingPattern? path = some pattern) : pattern ∈ patterns := by
  obtain ⟨glob, first, rfl⟩ := Option.map_eq_some_iff.mp found
  have member := List.mem_of_find?_eq_some first
  rw [ofPatterns?] at read
  cases globs : patterns.mapM fun pattern =>
      (Glob.ofPattern? pattern).mapError (Error.mk pattern) with
  | error error =>
      rw [globs] at read
      cases read
  | ok globs =>
      rw [globs] at read
      cases read
      obtain ⟨pattern, isPattern, own⟩ := Analyzer.exists_of_mem_mapM globs member
      rwa [pattern_of_ofPattern? own]

end Exclusion

/-- The compiled patterns of a valid configuration are those of its texts. -/
theorem Config.ofPatterns?_of_exclusion? {α : Type} [Scalar α] {config : Config α}
    {exclusion : Exclusion} (isValid : config.exclusion? = .ok exclusion) :
    Exclusion.ofPatterns? config.excludePatterns = .ok exclusion := by
  simp only [exclusion?] at isValid
  split_ifs at isValid
  cases read : Exclusion.ofPatterns? config.excludePatterns with
  | error error =>
      rw [read] at isValid
      cases isValid
  | ok compiled =>
      rw [read] at isValid
      cases isValid
      rfl

namespace Analyzer

variable {α : Type} [Scalar α]

/-- A module that is left out is covered by a pattern, and the converse holds unless the module
leads back up at its end. Then it is left out only by patterns that are tested as a whole. -/
theorem shouldExclude_tells_excludes {patterns : List String} {exclusion : Exclusion}
    (read : Exclusion.ofPatterns? patterns = .ok exclusion) (path : String) :
    (exclusion.excludes path = true →
      ∃ pattern ∈ patterns, exclusion.matchingPattern? path = some pattern) ∧
    (Text.lastSegment path ≠ ".." →
      exclusion.excludes path = (exclusion.matchingPattern? path).isSome) ∧
    (Text.lastSegment path = ".." →
      (exclusion.excludes path = true ↔
        ∃ glob ∈ exclusion.globs, glob.covers path = true ∧ glob.shape = .whole)) ∧
    ∀ analyzer : Analyzer α, analyzer.config.excludePatterns = patterns →
      analyzer.exclusion = exclusion ∧
      (analyzer.exclusion.excludes path = true → analyzer.shouldExclude path = true) ∧
      (Text.lastSegment path ≠ ".." →
        analyzer.shouldExclude path = analyzer.exclusion.excludes path) := by
  refine ⟨fun isExcluded => ?_, Exclusion.excludes_eq_isSome_matchingPattern?,
    fun leadsUp => ?_, fun analyzer configured => ⟨?_, ?_, fun named => ?_⟩⟩
  · obtain ⟨pattern, found⟩ :=
      Option.isSome_iff_exists.mp (Exclusion.isSome_matchingPattern?_of_excludes isExcluded)
    exact ⟨pattern, Exclusion.mem_of_matchingPattern? read found, found⟩
  · simp only [Exclusion.excludes_iff, leadsUp, forall_const]
  · have own := Config.ofPatterns?_of_exclusion? analyzer.isValid
    rw [configured, read] at own
    exact (Except.ok.inj own).symm
  · exact Exclusion.isSome_matchingPattern?_of_excludes
  · exact (Exclusion.excludes_eq_isSome_matchingPattern? named).symm

section Sample

/-- This analyzer excludes every file `c` and every step back up from a directory. -/
def cautious : Analyzer Rat where
  config := { plain.config with excludePatterns := ["**/c", "*/.."] }
  exclusion :=
    ⟨[⟨"**/c", [.leadingDirectories, .literal 'c']⟩,
      ⟨"*/..", [.star, .literal '/', .literal '.', .literal '.']⟩]⟩
  isValid := by with_unfolding_all rfl

/-- The module `b/c` is left out and reported as such. The module `b/..` is covered as well, but it
is not left out. -/
theorem shouldExclude_tells_excludes_back_up :
    Exclusion.ofPatterns? ["**/c", "*/.."] = .ok cautious.exclusion ∧
    (cautious.shouldExclude "b/c" = true ∧ cautious.exclusion.excludes "b/c" = true) ∧
    cautious.shouldExclude "b/.." = true ∧ cautious.exclusion.excludes "b/.." = false := by
  have read : Exclusion.ofPatterns? ["**/c", "*/.."] = .ok cautious.exclusion := by
    with_unfolding_all rfl
  have named : Text.lastSegment "b/c" ≠ ".." := by decide +kernel
  have isExcluded : cautious.exclusion.excludes "b/c" = true := by decide +kernel
  obtain ⟨_, _, _, told⟩ := @shouldExclude_tells_excludes Rat _ _ _ read "b/c"
  obtain ⟨_, _, onlyWhole, _⟩ := @shouldExclude_tells_excludes Rat _ _ _ read "b/.."
  refine ⟨read, ⟨?_, isExcluded⟩, by cbv, ?_⟩
  · rw [(told cautious rfl).2.2 named, isExcluded]
  · have inParts : ∀ glob ∈ cautious.exclusion.globs, glob.shape ≠ .whole := by decide +kernel
    rw [← Bool.not_eq_true, onlyWhole (by decide +kernel)]
    rintro ⟨glob, member, _, isWhole⟩
    exact inParts glob member isWhole

end Sample

end Analyzer

end ChangeImpact
