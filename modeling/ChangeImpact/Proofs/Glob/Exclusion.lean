/-
This file shows which pattern is reported for a module if all patterns are plain.
-/

import ChangeImpact.Glob.Exclusion
import ChangeImpact.Proofs.Glob.Pattern
import Mathlib

namespace ChangeImpact

namespace Glob

/-- This is the glob of a plain pattern. -/
def ofPlain (pattern : String) : Glob :=
  ⟨pattern, pattern.toList.map Piece.ofPlain⟩

theorem ofPattern?_plain {pattern : String} (plain : IsPlain pattern.toList) :
    ofPattern? pattern = .ok (ofPlain pattern) := by
  rw [ofPattern?, pieces?_plain plain]
  rfl

theorem covers_ofPlain (pattern path : String) :
    (ofPlain pattern).covers path = decide (CoversByParts pattern.toList (bytes path)) := by
  rw [Bool.eq_iff_iff, decide_eq_true_iff, ← madeOf_keeps_iff]
  exact matchesBytes_map_ofPlain_iff

end Glob

namespace Exclusion

open Glob

variable {patterns : List String}

theorem ofPatterns?_plain (plain : ∀ pattern ∈ patterns, IsPlain pattern.toList) :
    ofPatterns? patterns = .ok ⟨patterns.map Glob.ofPlain⟩ := by
  have read : patterns.mapM (fun pattern => (Glob.ofPattern? pattern).mapError
      (Exclusion.Error.mk pattern)) = .ok (patterns.map Glob.ofPlain) := by
    induction patterns with
    | nil => rfl
    | cons pattern patterns ih =>
        obtain ⟨first, others⟩ := List.forall_mem_cons.mp plain
        rw [List.mapM_cons, ofPattern?_plain first, ih others]
        rfl
  rw [ofPatterns?, read]
  rfl

/-- The first pattern that covers a module part by part is the one that is reported. However its
stars and question marks share out the module, none of them takes a slash. -/
theorem matchingPattern?_plain (plain : ∀ pattern ∈ patterns, IsPlain pattern.toList) :
    ∃ exclusion, ofPatterns? patterns = .ok exclusion ∧ ∀ path,
      exclusion.matchingPattern? path =
        patterns.find? (fun pattern => CoversByParts pattern.toList (bytes path)) ∧
      ∀ pattern runs, exclusion.matchingPattern? path = some pattern →
        List.Forall₂ StandsFor pattern.toList runs → runs.flatten = bytes path →
        List.Forall₂ Keeps pattern.toList runs := by
  refine ⟨_, ofPatterns?_plain plain, fun path => ?_⟩
  have first : Exclusion.matchingPattern? ⟨patterns.map Glob.ofPlain⟩ path =
      patterns.find? (fun pattern => CoversByParts pattern.toList (bytes path)) := by
    have unchanged : Glob.pattern ∘ Glob.ofPlain = id := rfl
    rw [matchingPattern?, List.find?_map, Option.map_map, unchanged, Option.map_id]
    exact congrArg (List.find? · patterns) (funext fun pattern => covers_ofPlain pattern path)
  refine ⟨first, fun pattern runs reported stands whole => ?_⟩
  rw [first] at reported
  have covers := List.find?_some reported
  rw [decide_eq_true_iff, ← whole] at covers
  exact covers.keeps stands

theorem matchingPattern?_plain_mock_service :
    (∀ pattern ∈ ["mock_*", "*_service"], IsPlain pattern.toList) ∧
      ∃ exclusion, ofPatterns? ["mock_*", "*_service"] = .ok exclusion ∧
        exclusion.matchingPattern? "mock_service" = some "mock_*" ∧
        exclusion.matchingPattern? "user_service" = some "*_service" ∧
        exclusion.matchingPattern? "core/mock_service" = none := by
  have plain : ∀ pattern ∈ ["mock_*", "*_service"], IsPlain pattern.toList := by decide +kernel
  obtain ⟨exclusion, read, first⟩ := matchingPattern?_plain plain
  refine ⟨plain, exclusion, read, ?_, ?_, ?_⟩
  · rw [(first _).1]
    cbv
  · rw [(first _).1]
    cbv
  · rw [(first _).1]
    cbv

end Exclusion

end ChangeImpact
