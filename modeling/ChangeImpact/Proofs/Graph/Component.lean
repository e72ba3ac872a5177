/-
This file defines the strongly connected components of some modules and what makes one cyclic.
-/

import Mathlib.Data.List.Sort
import Mathlib.Data.String.Basic
import Mathlib.Logic.Relation

namespace ChangeImpact

open Relation

/-- Two modules are mutual if steps lead from each to the other. -/
def Mutual (step : String → String → Prop) (path other : String) : Prop :=
  ReflTransGen step path other ∧ ReflTransGen step other path

/-- A component holds all modules that are mutual with any of its own. -/
structure IsComponent (step : String → String → Prop) (modules part : List String) : Prop where
  nonempty : part ≠ []
  among : ∀ path ∈ part, path ∈ modules
  mem_iff : ∀ path ∈ part, ∀ other, other ∈ part ↔ other ∈ modules ∧ Mutual step path other

/-- A component is cyclic if it has several modules or one with a step to itself. -/
def IsCyclic (step : String → String → Prop) (part : List String) : Prop :=
  1 < part.length ∨ ∃ path ∈ part, step path path

/-- These parts are the components of some modules, listed once each in any order. -/
structure Splits (step : String → String → Prop) (modules : List String)
    (parts : List (List String)) : Prop where
  isComponent : ∀ part ∈ parts, IsComponent step modules part
  nodup : parts.flatten.Nodup
  complete : ∀ path ∈ modules, path ∈ parts.flatten

variable {step : String → String → Prop} {modules part other : List String} {path target : String}

@[simp] theorem Mutual.refl (step : String → String → Prop) (path : String) :
    Mutual step path path :=
  ⟨.refl, .refl⟩

theorem Mutual.symm (mutually : Mutual step path target) : Mutual step target path :=
  ⟨mutually.2, mutually.1⟩

theorem Mutual.trans {middle : String} (first : Mutual step path middle)
    (second : Mutual step middle target) : Mutual step path target :=
  ⟨first.1.trans second.1, second.2.trans first.2⟩

/-- Only the modules of a component matter, not their order. -/
theorem IsComponent.congr (isComponent : IsComponent step modules part)
    (same : ∀ path, path ∈ part ↔ path ∈ other) : IsComponent step modules other where
  nonempty := by
    obtain ⟨path, member⟩ := List.exists_mem_of_ne_nil _ isComponent.nonempty
    exact List.ne_nil_of_mem ((same path).mp member)
  among := fun path member => isComponent.among path ((same path).mpr member)
  mem_iff := fun path member target =>
    (same target).symm.trans (isComponent.mem_iff path ((same path).mpr member) target)

/-- Neither does the order or the repetition of the modules that are split. -/
theorem isComponent_congr {others : List String} (same : ∀ path, path ∈ others ↔ path ∈ modules) :
    IsComponent step others part ↔ IsComponent step modules part := by
  constructor <;> rintro ⟨nonempty, among, mem_iff⟩ <;> refine ⟨nonempty, ?_, ?_⟩
  · exact fun path member => (same path).mp (among path member)
  · intro path member target
    rw [mem_iff path member, same]
  · exact fun path member => (same path).mpr (among path member)
  · intro path member target
    rw [mem_iff path member, same]

/-- Two components with a common module have the same modules. -/
theorem IsComponent.mem_iff_mem (isComponent : IsComponent step modules part)
    (another : IsComponent step modules other) (left : path ∈ part) (right : path ∈ other) :
    target ∈ part ↔ target ∈ other :=
  (isComponent.mem_iff path left target).trans (another.mem_iff path right target).symm

/-- Two sorted components with a common module are the same. -/
theorem IsComponent.eq_of_mem (isComponent : IsComponent step modules part)
    (another : IsComponent step modules other) (sorted : part.SortedLT)
    (isSorted : other.SortedLT) (left : path ∈ part) (right : path ∈ other) : part = other :=
  sorted.pairwise.eq_of_mem_iff isSorted.pairwise fun _ =>
    isComponent.mem_iff_mem another left right

/-- The modules that are mutual with a given one form a component. -/
theorem isComponent_of_mem_iff (isModule : path ∈ modules)
    (mem_iff : ∀ target, target ∈ part ↔ target ∈ modules ∧ Mutual step path target) :
    IsComponent step modules part where
  nonempty := List.ne_nil_of_mem ((mem_iff path).mpr ⟨isModule, .refl step path⟩)
  among := fun target member => ((mem_iff target).mp member).1
  mem_iff := by
    intro middle member target
    have mutually := ((mem_iff middle).mp member).2
    rw [mem_iff]
    exact and_congr_right fun _ => ⟨mutually.symm.trans, mutually.trans⟩

/-- From each module of a cyclic component steps lead back to it. -/
theorem IsComponent.transGen_self (isComponent : IsComponent step modules part)
    (nodup : part.Nodup) (cyclic : IsCyclic step part) (member : path ∈ part) :
    TransGen step path path := by
  rcases cyclic with several | ⟨middle, isMiddle, itself⟩
  · obtain ⟨target, isTarget, apart⟩ : ∃ target ∈ part, target ≠ path := by
      by_contra none
      simp only [not_exists, not_and, not_not] at none
      have within : part ⊆ [path] := fun target isTarget =>
        List.mem_singleton.mpr (none target isTarget)
      exact absurd (nodup.length_le_of_subset within) (Nat.not_le.mpr several)
    obtain ⟨away, back⟩ := ((isComponent.mem_iff path member target).mp isTarget).2
    rcases reflTransGen_iff_eq_or_transGen.mp away with same | walk
    · exact absurd same apart
    · exact walk.trans_left back
  · obtain ⟨away, back⟩ := ((isComponent.mem_iff path member middle).mp isMiddle).2
    exact (TransGen.tail' away itself).trans_left back

/-- If steps lead from a module back to it, then its component is cyclic. -/
theorem IsComponent.isCyclic (isComponent : IsComponent step modules part)
    (within : ∀ path target, step path target → target ∈ modules) (member : path ∈ part)
    (back : TransGen step path path) : IsCyclic step part := by
  obtain ⟨middle, first, rest⟩ := TransGen.head'_iff.mp back
  have isMiddle : middle ∈ part := (isComponent.mem_iff path member middle).mpr
    ⟨within path middle first, .single first, rest⟩
  by_cases same : middle = path
  · exact .inr ⟨path, member, same ▸ first⟩
  · refine .inl (Nat.lt_of_not_le fun single => same ?_)
    match part, single, member, isMiddle with
    | [only], _, member, isMiddle =>
        exact (List.mem_singleton.mp isMiddle).trans (List.mem_singleton.mp member).symm

end ChangeImpact
