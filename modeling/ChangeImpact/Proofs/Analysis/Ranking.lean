/-
This file shows that the order of affected modules leaves no choice: modules with distinct paths can
be sorted in one way only.
-/

import ChangeImpact.Impact.Module
import ChangeImpact.Proofs.Scalar
import Mathlib.Data.List.Nodup

namespace ChangeImpact.AffectedModule

variable {α : Type} [Scalar α]

theorem sort_perm (affected : List (AffectedModule α)) : (sort affected).Perm affected :=
  List.mergeSort_perm _ _

/-- A view that keeps the scores, distances and paths can be taken before or after the list is
sorted. -/
theorem map_sort {view : AffectedModule α → AffectedModule α}
    (keeps : ∀ left right, order (view left) (view right) = order left right)
    (affected : List (AffectedModule α)) : (sort affected).map view = sort (affected.map view) :=
  List.map_mergeSort fun left _ right _ => by rw [keeps]

section Laws

variable [Std.TransCmp (Scalar.order : α → α → Ordering)]

/-- This order compares modules by their scores alone, downwards. -/
def scoreOrder (left right : AffectedModule α) : Ordering :=
  Scalar.order right.score left.score

instance : Std.TransCmp (scoreOrder : AffectedModule α → AffectedModule α → Ordering) where
  eq_swap {left right} :=
    show Scalar.order right.score left.score = (Scalar.order left.score right.score).swap from
      Std.OrientedCmp.eq_swap
  isLE_trans {left middle right} first second :=
    show (Scalar.order right.score left.score).isLE from
      Std.TransCmp.isLE_trans (show (Scalar.order right.score middle.score).isLE from second) first

/-- Modules are compared by their scores first, then by their distances and paths. -/
instance : Std.TransCmp (order : AffectedModule α → AffectedModule α → Ordering) :=
  inferInstanceAs (Std.TransCmp (compareLex (scoreOrder : AffectedModule α → _ → Ordering)
    (compareLex (compareOn distance) (compareOn path))))

theorem isLE_trans (left middle right : AffectedModule α) (first : (order left middle).isLE)
    (second : (order middle right).isLE) : (order left right).isLE :=
  Std.TransCmp.isLE_trans first second

theorem isLE_total (left right : AffectedModule α) :
    ((order left right).isLE || (order right left).isLE) = true :=
  Scalar.isLE_or_isLE left right

/-- Modules that neither comes before are modules of one path. -/
theorem path_eq_of_isLE {left right : AffectedModule α} (before : (order left right).isLE)
    (after : (order right left).isLE) : left.path = right.path := by
  have same : order left right = .eq := Std.OrientedCmp.isLE_antisymm before after
  simp only [order, Ordering.then_eq_eq] at same
  exact Std.LawfulEqCmp.eq_of_compare same.2.2

theorem pairwise_sort (affected : List (AffectedModule α)) :
    (sort affected).Pairwise fun left right => (order left right).isLE :=
  List.pairwise_mergeSort isLE_trans isLE_total affected

variable {affected others : List (AffectedModule α)}

/-- Two lists of the same modules in order are the same, as far as the paths are distinct. -/
theorem eq_of_perm_of_pairwise (nodup : (affected.map path).Nodup)
    (ordered : affected.Pairwise fun left right => (order left right).isLE)
    (othersOrdered : others.Pairwise fun left right => (order left right).isLE)
    (same : affected.Perm others) : affected = others := by
  refine same.eq_of_pairwise (fun left right isLeft isRight before after => ?_) ordered
    othersOrdered
  exact List.inj_on_of_nodup_map nodup isLeft (same.mem_iff.mpr isRight)
    (path_eq_of_isLE before after)

/-- The given order of the modules makes no difference to the sorted list. -/
theorem sort_eq_of_perm (nodup : (affected.map path).Nodup) (same : affected.Perm others) :
    sort affected = sort others := by
  refine eq_of_perm_of_pairwise ?_ (pairwise_sort affected) (pairwise_sort others) ?_
  · exact ((sort_perm affected).map path).nodup_iff.mpr nodup
  · exact ((sort_perm affected).trans same).trans (sort_perm others).symm

/-- Modules can be left out before or after the list is sorted. -/
theorem filter_sort (nodup : (affected.map path).Nodup) (keep : AffectedModule α → Bool) :
    (sort affected).filter keep = sort (affected.filter keep) := by
  refine eq_of_perm_of_pairwise ?_ ((pairwise_sort affected).filter keep)
    (pairwise_sort (affected.filter keep)) ?_
  · have distinct := ((sort_perm affected).map path).nodup_iff.mpr nodup
    exact distinct.sublist (List.filter_sublist.map path)
  · exact ((sort_perm affected).filter keep).trans (sort_perm _).symm

end Laws

end ChangeImpact.AffectedModule
