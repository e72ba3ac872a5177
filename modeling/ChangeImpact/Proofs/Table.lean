/-
This file shows what finite maps hold after an entry is added, and what a tally of keys counts.
-/

import ChangeImpact.Table
import Mathlib.Algebra.Order.Ring.Nat
import Mathlib.Data.List.Count
import Mathlib.Data.List.Induction
import Mathlib.Data.List.Nodup

namespace ChangeImpact.Table

variable {κ ν : Type} [Ord κ] [Std.LawfulEqOrd κ]

theorem keys_nodup (table : Table κ ν) : table.keys.Nodup := by
  refine List.pairwise_map.mpr (table.ascending.imp ?_)
  intro left right below same
  simp [same] at below

/-- A key that a map binds occurs in an entry. -/
theorem mem_keys_iff {table : Table κ ν} {key : κ} :
    key ∈ table.keys ↔ (table.get? key).isSome := by
  simp [keys, get?]

variable [Std.TransOrd κ]

/-- Only the key of the new entry is bound to another value than before. -/
theorem get?_insert [DecidableEq κ] (table : Table κ ν) (key other : κ) (value : ν) :
    (table.insert key value).get? other =
      if key = other then some value else table.get? other := by
  obtain ⟨entries, ascending⟩ := table
  change ((place key value entries).find? fun entry => compare entry.1 other == .eq).map Prod.snd =
    if key = other then some value
    else (entries.find? fun entry => compare entry.1 other == .eq).map Prod.snd
  induction entries with
  | nil => by_cases same : key = other <;> simp [place, same]
  | cons head rest ih =>
      unfold place
      split
      next => by_cases same : key = other <;> simp [same]
      next equal =>
        obtain rfl : key = head.1 := Std.LawfulEqCmp.eq_of_compare equal
        by_cases same : head.1 = other <;> simp [same]
      next greater =>
        have apart : key ≠ head.1 := by
          rintro rfl
          simp at greater
        by_cases found : head.1 = other
        · subst found
          simp [apart]
        · simpa [List.find?_cons, found] using ih (List.pairwise_cons.mp ascending).2

omit [Std.LawfulEqOrd κ] in
theorem place_of_forall_lt {key : κ} {entries : List (κ × ν)}
    (above : ∀ entry ∈ entries, compare entry.1 key = .lt) (value : ν) :
    place key value entries = entries ++ [(key, value)] := by
  induction entries with
  | nil => rfl
  | cons head rest ih =>
      obtain ⟨below, restBelow⟩ := List.forall_mem_cons.mp above
      have greater : compare key head.1 = .gt := Std.OrientedCmp.gt_iff_lt.mpr below
      simp [place, greater, ih restBelow]

/-- Ascending entries make up the map of these entries. -/
theorem entries_ofList {entries : List (κ × ν)}
    (ascending : entries.Pairwise fun left right => compare left.1 right.1 = .lt) :
    (ofList entries).entries = entries := by
  induction entries using List.reverseRecOn with
  | nil => rfl
  | append_singleton front last ih =>
      obtain ⟨frontAscending, -, below⟩ := List.pairwise_append.mp ascending
      have appended : ofList (front ++ [last]) = (ofList front).insert last.1 last.2 := by
        simp [ofList]
      rw [appended]
      change place last.1 last.2 (ofList front).entries = front ++ [last]
      rw [ih frontAscending]
      exact place_of_forall_lt (fun entry member => below entry member last (by simp)) last.2

theorem ofList_entries (table : Table κ ν) : ofList table.entries = table :=
  ext (entries_ofList table.ascending)

/-- Every entry of the map of a list is an entry of the list. -/
theorem mem_of_mem_ofList {entries : List (κ × ν)} {entry : κ × ν}
    (member : entry ∈ (ofList entries).entries) : entry ∈ entries := by
  induction entries using List.reverseRecOn with
  | nil => exact member
  | append_singleton front last ih =>
      have appended : ofList (front ++ [last]) = (ofList front).insert last.1 last.2 := by
        simp [ofList]
      rw [appended] at member
      rcases memPlace member with rfl | before
      · simp
      · exact List.mem_append_left _ (ih before)

theorem tally_concat (keys : List κ) (key : κ) :
    tally (keys ++ [key]) = (tally keys).insert key (((tally keys).get? key).getD 0 + 1) := by
  simp [tally]

/-- A tally counts how often each key occurs. -/
theorem get?_tally [DecidableEq κ] (keys : List κ) (key : κ) :
    (tally keys).get? key = if key ∈ keys then some (keys.count key) else none := by
  induction keys using List.reverseRecOn with
  | nil => rfl
  | append_singleton front last ih =>
      rw [tally_concat, get?_insert]
      by_cases same : last = key
      · subst same
        by_cases before : last ∈ front
        · simp [ih, before]
        · simp [ih, before, List.count_eq_zero_of_not_mem before]
      · have other : key ≠ last := fun equal => same equal.symm
        simp [ih, same, other]

theorem mem_keys_tally [DecidableEq κ] {keys : List κ} {key : κ} :
    key ∈ (tally keys).keys ↔ key ∈ keys := by
  rw [mem_keys_iff, get?_tally]
  split <;> simp_all

/-- A new entry adds its value in place of what its key was bound to before. -/
theorem sum_values_insert (table : Table κ Nat) (key : κ) (value : Nat) :
    (table.insert key value).values.sum + (table.get? key).getD 0 = table.values.sum + value := by
  obtain ⟨entries, ascending⟩ := table
  change ((place key value entries).map Prod.snd).sum +
    ((entries.find? fun entry => compare entry.1 key == .eq).map Prod.snd).getD 0 =
      (entries.map Prod.snd).sum + value
  induction entries with
  | nil => simp [place]
  | cons head rest ih =>
      obtain ⟨below, restAscending⟩ := List.pairwise_cons.mp ascending
      unfold place
      split
      next smaller =>
        -- The keys ascend, so that nothing after the first entry can have the smaller key either.
        have absent : ∀ entry ∈ head :: rest, ¬ (compare entry.1 key == .eq) = true := by
          intro entry member equal
          have same : entry.1 = key := Std.LawfulEqCmp.eq_of_compare (beq_iff_eq.mp equal)
          rcases List.mem_cons.mp member with rfl | later
          · simp [same] at smaller
          · simpa [same] using Std.TransCmp.lt_trans smaller (below entry later)
        rw [List.find?_eq_none.mpr absent]
        simp [Nat.add_comm]
      next equal =>
        obtain rfl : key = head.1 := Std.LawfulEqCmp.eq_of_compare equal
        simp
        omega
      next greater =>
        have apart : ¬ (compare head.1 key == .eq) = true := by
          intro equal
          have same : head.1 = key := Std.LawfulEqCmp.eq_of_compare (beq_iff_eq.mp equal)
          simp [same] at greater
        have step := ih restAscending
        have skipped : ((head :: rest).find? fun entry => compare entry.1 key == .eq) =
            rest.find? fun entry => compare entry.1 key == .eq := List.find?_cons_of_neg apart
        rw [skipped, List.map_cons, List.map_cons, List.sum_cons, List.sum_cons]
        omega

/-- The counts of a tally add up to the number of keys. -/
theorem sum_values_tally (keys : List κ) : (tally keys).values.sum = keys.length := by
  induction keys using List.reverseRecOn with
  | nil => rfl
  | append_singleton front last ih =>
      have step := sum_values_insert (tally front) last (((tally front).get? last).getD 0 + 1)
      rw [tally_concat, List.length_append, List.length_singleton]
      omega

end ChangeImpact.Table
