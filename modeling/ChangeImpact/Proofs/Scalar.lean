/-
This file shows that doubles and exact numbers are totally ordered, and what bounds and powers of
exact numbers are.
-/

import ChangeImpact.Scalar
import Mathlib.Algebra.Order.BigOperators.Group.List
import Mathlib.Algebra.Order.Field.Basic
import Mathlib.Algebra.Order.Ring.Rat
import Mathlib.Order.Interval.Set.Defs
import Mathlib.Order.Defs.LinearOrder
import Mathlib.Tactic.NormNum

namespace ChangeImpact.Scalar

/-- Doubles are compared by their ranks. -/
instance : Std.TransCmp (order : Float → Float → Ordering) :=
  inferInstanceAs (Std.TransCmp (compareOn fun value : Float =>
    Decimal.Binary64.rank value.toBits.toNat))

/-- Exact numbers are compared by their usual order. -/
instance : Std.TransCmp (order : Rat → Rat → Ordering) :=
  Std.TransOrd.compareOfLessAndEq_of_antisymm_of_trans_of_total_of_not_le
    le_antisymm le_trans le_total not_le

/-- Of two compared items one comes first, or neither does. -/
theorem isLE_or_isLE {β : Type} {compare : β → β → Ordering} [Std.OrientedCmp compare]
    (left right : β) : ((compare left right).isLE || (compare right left).isLE) = true := by
  have swapped : compare right left = (compare left right).swap := Std.OrientedCmp.eq_swap
  rw [swapped]
  cases compare left right <;> rfl

theorem cap_eq_min (value limit : Rat) : cap value limit = min value limit :=
  (min_def_lt value limit).symm

theorem clamp_eq {low high : Rat} (ordered : low ≤ high) (value : Rat) :
    clamp value low high = max low (min value high) := by
  unfold clamp
  split_ifs with below above
  · rw [min_eq_left (below.le.trans ordered), max_eq_left below.le]
  · rw [min_eq_right above.le, max_eq_right ordered]
  · rw [min_eq_left (not_lt.mp above), max_eq_right (not_lt.mp below)]

theorem clamp_mem_Icc {low high : Rat} (ordered : low ≤ high) (value : Rat) :
    clamp value low high ∈ Set.Icc low high := by
  rw [clamp_eq ordered]
  exact ⟨le_max_left _ _, max_le ordered (min_le_right _ _)⟩

theorem sum_eq_sum (values : List Rat) : sum values = values.sum := by
  have added (total : Rat) : values.foldl (· + ·) total = total + values.sum := by
    induction values generalizing total with
    | nil => simp
    | cons value rest ih => simp [ih, add_assoc]
  rw [sum, added]
  norm_num

/-- The mean lies between bounds of all values. -/
theorem mean_mem_Icc {low high : Rat} {values : List Rat} (nonempty : values ≠ [])
    (bounds : ∀ value ∈ values, value ∈ Set.Icc low high) : mean values ∈ Set.Icc low high := by
  have size : (0 : Rat) < values.length := by
    exact_mod_cast List.length_pos_iff.mpr nonempty
  have above := List.card_nsmul_le_sum values low fun value member => (bounds value member).1
  have below := List.sum_le_card_nsmul values high fun value member => (bounds value member).2
  rw [nsmul_eq_mul, mul_comm] at above below
  have unfolded : mean values = values.sum / values.length := by
    rw [mean, sum_eq_sum]
    rfl
  rw [unfolded]
  exact ⟨(le_div_iff₀ size).mpr above, (div_le_iff₀ size).mpr below⟩

/-- The last binary digit of the exponent says whether the base itself is a factor. -/
theorem mul_pow_mod_two (product base : Rat) (exponent : Nat) :
    (if exponent % 2 = 1 then product * base else product) = product * base ^ (exponent % 2) := by
  rcases Nat.mod_two_eq_zero_or_one exponent with even | odd
  · simp [even]
  · simp [odd]

/-- The factors of all binary digits together give the power. -/
theorem powerFrom_eq (product base : Rat) (exponent : Nat) :
    powerFrom product base exponent = product * base ^ exponent := by
  induction exponent using Nat.strongRecOn generalizing product base with
  | ind exponent ih =>
      have digits : 2 * (exponent / 2) + exponent % 2 = exponent := Nat.div_add_mod exponent 2
      rw [powerFrom, mul_pow_mod_two]
      split_ifs with last
      · rw [last, Nat.mul_zero, Nat.zero_add] at digits
        rw [digits]
      · rw [ih (exponent / 2) (by omega), ← pow_two, ← pow_mul, mul_assoc, ← pow_add,
          Nat.add_comm, digits]

theorem power_eq_pow (base : Rat) (exponent : Nat) : power base exponent = base ^ exponent := by
  rw [power, powerFrom_eq]
  norm_num

end ChangeImpact.Scalar
