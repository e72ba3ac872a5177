/-
This file shows that the decimals written for doubles are numerals.
-/

import ChangeImpact.Decimal.Shortest
import ChangeImpact.Proofs.Decimal.Digits
import Mathlib.Algebra.Order.Ring.Nat

namespace ChangeImpact.Decimal

/-- The bounds that the widths of the fields of a double set to its parts. -/
structure Binary64.InRange (value : Binary64) : Prop where
  significand : value.significand < 2 ^ 53
  low : -1074 ≤ value.exponent
  high : value.exponent ≤ 971

theorem Binary64.inRange_of_ofBits? {bits : Nat} {value : Binary64}
    (parts : ofBits? bits = some value) : value.InRange := by
  have fraction : bits % fractionSize < 2 ^ 52 := Nat.mod_lt _ (by decide)
  have size : fractionSize = 2 ^ 52 := rfl
  have biased : bits / fractionSize % 2048 < 2048 := Nat.mod_lt _ (by decide)
  unfold ofBits? at parts
  simp only at parts
  split at parts
  · cases parts
  split at parts <;> cases parts <;> constructor <;> simp only <;> omega

/-- Nineteen powers of ten below the leading binary digit there is room for a whole coefficient. -/
theorem tenTo_le_twoTo {power leading : Int} (low : -1074 ≤ leading) (high : leading ≤ 1023)
    (below : power = (leading + 1) * 30103 / 100000 + 1 - 20) :
    tenTo power.toNat * twoTo (-leading).toNat ≤ twoTo leading.toNat * tenTo (-power).toNat := by
  change 10 ^ power.toNat * 2 ^ (-leading).toNat ≤ 2 ^ leading.toNat * 10 ^ (-power).toNat
  rcases Int.le_total 0 leading with positive | negative
  · obtain ⟨size, rfl⟩ := Int.eq_ofNat_of_zero_le positive
    have small : power.toNat ≤ 3 * (size / 10) := by omega
    calc 10 ^ power.toNat * 2 ^ (-(size : Int)).toNat
        = 10 ^ power.toNat := by simp
      _ ≤ 10 ^ (3 * (size / 10)) := Nat.pow_le_pow_right (by decide) small
      _ = (10 ^ 3) ^ (size / 10) := Nat.pow_mul ..
      _ ≤ (2 ^ 10) ^ (size / 10) := Nat.pow_le_pow_left (by decide) _
      _ = 2 ^ (10 * (size / 10)) := (Nat.pow_mul ..).symm
      _ ≤ 2 ^ size := Nat.pow_le_pow_right (by decide) (by omega)
      _ ≤ 2 ^ size * 10 ^ (-power).toNat := Nat.le_mul_of_pos_right _ (Nat.pow_pos (by decide))
  · obtain ⟨size, rfl⟩ : ∃ size : Nat, leading = -size := ⟨leading.natAbs, by omega⟩
    have none : power.toNat = 0 := by omega
    have large : 4 * (size / 13 + 1) ≤ (-power).toNat := by omega
    calc 10 ^ power.toNat * 2 ^ (- -(size : Int)).toNat
        = 2 ^ size := by simp [none]
      _ ≤ 2 ^ (13 * (size / 13 + 1)) := Nat.pow_le_pow_right (by decide) (by omega)
      _ = (2 ^ 13) ^ (size / 13 + 1) := Nat.pow_mul ..
      _ ≤ (10 ^ 4) ^ (size / 13 + 1) := Nat.pow_le_pow_left (by decide) _
      _ = 10 ^ (4 * (size / 13 + 1)) := (Nat.pow_mul ..).symm
      _ ≤ 10 ^ (-power).toNat := Nat.pow_le_pow_right (by decide) large
      _ ≤ 2 ^ (-(size : Int)).toNat * 10 ^ (-power).toNat :=
          Nat.le_mul_of_pos_left _ (Nat.pow_pos (by decide))

namespace Interval

theorem holds_of_nearestMultiple? {interval : Interval} {exponent : Int} {coefficient : Nat}
    (found : interval.nearestMultiple? exponent = some coefficient) :
    interval.holds exponent coefficient := by
  simp only [nearestMultiple?] at found
  split at found
  next below =>
    rw [← Option.some.inj found]
    exact (Bool.and_eq_true_iff.mp below).1
  split at found
  next above =>
    rw [← Option.some.inj found]
    exact above
  next => cases found

/-- The interval of a double above zero does not hold zero. -/
theorem holds_zero {interval : Interval} (positive : 0 < interval.low) (exponent : Int) :
    interval.holds exponent 0 = false := by
  have scale : 0 < tenTo (-exponent).toNat := Nat.pow_pos (by decide)
  simp only [holds, Nat.zero_mul]
  split <;> simp [Nat.ne_of_gt positive, Nat.ne_of_gt scale]

/-- The coefficient of the first multiple is zero only if none is found and the last power of ten
is above the middle. -/
theorem firstMultiple_ne_zero {interval : Interval} (positive : 0 < interval.low) {steps : Nat}
    {exponent : Int}
    (room : interval.denominator * tenTo (exponent - steps).toNat ≤
      interval.middle * tenTo (-(exponent - steps)).toNat)
    (nonzero : 0 < interval.denominator) :
    (firstMultiple steps interval exponent).1 ≠ 0 := by
  induction steps generalizing exponent with
  | zero =>
      have scale : 0 < tenTo exponent.toNat := Nat.pow_pos (by decide)
      rw [Int.ofNat_zero, Int.sub_zero] at room
      exact Nat.ne_of_gt (Nat.div_pos room (Nat.mul_pos nonzero scale))
  | succ steps ih =>
      rw [firstMultiple]
      split
      next coefficient found =>
        have held := holds_of_nearestMultiple? found
        rintro rfl
        simp [holds_zero positive] at held
      next =>
        refine ih ?_
        rwa [Int.sub_sub, Int.add_comm 1, ← Int.natCast_add_one]

end Interval

/-- A power of ten below the leading binary digit of a double is below the double, also on the scale
of the interval around it. -/
theorem scaled_le_of_leading_le {significand bits : Nat} {exponent power : Int}
    (size : 2 ^ bits ≤ significand)
    (room : tenTo power.toNat * twoTo (-(bits + exponent)).toNat ≤
      twoTo (bits + exponent).toNat * tenTo (-power).toNat) :
    twoTo (2 - exponent).toNat * tenTo power.toNat ≤
      4 * significand * twoTo (exponent - 2).toNat * tenTo (-power).toNat := by
  have exponents : twoTo (2 - exponent).toNat * twoTo (bits + exponent).toNat =
      4 * twoTo bits * twoTo (exponent - 2).toNat * twoTo (-(bits + exponent)).toNat := by
    change 2 ^ _ * 2 ^ _ = 2 ^ 2 * 2 ^ _ * 2 ^ _ * 2 ^ _
    simp only [← Nat.pow_add]
    congr 1
    omega
  have positive : 0 < twoTo (-(bits + exponent)).toNat := Nat.pow_pos (by decide)
  refine Nat.le_of_mul_le_mul_right ?_ positive
  calc twoTo (2 - exponent).toNat * tenTo power.toNat * twoTo (-(bits + exponent)).toNat
      = twoTo (2 - exponent).toNat * (tenTo power.toNat * twoTo (-(bits + exponent)).toNat) :=
        Nat.mul_assoc ..
    _ ≤ twoTo (2 - exponent).toNat * (twoTo (bits + exponent).toNat * tenTo (-power).toNat) :=
        Nat.mul_le_mul_left _ room
    _ = 4 * twoTo bits * twoTo (exponent - 2).toNat * twoTo (-(bits + exponent)).toNat *
          tenTo (-power).toNat := by
        rw [← Nat.mul_assoc, exponents]
    _ = 4 * twoTo bits * twoTo (exponent - 2).toNat * tenTo (-power).toNat *
          twoTo (-(bits + exponent)).toNat := Nat.mul_right_comm ..
    _ ≤ 4 * significand * twoTo (exponent - 2).toNat * tenTo (-power).toNat *
          twoTo (-(bits + exponent)).toNat :=
        Nat.mul_le_mul_right _ (Nat.mul_le_mul_right _ (Nat.mul_le_mul_right _
          (Nat.mul_le_mul_left 4 size)))

/-- Only zero is written with the coefficient zero. -/
theorem Binary64.shortest_ne_zero {value : Binary64} (inRange : value.InRange)
    (nonzero : value.significand ≠ 0) : value.shortest.1 ≠ 0 := by
  obtain ⟨small, low, high⟩ := inRange
  obtain ⟨negative, significand, exponent⟩ := value
  simp only at small low high nonzero
  have bits : significand.log2 < 53 := (Nat.log2_lt nonzero).mpr small
  have scale : 0 < twoTo (exponent - 2).toNat := Nat.pow_pos (by decide)
  rw [shortest, if_neg nonzero]
  refine Interval.firstMultiple_ne_zero ?_ ?_ (Nat.pow_pos (by decide))
  · refine Nat.mul_pos ?_ scale
    simp only
    split <;> omega
  · obtain ⟨power, below⟩ :
        ∃ power : Int, power = (significand.log2 + exponent + 1) * 30103 / 100000 + 1 - 20 :=
      ⟨_, rfl⟩
    simp only [Interval.ofBinary64, powerAbove]
    rw [show ((20 : Nat) : Int) = 20 from rfl, ← below]
    exact scaled_le_of_leading_le (Nat.log2_self_le nonzero)
      (tenTo_le_twoTo (by omega) (by omega) below)

namespace Style

/-- Every double is written as a sound numeral. -/
theorem isSound_layout (style : Style) {value : Binary64} (inRange : value.InRange) :
    (style.layout value).IsSound := by
  obtain ⟨coefficient, exponent, shortest⟩ :
      ∃ coefficient exponent, value.shortest = (coefficient, exponent) := ⟨_, _, rfl⟩
  have zero : coefficient = 0 → exponent = 0 := by
    rintro rfl
    by_cases zero : value.significand = 0
    · simp_all [Binary64.shortest]
    · have nonzero := Binary64.shortest_ne_zero inRange zero
      simp [shortest] at nonzero
  have digits : ∀ digit ∈ Nat.toDigits 10 coefficient, digit.isDigit :=
    fun _ => Numeral.isDigit_of_mem_toDigits
  have zeros : ∀ size, ∀ digit ∈ List.replicate size '0', digit.isDigit := by
    intro size digit member
    rw [List.eq_of_mem_replicate member]
    decide
  have plain : coefficient = 0 ∨ ∃ first rest,
      Nat.toDigits 10 coefficient = first :: rest ∧ first ≠ '0' :=
    (Nat.eq_zero_or_pos coefficient).imp id Numeral.exists_toDigits_eq_cons
  simp only [layout, shortest]
  split
  · split
    next whole =>
      refine ⟨?_, ?_, ?_⟩
      · rcases plain with none | ⟨first, rest, starts, nonzero⟩
        · simp [none, zero none]
        · exact .inr ⟨first, _, by rw [starts, List.cons_append], nonzero⟩
      · exact List.forall_mem_append.mpr ⟨digits, zeros _⟩
      · split <;> simp
    split
    next below above =>
      refine ⟨?_, fun digit member => digits digit (List.mem_of_mem_take member),
        fun digit member => digits digit (List.mem_of_mem_drop member)⟩
      rcases plain with none | ⟨first, rest, starts, nonzero⟩
      · exact absurd (zero none) (by omega)
      · exact .inr ⟨first, _, by rw [starts, List.take_succ_cons], nonzero⟩
    next =>
      exact ⟨.inl rfl, by simp, List.forall_mem_append.mpr ⟨zeros _, digits⟩⟩
  · refine ⟨?_, fun digit member => digits digit (List.mem_of_mem_take member),
      fun digit member => digits digit (List.mem_of_mem_drop member)⟩
    rcases plain with rfl | ⟨first, rest, starts, nonzero⟩
    · exact .inl rfl
    · exact .inr ⟨first, [], by simp [starts], nonzero⟩

end Style

end ChangeImpact.Decimal
