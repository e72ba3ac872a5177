/-
This file shows that runs of decimal digits stand for the numbers they were written from.
-/

import ChangeImpact.Decimal.Scaled

namespace ChangeImpact.Decimal.Numeral

theorem digitsValue_eq_ofDigitChars (digits : List Char) :
    digitsValue digits = Nat.ofDigitChars 10 digits 0 := by
  rw [Nat.ofDigitChars_eq_foldl]
  rfl

@[simp]
theorem digitsValue_toDigits (count : Nat) : digitsValue (Nat.toDigits 10 count) = count := by
  rw [digitsValue_eq_ofDigitChars, Nat.ofDigitChars_ten_toDigits]

/-- Zeros in front do not change the value. -/
@[simp]
theorem digitsValue_zeros_append (zeros : Nat) (digits : List Char) :
    digitsValue (List.replicate zeros '0' ++ digits) = digitsValue digits := by
  rw [digitsValue_eq_ofDigitChars, digitsValue_eq_ofDigitChars, Nat.ofDigitChars_append,
    Nat.ofDigitChars_replicate_zero, Nat.mul_zero]

theorem isDigit_of_mem_toDigits {count : Nat} {digit : Char}
    (member : digit ∈ Nat.toDigits 10 count) : digit.isDigit :=
  Nat.isDigit_of_mem_toDigits (by decide) (by decide) member

/-- The digits of a positive count do not start with a zero. -/
theorem exists_toDigits_eq_cons {count : Nat} (positive : 0 < count) :
    ∃ first rest, Nat.toDigits 10 count = first :: rest ∧ first ≠ '0' := by
  induction count using Nat.strongRecOn with
  | ind count ih =>
      rw [Nat.toDigits_eq_if (by decide)]
      split
      next small => exact ⟨_, _, rfl, by simp; omega⟩
      next large =>
        obtain ⟨first, rest, digits, nonzero⟩ := ih (count / 10) (by omega) (by omega)
        exact ⟨first, _, by rw [digits]; rfl, nonzero⟩

/-- The digits before the point are a single zero or do not start with one, and all digits are
decimal ones. -/
structure IsSound (numeral : Numeral) : Prop where
  whole : numeral.whole = ['0'] ∨ ∃ first rest, numeral.whole = first :: rest ∧ first ≠ '0'
  wholeDigits : ∀ digit ∈ numeral.whole, digit.isDigit
  fractionDigits : ∀ digit ∈ numeral.fraction, digit.isDigit

theorem IsSound.exists_whole_eq_cons {numeral : Numeral} (sound : numeral.IsSound) :
    ∃ first rest, numeral.whole = first :: rest ∧ first.isDigit := by
  rcases sound.whole with zero | ⟨first, rest, whole, -⟩
  · exact ⟨'0', [], zero, by decide⟩
  · exact ⟨first, rest, whole, sound.wholeDigits first (by simp [whole])⟩

theorem isSound_ofNat (count : Nat) : (ofNat count).IsSound where
  whole := by
    rcases Nat.eq_zero_or_pos count with rfl | positive
    · exact .inl rfl
    · exact .inr (exists_toDigits_eq_cons positive)
  wholeDigits _ := isDigit_of_mem_toDigits
  fractionDigits _ member := absurd member List.not_mem_nil

/-- A count below the limit is read back from its numeral. -/
theorem toCount?_ofNat {limit count : Nat} (small : count < limit) :
    (ofNat count).toCount? limit = some count := by
  simp [toCount?, ofNat, isWhole, small]

end ChangeImpact.Decimal.Numeral
