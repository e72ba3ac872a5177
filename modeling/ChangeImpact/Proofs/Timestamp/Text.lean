/-
This file shows that timestamps are read back from their text.
-/

import ChangeImpact.Proofs.Decimal.Digits
import ChangeImpact.Timestamp.Text
import Mathlib.Algebra.Order.Ring.Nat

namespace ChangeImpact.Timestamp

section Digits

variable {digits rest : List Char} {width count : Nat}

/-- No digit stands in front. -/
def StartsWithoutDigit (characters : List Char) : Prop :=
  ∀ first rest, characters = first :: rest → first.isDigit = false

theorem startsWithoutDigit_cons {first : Char} (other : first.isDigit = false)
    (rest : List Char) : StartsWithoutDigit (first :: rest) := by
  rintro _ _ ⟨rfl, rfl⟩
  exact other

/-- A run of digits is read up to its end, which is the width or the first other character. -/
theorem digits?_append (sound : ∀ digit ∈ digits, digit.isDigit) (nonempty : digits ≠ [])
    (fits : digits.length ≤ width) (ended : digits.length = width ∨ StartsWithoutDigit rest) :
    digits? width (digits ++ rest) = some (digits, rest) := by
  have stopped : (rest.take (width - digits.length)).takeWhile Char.isDigit = [] := by
    rcases ended with full | other
    · simp [full]
    · cases rest with
      | nil => simp
      | cons first rest =>
          cases width - digits.length <;> simp [other first rest rfl]
  simp [digits?, List.take_append, List.take_of_length_le fits,
    List.takeWhile_append_of_pos sound, stopped, nonempty]

theorem isDigit_of_mem_padded {digit : Char} (member : digit ∈ padded width count) :
    digit.isDigit := by
  rcases List.mem_append.mp member with zero | digits
  · rw [List.eq_of_mem_replicate zero]
    decide
  · exact Decimal.Numeral.isDigit_of_mem_toDigits digits

theorem padded_ne_nil : padded width count ≠ [] := by
  simp [padded, Nat.toDigits_ne_nil]

theorem digitsValue_padded : Decimal.Numeral.digitsValue (padded width count) = count := by
  simp [padded]

theorem length_padded (positive : 0 < width) (small : count < 10 ^ width) :
    (padded width count).length = width := by
  have short := (Nat.length_toDigits_le_iff (by decide) positive).mpr small
  simp [padded]
  omega

theorem isBlank_eq_false_of_isDigit {character : Char} (digit : character.isDigit) :
    Text.isBlank character = false := by
  have bounds : 48 ≤ character.toNat ∧ character.toNat ≤ 57 := by
    simpa [Char.isDigit, UInt32.le_iff_toNat_le] using digit
  simp [Text.isBlank]
  omega

theorem dropWhile_isBlank_of_isDigit (sound : ∀ digit ∈ digits, digit.isDigit)
    (nonempty : digits ≠ []) :
    (digits ++ rest).dropWhile Text.isBlank = digits ++ rest := by
  obtain ⟨first, digits, rfl⟩ := List.exists_cons_of_ne_nil nonempty
  simp [isBlank_eq_false_of_isDigit (sound first List.mem_cons_self)]

theorem number?_padded (positive : 0 < width) (small : count < 10 ^ width) :
    number? width (padded width count ++ rest) = some (count, rest) := by
  have blanks := @dropWhile_isBlank_of_isDigit _ rest
    (fun _ => @isDigit_of_mem_padded width count _) padded_ne_nil
  have length := length_padded positive small
  have read := @digits?_append _ rest width (fun _ => @isDigit_of_mem_padded width count _)
    padded_ne_nil (Nat.le_of_eq length) (.inl length)
  simp [number?, blanks, read, digitsValue_padded]

end Digits

/-- A mark that is no blank is found in front. -/
theorem mark?_cons {mark : Char} (visible : Text.isBlank mark = false) (rest : List Char) :
    mark? mark (mark :: rest) = some rest := by
  simp [mark?, visible]

/-- A year of four digits needs no sign. -/
theorem year?_padded {year : Nat} (small : year < 10000) (rest : List Char) :
    year? (padded 4 year ++ rest) = some ((year : Int), rest) := by
  have sound : ∀ digit ∈ padded 4 year, digit.isDigit := fun _ => isDigit_of_mem_padded
  have length : (padded 4 year).length = 4 := length_padded (by decide) small
  have read := @digits?_append _ rest 4 sound padded_ne_nil (Nat.le_of_eq length) (.inl length)
  have unsigned {sign : Char} {rest' : List Char} (other : sign.isDigit = false) :
      padded 4 year ++ rest ≠ sign :: rest' := by
    intro starts
    obtain ⟨first, digits, front⟩ := List.exists_cons_of_ne_nil (@padded_ne_nil 4 year)
    rw [front, List.cons_append, List.cons.injEq] at starts
    have digit := sound first (by simp [front])
    simp [starts.1, other] at digit
  unfold year?
  rw [dropWhile_isBlank_of_isDigit sound padded_ne_nil]
  split
  next starts => exact absurd starts (unsigned (by decide))
  next starts => exact absurd starts (unsigned (by decide))
  next => simp [read, digitsValue_padded]

theorem year?_yearCharacters (year : Int) {rest : List Char} (ended : StartsWithoutDigit rest) :
    year? (yearCharacters year ++ rest) = some (year, rest) := by
  unfold yearCharacters
  split
  next plain =>
    rw [year?_padded (by omega), Int.toNat_of_nonneg plain.1]
  next signed =>
    obtain ⟨size, named⟩ : ∃ size, year.natAbs = size := ⟨_, rfl⟩
    have read := @digits?_append _ rest ((padded 4 size ++ rest).length)
      (fun _ => @isDigit_of_mem_padded 4 size _) padded_ne_nil (by simp) (.inr ended)
    rw [named]
    split
    next negative =>
      have front : ∀ rest, ('-' :: rest).dropWhile Text.isBlank = '-' :: rest := fun _ => rfl
      simp [year?, front, read, digitsValue_padded, -List.length_append]
      omega
    next positive =>
      have front : ∀ rest, ('+' :: rest).dropWhile Text.isBlank = '+' :: rest := fun _ => rfl
      simp [year?, front, read, digitsValue_padded, -List.length_append]
      omega

theorem fraction?_padded {width count : Nat} (positive : 0 < width) (short : width ≤ 9)
    (small : count < 10 ^ width) (rest : List Char) :
    fraction? ('.' :: padded width count ++ 'Z' :: rest) =
      some (count * Decimal.tenTo (9 - width), 'Z' :: rest) := by
  have length := length_padded positive small
  have read : digits? 9 (padded width count ++ 'Z' :: rest) =
      some (padded width count, 'Z' :: rest) :=
    digits?_append (fun _ => isDigit_of_mem_padded) padded_ne_nil (length.trans_le short)
      (.inr (startsWithoutDigit_cons (by decide) rest))
  simp [fraction?, read, digitsValue_padded, length]

theorem fraction?_fractionCharacters (nanosecond : Fin 1000000000) (rest : List Char) :
    fraction? (fractionCharacters nanosecond ++ 'Z' :: rest) =
      some (nanosecond.val, 'Z' :: rest) := by
  unfold fractionCharacters
  split
  next whole => simp [fraction?, whole]
  split
  next milliseconds =>
    rw [fraction?_padded (by decide) (by decide) (by omega)]
    simp [Decimal.tenTo]
    omega
  split
  next microseconds =>
    rw [fraction?_padded (by decide) (by decide) (by omega)]
    simp [Decimal.tenTo]
    omega
  next =>
    rw [fraction?_padded (by decide) (by decide) nanosecond.isLt]
    simp [Decimal.tenTo]

theorem ofLocal?_zero (timestamp : Timestamp) :
    ofLocal? timestamp.date timestamp.hour timestamp.minute timestamp.second
      timestamp.nanosecond 0 = some timestamp := by
  obtain ⟨date, hour, minute, second, nanosecond⟩ := timestamp
  obtain ⟨minutes, total⟩ : ∃ minutes, minutes = 60 * hour.val + minute.val := ⟨_, rfl⟩
  have moved : moveBack? date minutes 0 = some (date, (minutes : Int)) := by
    have notBefore : ¬ (minutes : Int) < 0 := by omega
    have notAfter : ¬ 1440 ≤ (minutes : Int) := by omega
    simp only [moveBack?, Int.sub_zero, notBefore, notAfter, if_false]
  have hours : minutes / 60 = hour.val := by omega
  have rest : minutes % 60 = minute.val := by omega
  simp only [ofLocal?, hour.isLt, minute.isLt, and_self, if_true, ← total, moved]
  simp [guard, hours, rest]

/-- A timestamp is read back from its text. -/
theorem parse?_text (timestamp : Timestamp) : parse? timestamp.text = some timestamp := by
  have localTime := ofLocal?_zero timestamp
  obtain ⟨date, hour, minute, second, nanosecond⟩ := timestamp
  obtain ⟨year, month, day, valid⟩ := date
  have number : ∀ count rest, count < 100 →
      number? 2 (padded 2 count ++ rest) = some (count, rest) :=
    fun count rest small => number?_padded (by decide) small
  have months : month < 100 := by have := valid.2.1; omega
  have days : day < 100 := by
    have := valid.2.2
    unfold Date.daysIn at this
    split at this <;> (try split at this) <;> omega
  have years : ∀ rest, year? (yearCharacters year ++ '-' :: rest) = some (year, '-' :: rest) :=
    fun rest => year?_yearCharacters year (startsWithoutDigit_cons (by decide) rest)
  have hyphen : ∀ rest, mark? '-' ('-' :: rest) = some rest := mark?_cons (by decide)
  have colon : ∀ rest, mark? ':' (':' :: rest) = some rest := mark?_cons (by decide)
  have date : Date.of? year month day = some ⟨year, month, day, valid⟩ := by simp [Date.of?, valid]
  have utc : offset? ['Z'] = some (0, []) := rfl
  have spelled : characters ⟨⟨year, month, day, valid⟩, hour, minute, second, nanosecond⟩ =
      yearCharacters year ++ '-' :: (padded 2 month ++ '-' :: (padded 2 day ++ 'T' ::
        (padded 2 hour ++ ':' :: (padded 2 minute ++ ':' :: (padded 2 second ++
          (fractionCharacters nanosecond ++ ['Z'])))))) := by
    simp [characters]
  rw [parse?, text, String.toList_ofList, spelled, ofCharacters?]
  refine Option.bind_eq_some_iff.mpr ⟨_, years _, ?_⟩
  refine Option.bind_eq_some_iff.mpr ⟨_, hyphen _, ?_⟩
  refine Option.bind_eq_some_iff.mpr ⟨_, number _ _ months, ?_⟩
  refine Option.bind_eq_some_iff.mpr ⟨_, hyphen _, ?_⟩
  refine Option.bind_eq_some_iff.mpr ⟨_, number _ _ days, ?_⟩
  refine Option.bind_eq_some_iff.mpr ⟨_, date, ?_⟩
  refine Option.bind_eq_some_iff.mpr ⟨_, rfl, ?_⟩
  refine Option.bind_eq_some_iff.mpr ⟨_, number _ _ (by omega), ?_⟩
  refine Option.bind_eq_some_iff.mpr ⟨_, colon _, ?_⟩
  refine Option.bind_eq_some_iff.mpr ⟨_, number _ _ (by omega), ?_⟩
  refine Option.bind_eq_some_iff.mpr ⟨_, colon _, ?_⟩
  refine Option.bind_eq_some_iff.mpr ⟨_, number _ _ (by omega), ?_⟩
  refine Option.bind_eq_some_iff.mpr ⟨_, fraction?_fractionCharacters nanosecond _, ?_⟩
  refine Option.bind_eq_some_iff.mpr ⟨_, utc, ?_⟩
  exact localTime

end ChangeImpact.Timestamp
