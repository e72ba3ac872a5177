/-
This file shows that plain numbers and truth values are read back as they were written.
-/

import ChangeImpact.Proofs.Decimal.Finite
import ChangeImpact.Proofs.Decimal.Shortest
import ChangeImpact.Proofs.Yaml.Style

namespace ChangeImpact.Yaml

section Words

/-- Characters of names and numbers. -/
def isNumeric (character : Char) : Bool :=
  isWord character || character == '.'

theorem isVisible_of_isNumeric {character : Char} (numeric : isNumeric character) :
    isVisible character := by
  simp only [isNumeric, isWord, Bool.or_eq_true, beq_iff_eq] at numeric
  rcases numeric with ((letter | rfl) | rfl) | rfl
  · have bounds : 48 ≤ character.toNat ∧ character.toNat ≤ 122 := by
      simp only [Char.isAlphanum, Char.isAlpha, Char.isUpper, Char.isLower, Char.isDigit,
        Bool.or_eq_true, Bool.and_eq_true, decide_eq_true_eq, UInt32.le_iff_toNat_le,
        ge_iff_le] at letter
      have point : character.toNat = character.val.toNat := rfl
      have upper : 'A'.val.toNat = 65 ∧ 'Z'.val.toNat = 90 := ⟨rfl, rfl⟩
      have lower : 'a'.val.toNat = 97 ∧ 'z'.val.toNat = 122 := ⟨rfl, rfl⟩
      have digit : '0'.val.toNat = 48 ∧ '9'.val.toNat = 57 := ⟨rfl, rfl⟩
      omega
    simp only [isVisible, decide_eq_true_eq]
    omega
  all_goals decide

theorem hasInnerIndicator_eq_false {characters : List Char} (numeric : characters.all isNumeric)
    (afterGap : Bool) : hasInnerIndicator afterGap characters = false := by
  induction characters generalizing afterGap with
  | nil => rfl
  | cons first rest ih =>
      simp only [List.all_cons, Bool.and_eq_true] at numeric
      have noColon : first ≠ ':' := by
        rintro rfl
        exact absurd numeric.1 (by decide)
      have noComment : first ≠ '#' := by
        rintro rfl
        exact absurd numeric.1 (by decide)
      simp [hasInnerIndicator, Plain.meetsColon, noColon, noComment, ih numeric.2]

/-- A word that starts with a letter, a digit or one mark before them is kept. -/
theorem Plain.isKept_of_isNumeric {first : Char} {rest : List Char}
    (numeric : (first :: rest).all isNumeric)
    (unbound : [['-', '-', '-'], ['.', '.', '.']].contains ((first :: rest).take 3) = false)
    (signed : first = '-' → rest ≠ []) : IsKept (first :: rest) := by
  have visible : IsVisible (first :: rest) := fun character member =>
    isVisible_of_isNumeric (List.all_eq_true.mp numeric character member)
  have noGap : ∀ character ∈ first :: rest, isGap character = false := fun character member =>
    isGap_eq_false_of_isVisible (visible character member)
  have noSpace : ' ' ∉ first :: rest := fun member => absurd (noGap ' ' member) (by decide)
  simp only [List.all_cons, Bool.and_eq_true] at numeric
  refine ⟨List.cons_ne_nil first rest, ?_, ?_, ?_, ?_, ?_⟩
  · exact fun character member => isPrintable_of_isVisible (visible character member)
  · exact fun character member => (Bool.or_eq_false_iff.mp (noGap character member)).2
  · have other : first ≠ ' ' := fun same => noSpace (same ▸ List.mem_cons_self)
    simpa [startsWithSpace] using other
  · have other : (first :: rest).getLast? ≠ some ' ' := fun last =>
      noSpace (List.mem_of_getLast? last)
    simpa [endsWithSpace] using other
  · have plain : (if first == '-' || first == '?' || first == ':' then startsWithGap rest
        else isIndicator first) = false := by
      by_cases hyphen : first = '-'
      · obtain ⟨second, later, rfl⟩ := List.exists_cons_of_ne_nil (signed hyphen)
        have next : isGap second = false := noGap second (by simp)
        simp [hyphen, startsWithGap, next]
      · have noIndicator : isIndicator first = false := by
          have all : ['?', ':', ',', '[', ']', '{', '}', '#', '&', '*', '!', '|', '>', '\'',
              '"', '%', '@', '`'].all fun mark => !isNumeric mark := by decide
          refine Bool.eq_false_iff.mpr fun indicator => ?_
          have mark := (List.mem_cons.mp (List.contains_iff_mem.mp indicator)).resolve_left hyphen
          exact absurd numeric.1 (by simpa using List.all_eq_true.mp all first mark)
        have noMark : first ≠ '?' ∧ first ≠ ':' := by
          constructor <;>
          · rintro rfl
            cases noIndicator
        simp [hyphen, noMark, noIndicator]
    simp only [hasIndicator, unbound, plain, hasInnerIndicator_eq_false numeric.2, Bool.or_self]

theorem isNumeric_of_isDigit {digit : Char} (sound : digit.isDigit) : isNumeric digit := by
  simp [isNumeric, isWord, Char.isAlphanum, sound]

theorem isNumeric_of_digits {digits : List Char} (sound : ∀ digit ∈ digits, digit.isDigit) :
    digits.all isNumeric :=
  List.all_eq_true.mpr fun digit member => isNumeric_of_isDigit (sound digit member)

end Words

section Count

theorem digitValue?_of_isDigit {digit : Char} (sound : digit.isDigit) :
    digitValue? 10 digit = some (Decimal.Numeral.digitValue digit) := by
  have bounds : 48 ≤ digit.toNat ∧ digit.toNat ≤ 57 := by
    simpa [Char.isDigit, UInt32.le_iff_toNat_le] using sound
  have range : '0' ≤ digit ∧ digit ≤ '9' := bounds
  have zero : '0'.toNat = 48 := rfl
  simp only [digitValue?, if_pos range, zero, Decimal.Numeral.digitValue]
  rw [if_pos (by omega)]

theorem digits?_of_isDigit {digits : List Char} (nonempty : digits ≠ [])
    (sound : ∀ digit ∈ digits, digit.isDigit) :
    digits? 10 digits = some (Decimal.Numeral.digitsValue digits) := by
  have values : digits.mapM (digitValue? 10) = some (digits.map Decimal.Numeral.digitValue) := by
    clear nonempty
    induction digits with
    | nil => rfl
    | cons first rest ih =>
        obtain ⟨here, later⟩ := List.forall_mem_cons.mp sound
        simp [digitValue?_of_isDigit here, ih later]
  simp [digits?, values, nonempty, Decimal.Numeral.digitsValue, List.foldl_map]

theorem isKept_writeCount (count : Nat) : Plain.IsKept (writeCount count) := by
  obtain ⟨first, rest, digits⟩ :=
    List.exists_cons_of_ne_nil (@Nat.toDigits_ne_nil count 10)
  have sound : ∀ digit ∈ first :: rest, digit.isDigit := fun digit member =>
    Decimal.Numeral.isDigit_of_mem_toDigits (digits ▸ member)
  have here := sound first List.mem_cons_self
  have noHyphen : first ≠ '-' := by
    rintro rfl
    cases here
  have noPoint : first ≠ '.' := by
    rintro rfl
    cases here
  rw [writeCount, digits]
  refine Plain.isKept_of_isNumeric ?_ ?_ fun hyphen => absurd hyphen noHyphen
  · exact isNumeric_of_digits sound
  · simp [noHyphen, noPoint]

theorem count?_writeCount {count : Nat} (small : count < Decimal.wordLimit) :
    count? (writeCount count) = some count := by
  have sound : ∀ digit ∈ Nat.toDigits 10 count, digit.isDigit :=
    fun _ => Decimal.Numeral.isDigit_of_mem_toDigits
  have number := digits?_of_isDigit Nat.toDigits_ne_nil sound
  rw [Decimal.Numeral.digitsValue_toDigits] at number
  have read : unsignedAfterPlus? (Nat.toDigits 10 count) = some count := by
    rcases Nat.eq_zero_or_pos count with rfl | positive
    · rfl
    obtain ⟨first, rest, digits, nonzero⟩ := Decimal.Numeral.exists_toDigits_eq_cons positive
    rw [digits] at sound number ⊢
    have noPlus : first ≠ '+' := by
      rintro rfl
      cases sound '+' List.mem_cons_self
    rw [unsignedAfterPlus?, unsigned?, if_neg, number]
    all_goals simp_all [hasNeedlessZero]
  simp [count?, writeCount, read, small]

end Count

section Flag

theorem flag?_writeFlag (value : Bool) : flag? (writeFlag value) = some value := by
  cases value <;> rfl

theorem isKept_writeFlag (value : Bool) : Plain.IsKept (writeFlag value) := by
  cases value <;> exact Plain.isKept_of_isNumeric (by decide) (by decide) (by decide)

end Flag

section Float

/-- The digits that a number is written with are read back as the same number. -/
def ReadsBack (number : Float) : Prop :=
  Numeric.read? (Numeric.write number) = some number

/-- Infinities and what is no number are written as words and read back. -/
theorem readsBack_of_isFinite_eq_false {number : Float} (infinite : number.isFinite = false) :
    ReadsBack number := by
  unfold ReadsBack
  rcases Decimal.eq_of_isFinite_eq_false infinite with rfl | rfl | rfl <;> decide +kernel

section Numeral

variable {numeral : Decimal.Numeral}

/-- The whole digits, the fraction and the power of ten hold no other characters. -/
theorem isNumeric_characters (sound : numeral.IsSound) :
    (numeral.characters "").all isNumeric := by
  have whole : numeral.whole.all isNumeric := isNumeric_of_digits sound.wholeDigits
  have fraction : (if numeral.fraction.isEmpty then [] else '.' :: numeral.fraction).all
      isNumeric := by
    split
    · rfl
    · exact List.all_cons.trans (by rw [isNumeric_of_digits sound.fractionDigits]; rfl)
  have power : ((numeral.exponent.map (Decimal.Numeral.exponentText "")).getD []).all
      isNumeric := by
    cases numeral.exponent with
    | none => rfl
    | some exponent =>
        have size : (Nat.toDigits 10 exponent.natAbs).all isNumeric :=
          isNumeric_of_digits fun _ => Decimal.Numeral.isDigit_of_mem_toDigits
        simp only [Option.map_some, Option.getD_some, Decimal.Numeral.exponentText]
        split <;> simp [size] <;> decide
  simp only [Decimal.Numeral.characters, List.all_append, whole, fraction, power, Bool.and_true]
  split <;> rfl

/-- A digit comes first, or second after a minus sign. -/
theorem exists_characters_eq (sound : numeral.IsSound) :
    ∃ first rest, first.isDigit ∧ numeral.characters "" =
      (if numeral.negative then ['-'] else []) ++ first :: rest := by
  obtain ⟨first, more, whole, digit⟩ := sound.exists_whole_eq_cons
  refine ⟨first, more ++ (if numeral.fraction.isEmpty then [] else '.' :: numeral.fraction) ++
    (numeral.exponent.map (Decimal.Numeral.exponentText "")).getD [], digit, ?_⟩
  rw [Decimal.Numeral.characters, whole]
  simp only [List.append_assoc, List.cons_append]

theorem Plain.isKept_characters (sound : numeral.IsSound) : IsKept (numeral.characters "") := by
  have numeric := isNumeric_characters sound
  obtain ⟨first, rest, digit, spelled⟩ := exists_characters_eq sound
  have noHyphen : first ≠ '-' := by
    rintro rfl
    cases digit
  have noPoint : first ≠ '.' := by
    rintro rfl
    cases digit
  rw [spelled] at numeric ⊢
  cases negative : numeral.negative with
  | true =>
      rw [negative] at numeric
      exact isKept_of_isNumeric numeric (by simp [noHyphen]) (by simp)
  | false =>
      rw [negative] at numeric
      exact isKept_of_isNumeric numeric (by simp [noHyphen, noPoint])
        fun hyphen => absurd hyphen noHyphen

end Numeral

theorem isKept_write (number : Float) : Plain.IsKept (Numeric.write number) := by
  change Plain.IsKept (floatStyle.write number).toList
  unfold Decimal.Style.write
  split
  next parts found =>
    rw [Decimal.Numeral.text, String.toList_ofList]
    exact Plain.isKept_characters
      (floatStyle.isSound_layout (Decimal.Binary64.inRange_of_ofBits? found))
  split
  · exact Plain.isKept_of_isNumeric (by decide) (by decide) (by decide)
  split
  · exact Plain.isKept_of_isNumeric (by decide) (by decide) (by decide)
  · exact Plain.isKept_of_isNumeric (by decide) (by decide) (by decide)

end Float

end ChangeImpact.Yaml
