/-
This file shows that the characters of a text are read back from between their quotes.
-/

import ChangeImpact.Json.Quoted

namespace ChangeImpact

namespace Hexadecimal

theorem value?_digit {value : Nat} (small : value < 16) : value? (digit value) = some value := by
  have all : ∀ value < 16, value? (digit value) = some value := by decide
  exact all value small

/-- Two digits after two zeros stand for a number below 256. -/
theorem number?_pair {number : Nat} (small : number < 256) :
    number? ['0', '0', digit (number / 16), digit (number % 16)] = some number := by
  have zero : value? '0' = some 0 := rfl
  simp [number?, zero, value?_digit (show number / 16 < 16 by omega),
    value?_digit (show number % 16 < 16 by omega)]
  omega

end Hexadecimal

namespace Json.Quoted

theorem points?_short {escape character : Char} (known : shortEscape? escape = some character)
    (rest : List Char) :
    points? ('\\' :: escape :: rest) =
      (points? rest).map fun read => (character.toNat :: read.1, read.2) := by
  have notPoint : escape ≠ 'u' := by
    rintro rfl
    cases known
  rw [points?, known]
  · cases points? rest <;> rfl
  · simp [notPoint]

/-- A spelled character is read as its own code point. -/
theorem points?_spell_append (character : Char) (rest : List Char) :
    points? (spell character ++ rest) =
      (points? rest).map fun read => (character.toNat :: read.1, read.2) := by
  unfold spell
  split
  iterate 7 exact points?_short rfl rest
  next notQuote notBackslash _ _ _ _ _ =>
    split
    next control =>
      have read := Hexadecimal.number?_pair (show character.toNat < 256 by omega)
      simp only [List.cons_append, List.nil_append, points?, read]
      cases points? rest <;> rfl
    next visible =>
      simp only [List.cons_append, List.nil_append]
      rw [points?, if_neg visible]
      · cases points? rest <;> rfl
      all_goals simp_all

theorem points?_close_append (characters rest : List Char) :
    points? (close characters ++ rest) = some (characters.map Char.toNat, rest) := by
  induction characters with
  | nil => rfl
  | cons first characters ih =>
      have unfolded : close (first :: characters) ++ rest =
          spell first ++ (close characters ++ rest) := by simp [close]
      rw [unfolded, points?_spell_append, ih]
      rfl

theorem isSurrogate_toNat (character : Char) :
    isHighSurrogate character.toNat = false ∧ isLowSurrogate character.toNat = false := by
  have valid := character.valid
  simp only [UInt32.isValidChar, Nat.isValidChar, Char.toNat_val] at valid
  constructor <;> simp [isHighSurrogate, isLowSurrogate] <;> omega

theorem join?_map_toNat (characters : List Char) :
    join? (characters.map Char.toNat) = some characters := by
  induction characters with
  | nil => rfl
  | cons first characters ih =>
      obtain ⟨notHigh, notLow⟩ := isSurrogate_toNat first
      cases characters with
      | nil => simp [join?, notHigh, notLow]
      | cons second characters =>
          simp only [List.map_cons] at ih ⊢
          simp [join?, notHigh, notLow, ih]

end Json.Quoted

end ChangeImpact
