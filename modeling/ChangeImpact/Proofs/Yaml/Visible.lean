/-
This file shows that texts which could be mistaken for something else are made of visible ASCII
characters.
-/

import ChangeImpact.Proofs.Yaml.Gap
import ChangeImpact.Yaml.Style
import Mathlib.Data.List.TakeWhile

namespace ChangeImpact.Yaml

/-- Characters of ASCII that are neither blank nor control characters. -/
def isVisible (character : Char) : Bool :=
  decide (0x21 ≤ character.toNat ∧ character.toNat ≤ 0x7E)

section Characters

variable {character : Char}

theorem isPrintable_of_isVisible (visible : isVisible character) :
    Quoted.isPrintable character := by
  simp only [isVisible, decide_eq_true_eq] at visible
  simp only [Quoted.isPrintable, Bool.or_eq_true, Bool.and_eq_true, decide_eq_true_eq]
  omega

theorem isGap_eq_false_of_isVisible (visible : isVisible character) : isGap character = false := by
  refine Bool.eq_false_iff.mpr fun gap => ?_
  simp only [isGap, isBlank, isBreak, Bool.or_eq_true, beq_iff_eq] at gap
  rcases gap with (rfl | rfl) | ((rfl | rfl) | rfl) <;> exact absurd visible (by decide)

theorem isVisible_of_isDigit (digit : character.isDigit) : isVisible character := by
  have bounds : 48 ≤ character.toNat ∧ character.toNat ≤ 57 := by
    simpa [Char.isDigit, UInt32.le_iff_toNat_le] using digit
  simp only [isVisible, decide_eq_true_eq]
  omega

theorem isVisible_of_digitValue? {base value : Nat}
    (read : digitValue? base character = some value) : isVisible character := by
  by_contra hidden
  have outside : ∀ first last : Char, 0x21 ≤ first.toNat → last.toNat ≤ 0x7E →
      ¬ (first ≤ character ∧ character ≤ last) := by
    rintro first last low high ⟨above, below⟩
    have above : first.toNat ≤ character.toNat := above
    have below : character.toNat ≤ last.toNat := below
    exact hidden (by simp only [isVisible, decide_eq_true_eq]; omega)
  simp [digitValue?, outside '0' '9', outside 'a' 'z', outside 'A' 'Z'] at read

end Characters

/-- All characters are visible. -/
def IsVisible (characters : List Char) : Prop :=
  ∀ character ∈ characters, isVisible character

section Texts

variable {characters : List Char}

theorem isVisible_cons {first : Char} {rest : List Char} :
    IsVisible (first :: rest) ↔ isVisible first ∧ IsVisible rest :=
  List.forall_mem_cons

theorem isVisible_of_all_isDigit (digits : characters.all Char.isDigit) : IsVisible characters :=
  fun character member => isVisible_of_isDigit (List.all_eq_true.mp digits character member)

theorem isVisible_of_mapM_digitValue? {base : Nat} {values : List Nat}
    (read : characters.mapM (digitValue? base) = some values) : IsVisible characters := by
  induction characters generalizing values with
  | nil => exact List.forall_mem_nil _
  | cons first later ih =>
      simp only [List.mapM_cons, Option.bind_eq_bind, Option.bind_eq_some_iff] at read
      obtain ⟨_, here, _, others, -⟩ := read
      exact isVisible_cons.mpr ⟨isVisible_of_digitValue? here, ih others⟩

theorem isVisible_of_digits? {base number : Nat} (read : digits? base characters = some number) :
    IsVisible characters := by
  simp only [digits?, Option.bind_eq_bind, Option.bind_eq_some_iff] at read
  obtain ⟨_, values, -⟩ := read
  exact isVisible_of_mapM_digitValue? values

theorem isVisible_of_hasNeedlessZero (zero : hasNeedlessZero characters) :
    IsVisible characters := by
  unfold hasNeedlessZero at zero
  split at zero
  · exact isVisible_cons.mpr ⟨by decide, isVisible_of_all_isDigit zero⟩
  · cases zero

theorem isVisible_of_unsigned? {number : Nat} (read : unsigned? characters = some number) :
    IsVisible characters := by
  have based : ∀ {base : Nat} {letter : Char} {rest : List Char}, isVisible letter →
      digits? base rest = some number → IsVisible ('0' :: letter :: rest) := fun visible read =>
    isVisible_cons.mpr ⟨by decide, isVisible_cons.mpr ⟨visible, isVisible_of_digits? read⟩⟩
  unfold unsigned? at read
  split at read
  iterate 3 exact based (by decide) read
  split at read
  · cases read
  · exact isVisible_of_digits? read

theorem isVisible_of_isInteger (integer : isInteger characters) : IsVisible characters := by
  simp only [isInteger, Bool.or_eq_true, Option.any_eq_true] at integer
  rcases integer with ⟨_, read, -⟩ | integer
  · unfold unsignedAfterPlus? at read
    split at read
    · exact isVisible_cons.mpr ⟨by decide, isVisible_of_unsigned? read⟩
    · exact isVisible_of_unsigned? read
  · split at integer
    · obtain ⟨_, read, -⟩ := Option.any_eq_true _ _ |>.mp integer
      exact isVisible_cons.mpr ⟨by decide, isVisible_of_unsigned? read⟩
    · cases integer

theorem isVisible_of_exponent? {exponent : Option Int}
    (read : exponent? characters = some exponent) : IsVisible characters := by
  cases characters with
  | nil => exact List.forall_mem_nil _
  | cons letter rest =>
      simp only [exponent?] at read
      split at read
      next power =>
        have letterVisible : isVisible letter := by
          rcases power with rfl | rfl <;> decide
        have sized : ∀ {digits : List Char} {size : Option Int},
            (if digits.isEmpty || !digits.all Char.isDigit then none else some size) =
              some exponent → IsVisible digits := by
          intro digits size read
          split at read
          · cases read
          next sound => exact isVisible_of_all_isDigit (by simp_all)
        refine isVisible_cons.mpr ⟨letterVisible, ?_⟩
        split at read
        · exact isVisible_cons.mpr ⟨by decide, sized read⟩
        · exact isVisible_cons.mpr ⟨by decide, sized read⟩
        · exact sized read
      next => cases read

/-- The digits at the front and what follows them. -/
theorem isVisible_of_dropWhile_isDigit (rest : IsVisible (characters.dropWhile Char.isDigit)) :
    IsVisible characters := by
  rw [← List.takeWhile_append_dropWhile (p := Char.isDigit) (l := characters)]
  refine List.forall_mem_append.mpr ⟨?_, rest⟩
  exact fun character member => isVisible_of_isDigit (List.mem_takeWhile_imp member)

/-- A decimal number after its sign. -/
def unsignedNumeral? (negative : Bool) (characters : List Char) : Option Decimal.Numeral := do
  let whole := characters.takeWhile Char.isDigit
  let (fraction, rest) := match characters.dropWhile Char.isDigit with
    | '.' :: rest => (rest.takeWhile Char.isDigit, rest.dropWhile Char.isDigit)
    | rest => ([], rest)
  if whole.isEmpty && fraction.isEmpty then none
  else some ⟨negative, whole, fraction, ← exponent? rest⟩

theorem isVisible_of_unsignedNumeral? {negative : Bool} {numeral : Decimal.Numeral}
    (read : unsignedNumeral? negative characters = some numeral) : IsVisible characters := by
  refine isVisible_of_dropWhile_isDigit ?_
  simp only [unsignedNumeral?] at read
  split at read
  next point =>
    split at read
    · cases read
    obtain ⟨_, power, -⟩ := Option.bind_eq_some_iff.mp read
    rw [point]
    exact isVisible_cons.mpr
      ⟨by decide, isVisible_of_dropWhile_isDigit (isVisible_of_exponent? power)⟩
  next =>
    split at read
    · cases read
    obtain ⟨_, power, -⟩ := Option.bind_eq_some_iff.mp read
    exact isVisible_of_exponent? power

theorem isVisible_of_numeral? {numeral : Decimal.Numeral}
    (read : numeral? characters = some numeral) : IsVisible characters := by
  simp only [numeral?] at read
  split at read
  · exact isVisible_cons.mpr ⟨by decide, isVisible_of_unsignedNumeral? read⟩
  · exact isVisible_cons.mpr ⟨by decide, isVisible_of_unsignedNumeral? read⟩
  · exact isVisible_of_unsignedNumeral? read

theorem isVisible_of_contains {spellings : List String}
    (visible : spellings.all fun text => text.toList.all isVisible)
    (listed : spellings.contains (String.ofList characters)) : IsVisible characters := by
  have all := List.all_eq_true.mp visible _ (List.contains_iff_mem.mp listed)
  rw [String.toList_ofList] at all
  exact List.all_eq_true.mp all

theorem isVisible_of_isInfinity (infinite : isInfinity characters) : IsVisible characters :=
  isVisible_of_contains (by decide +kernel) infinite

theorem isVisible_of_float? {number : Float} (read : float? characters = some number) :
    IsVisible characters := by
  unfold float? at read
  split at read
  next notNumber => exact isVisible_of_contains (by decide +kernel) notNumber
  rcases Option.or_eq_some_iff.mp read with infinite | ⟨-, finite⟩
  · have spelled : ∀ {rest : List Char} {value : Float},
        (if isInfinity rest then some value else none) = some number → IsVisible rest := by
      intro rest value read
      split at read
      next infinite => exact isVisible_of_isInfinity infinite
      next => cases read
    split at infinite
    · exact isVisible_cons.mpr ⟨by decide, spelled infinite⟩
    · exact isVisible_cons.mpr ⟨by decide, spelled infinite⟩
    · exact spelled infinite
  · obtain ⟨numeral, read, -⟩ := Option.bind_eq_some_iff.mp finite
    exact isVisible_of_numeral? read

theorem isVisible_of_isMistakable (mistakable : isMistakable characters) :
    IsVisible characters := by
  simp only [isMistakable, Bool.or_eq_true, Option.isSome_iff_exists] at mistakable
  rcases mistakable with (((truth | absent) | integer) | zero) | ⟨_, read⟩
  · exact isVisible_of_contains (by decide +kernel) truth
  · exact isVisible_of_contains (by decide +kernel) absent
  · exact isVisible_of_isInteger integer
  · unfold hasNeedlessZeroAfterSign at zero
    split at zero
    · exact isVisible_cons.mpr ⟨by decide, isVisible_of_hasNeedlessZero zero⟩
    · exact isVisible_cons.mpr ⟨by decide, isVisible_of_hasNeedlessZero zero⟩
    · exact isVisible_of_hasNeedlessZero zero
  · exact isVisible_of_float? read

end Texts

end ChangeImpact.Yaml
