/-
This file shows that quoted scalars are read back up to the quote that closes them.
-/

import ChangeImpact.Proofs.Yaml.Gap
import ChangeImpact.Yaml.Style
import Mathlib.Algebra.Order.Ring.Nat
import Mathlib.Data.List.Basic

namespace ChangeImpact

namespace Hexadecimal

theorem value?_toUpper_digit {value : Nat} (small : value < 16) :
    value? (digit value).toUpper = some value := by
  have all : ∀ value < 16, value? (digit value).toUpper = some value := by decide
  exact all value small

theorem number?_append_singleton {digits : List Char} {last : Char} {number value : Nat}
    (before : number? digits = some number) (digit : value? last = some value) :
    number? (digits ++ [last]) = some (16 * number + value) := by
  simp only [number?, Option.pure_def, Option.bind_eq_bind, Option.bind_eq_some_iff,
    Option.some.injEq] at before ⊢
  obtain ⟨values, read, rfl⟩ := before
  exact ⟨values ++ [value], by simp [read, digit], by simp⟩

theorem number?_toDigits (number : Nat) :
    number? ((Nat.toDigits 16 number).map Char.toUpper) = some number := by
  induction number using Nat.strongRecOn with
  | ind number ih =>
      rw [Nat.toDigits_eq_if (by decide)]
      split
      next small =>
        have none : number? [] = some 0 := rfl
        have last := number?_append_singleton none (value?_toUpper_digit small)
        rwa [Nat.mul_zero, Nat.zero_add] at last
      next large =>
        have digit := value?_toUpper_digit (Nat.mod_lt number (by decide : 16 > 0))
        rw [List.map_append]
        refine (number?_append_singleton (ih (number / 16) (by omega)) digit).trans ?_
        rw [Nat.div_add_mod]

theorem number?_zeros_append (zeros : Nat) (digits : List Char) :
    number? (List.replicate zeros '0' ++ digits) = number? digits := by
  induction zeros with
  | zero => rfl
  | succ zeros ih =>
      have zero : value? '0' = some 0 := rfl
      rw [List.replicate_succ, List.cons_append, ← ih]
      generalize List.replicate zeros '0' ++ digits = digits
      cases read : digits.mapM value? <;> simp [number?, zero, read]

theorem number?_upperDigits (size number : Nat) :
    number? (upperDigits size number) = some number := by
  rw [upperDigits, number?_zeros_append, number?_toDigits]

theorem length_upperDigits {size number : Nat} (positive : 0 < size) (small : number < 16 ^ size) :
    (upperDigits size number).length = size := by
  have short := (Nat.length_toDigits_le_iff (by decide) positive).mpr small
  simp [upperDigits]
  omega

end Hexadecimal

namespace Yaml.Quoted

section Single

variable {character : Char} {gap : Gap} {rest : List Char}

theorem single?_gap (blank : isGap character) :
    single? gap (character :: rest) = single? (gap.add character) rest := by
  have notQuote : character ≠ '\'' := by
    rintro rfl
    exact absurd blank (by decide)
  rw [single?, if_pos blank]
  all_goals simp [notQuote]

/-- A character that is no gap, as it is written between single quotes. -/
theorem single?_spelled (noGap : isGap character = false)
    (inside : gap.meetsBound (character :: rest) = false) :
    single? gap ((if character == '\'' then ['\'', '\''] else [character]) ++ rest) =
      (single? .empty rest).map fun read => (gap.text ++ character :: read.1, read.2) := by
  by_cases quote : character = '\''
  · subst quote
    simp only [BEq.rfl, if_true, List.cons_append, List.nil_append, single?]
    cases single? .empty rest <;> rfl
  · rw [if_neg (by simpa using quote), List.singleton_append, single?, if_neg (by simp [noGap]),
      if_neg (by simp [inside])]
    · cases single? .empty rest <;> rfl
    all_goals simp [quote]

/-- Two spaces after a line break are no part of the text and keep a document from ending. -/
theorem single?_indented (breaks : List Char) :
    single? ⟨breaks, [], false⟩ (' ' :: ' ' :: rest) =
      single? ⟨breaks, [' ', ' '], false⟩ rest := by
  rw [single?_gap (by decide), single?_gap (by decide)]
  rfl

variable {characters : List Char}

/-- Nothing in these characters is lost between single quotes. -/
structure IsKept (characters : List Char) : Prop where
  printable : ∀ character ∈ characters, isPrintable character
  noSpaceBefore : hasSpaceBeforeBreak characters = false
  noSpaceAfter : hasSpaceAfterBreak characters = false

theorem IsKept.tail (kept : IsKept (character :: rest)) : IsKept rest where
  printable := (List.forall_mem_cons.mp kept.printable).2
  noSpaceBefore := (Bool.or_eq_false_iff.mp kept.noSpaceBefore).2
  noSpaceAfter := (Bool.or_eq_false_iff.mp kept.noSpaceAfter).2

/-- These characters are read back up to the closing quote, after blanks and after the line breaks
that they go on from. -/
structure IsReadBack (characters rest : List Char) : Prop where
  afterBlanks : ∀ blanks, (blanks ≠ [] → ∀ first ∈ characters.head?, isBreak first = false) →
    single? (.within blanks) (closeSingle [' ', ' '] false characters ++ rest) =
      some (blanks ++ characters, rest)
  afterBreaks : ∀ breaks, breaks ≠ [] → '\n' ∉ breaks → startsWithSpace characters = false →
    single? ⟨breaks, [], false⟩ (closeSingle [' ', ' '] true characters ++ rest) =
      some (breaks ++ characters, rest)

/-- The quote at the end closes the scalar unless another one follows. -/
theorem isReadBack_nil (closed : rest.head? ≠ some '\'') : IsReadBack [] rest := by
  have close (gap : Gap) : single? gap ('\'' :: rest) = some (gap.text, rest) := by
    rw [single?]
    rintro later rfl
    exact closed rfl
  constructor
  · intro blanks _
    simp [closeSingle, close]
  · intro breaks nonempty noFeed _
    have read := close ⟨breaks, [' ', ' '], false⟩
    rw [Gap.text_of_breaks nonempty noFeed] at read
    simpa [closeSingle, single?_indented] using read

variable {first : Char} {later : List Char}

/-- A line break other than a line feed joins those before it. -/
theorem IsReadBack.lineBreak (back : IsReadBack later rest) (breaksHere : isBreak first)
    (noFeed : first ≠ '\n') (text : startsWithSpace later = false) :
    IsReadBack (first :: later) rest := by
  have gapHere : isGap first := by simp [isGap, breaksHere]
  have spelled (broken : Bool) : closeSingle [' ', ' '] broken (first :: later) =
      first :: closeSingle [' ', ' '] true later := if_pos breaksHere
  constructor
  · intro blanks separate
    obtain rfl : blanks = [] := by
      by_contra present
      exact absurd breaksHere (by simp [separate present first rfl])
    rw [spelled, List.cons_append, single?_gap gapHere, Gap.add, if_pos breaksHere]
    exact back.afterBreaks [first] (by simp) (by simpa using noFeed.symm) text
  · intro breaks nonempty noFeeds _
    rw [spelled, List.cons_append, single?_gap gapHere, Gap.add, if_pos breaksHere]
    have read := back.afterBreaks (breaks ++ [first]) (by simp)
      (by simpa [noFeeds] using noFeed.symm) text
    rwa [List.append_assoc] at read

theorem closeSingle_append (unbroken : isBreak first = false) (broken : Bool)
    (later rest : List Char) :
    closeSingle [' ', ' '] broken (first :: later) ++ rest =
      (if broken then [' ', ' '] else []) ++
        ((if first == '\'' then ['\'', '\''] else [first]) ++
          (closeSingle [' ', ' '] false later ++ rest)) := by
  rw [closeSingle, if_neg (Bool.not_eq_true _ ▸ unbroken)]
  simp only [List.append_assoc]

/-- A space joins the blanks before it. No text goes on with a space after a line break. -/
theorem IsReadBack.space (back : IsReadBack later rest)
    (separate : ∀ next ∈ later.head?, isBreak next = false) : IsReadBack (' ' :: later) rest := by
  constructor
  · intro blanks _
    have read := back.afterBlanks (blanks ++ [' ']) fun _ => separate
    rw [closeSingle_append rfl]
    change single? (.within blanks) (' ' :: (closeSingle [' ', ' '] false later ++ rest)) = _
    rw [single?_gap (by decide), Gap.add_space_within, read, List.append_assoc]
    rfl
  · intro breaks _ _ starts
    exact absurd starts (by simp [startsWithSpace])

/-- Any other character ends the gap before it. -/
theorem IsReadBack.spelled (back : IsReadBack later rest) (noGap : isGap first = false) :
    IsReadBack (first :: later) rest := by
  have unbroken : isBreak first = false := (Bool.or_eq_false_iff.mp noGap).2
  have next := back.afterBlanks [] fun present => absurd rfl present
  constructor
  · intro blanks _
    rw [closeSingle_append unbroken, if_neg (by decide), List.nil_append,
      single?_spelled noGap (by simp [Gap.meetsBound]), Gap.empty_eq_within, next]
    rfl
  · intro breaks nonempty noFeeds _
    rw [closeSingle_append unbroken, if_pos rfl, List.cons_append, List.cons_append,
      List.nil_append, single?_indented, single?_spelled noGap (by simp [Gap.meetsBound]),
      Gap.empty_eq_within, next, Gap.text_of_breaks nonempty noFeeds]
    rfl

theorem IsKept.isReadBack (kept : IsKept characters) (closed : rest.head? ≠ some '\'') :
    IsReadBack characters rest := by
  induction characters with
  | nil => exact isReadBack_nil closed
  | cons first later ih =>
      have back := ih kept.tail
      have printable := (List.forall_mem_cons.mp kept.printable).1
      obtain ⟨spaceBefore, -⟩ := Bool.or_eq_false_iff.mp kept.noSpaceBefore
      obtain ⟨spaceAfter, -⟩ := Bool.or_eq_false_iff.mp kept.noSpaceAfter
      by_cases breaksHere : isBreak first
      · have noFeed : first ≠ '\n' := by
          rintro rfl
          exact absurd printable (by decide)
        exact back.lineBreak breaksHere noFeed (by simpa [breaksHere] using spaceAfter)
      by_cases space : first = ' '
      · subst space
        refine back.space fun next here => ?_
        simpa [Option.mem_def.mp here] using spaceBefore
      · have noBlank : ¬ isBlank first := fun blank => space (eq_space_of_isBlank printable blank)
        exact back.spelled (by simp [isGap, breaksHere, noBlank])

theorem IsKept.single?_closeSingle (kept : IsKept characters) (closed : rest.head? ≠ some '\'') :
    single? .empty (closeSingle [' ', ' '] false characters ++ rest) = some (characters, rest) :=
  (kept.isReadBack closed).afterBlanks [] fun present => absurd rfl present

end Single

section Double

/-- The digits of a code stand for its character. -/
theorem codeEscape?_upperDigits (size : Nat) (character : Char) :
    codeEscape? (Hexadecimal.upperDigits size character.toNat) = some character := by
  have valid : character.toNat.isValidChar := character.valid
  rw [codeEscape?, Hexadecimal.number?_upperDigits, Option.bind_eq_bind, Option.bind_some,
    if_pos valid, Char.ofNat_toNat]

variable {gap : Gap} {rest : List Char}

theorem double?_short {escape character : Char} (known : shortEscape? escape = some character)
    (unbroken : isBreak escape = false) (rest : List Char) :
    double? gap ('\\' :: escape :: rest) =
      (double? .empty rest).map fun read => (gap.text ++ character :: read.1, read.2) := by
  have noCode : escape ≠ 'x' ∧ escape ≠ 'u' ∧ escape ≠ 'U' := by
    refine ⟨?_, ?_, ?_⟩ <;>
    · rintro rfl
      cases known
  rw [double?, if_neg (by simp [unbroken]), known]
  · cases double? .empty rest <;> rfl
  all_goals simp [noCode]

theorem double?_space (blanks : List Char) :
    double? (.within blanks) (' ' :: rest) = double? (.within (blanks ++ [' '])) rest := by
  rw [double?, if_pos (by decide), Gap.add_space_within]
  all_goals simp

theorem exists_of_length_eq_four {digits : List Char} (length : digits.length = 4) :
    ∃ d₁ d₂ d₃ d₄, digits = [d₁, d₂, d₃, d₄] :=
  match digits, length with
  | [d₁, d₂, d₃, d₄], _ => ⟨d₁, d₂, d₃, d₄, rfl⟩

theorem exists_of_length_eq_eight {digits : List Char} (length : digits.length = 8) :
    ∃ d₁ d₂ d₃ d₄ d₅ d₆ d₇ d₈, digits = [d₁, d₂, d₃, d₄, d₅, d₆, d₇, d₈] :=
  match digits, length with
  | [d₁, d₂, d₃, d₄, d₅, d₆, d₇, d₈], _ => ⟨d₁, d₂, d₃, d₄, d₅, d₆, d₇, d₈, rfl⟩

theorem double?_visible (blanks : List Char) {character : Char}
    (visible : character ≠ '"' ∧ character ≠ '\\') (noGap : isGap character = false) :
    double? (.within blanks) (character :: rest) =
      (double? .empty rest).map fun read => (blanks ++ character :: read.1, read.2) := by
  rw [double?, if_neg (by simp [noGap]), if_neg (by simp [Gap.meetsBound])]
  · cases double? .empty rest <;> rfl
  all_goals simp [visible]

/-- A character is read as itself however it is written. -/
theorem double?_spell_append (blanks : List Char) {character : Char} (noSpace : character ≠ ' ') :
    double? (.within blanks) (spell character ++ rest) =
      (double? .empty rest).map fun read => (blanks ++ character :: read.1, read.2) := by
  unfold spell
  split
  iterate 14 exact double?_short rfl rfl rest
  next notFeed _ _ _ _ notQuote notBackslash _ notLine notParagraph =>
    simp only
    split
    next printable =>
      have noBlank : ¬ isBlank character := fun blank =>
        noSpace (eq_space_of_isBlank printable blank)
      have unbroken : isBreak character = false := by
        refine Bool.eq_false_iff.mpr fun breaks => ?_
        rcases isBreak_iff.mp breaks with feed | line | paragraph
        · exact notFeed feed
        · exact notLine line
        · exact notParagraph paragraph
      exact double?_visible blanks ⟨notQuote, notBackslash⟩ (by simp [isGap, unbroken, noBlank])
    split
    next small =>
      have length := Hexadecimal.length_upperDigits (by decide : 0 < 2) (Nat.lt_succ_of_le small)
      obtain ⟨d₁, d₂, digits⟩ := List.length_eq_two.mp length
      have escape := codeEscape?_upperDigits 2 character
      simp only [digits, List.cons_append, List.nil_append, double?] at escape ⊢
      rw [escape]
      cases double? .empty rest <;> rfl
    split
    next small =>
      have length := Hexadecimal.length_upperDigits (by decide : 0 < 4) (Nat.lt_succ_of_le small)
      obtain ⟨d₁, d₂, d₃, d₄, digits⟩ := exists_of_length_eq_four length
      have escape := codeEscape?_upperDigits 4 character
      simp only [digits, List.cons_append, List.nil_append, double?] at escape ⊢
      rw [escape]
      cases double? .empty rest <;> rfl
    next =>
      have small : character.toNat < 16 ^ 8 := character.val.toNat_lt
      have length := Hexadecimal.length_upperDigits (by decide : 0 < 8) small
      obtain ⟨d₁, d₂, d₃, d₄, d₅, d₆, d₇, d₈, digits⟩ := exists_of_length_eq_eight length
      have escape := codeEscape?_upperDigits 8 character
      simp only [digits, List.cons_append, List.nil_append, double?] at escape ⊢
      rw [escape]
      cases double? .empty rest <;> rfl

/-- Every text is read back from between double quotes. -/
theorem double?_closeDouble (characters rest : List Char) :
    double? .empty (closeDouble characters ++ rest) = some (characters, rest) := by
  have read : ∀ blanks, double? (.within blanks) (closeDouble characters ++ rest) =
      some (blanks ++ characters, rest) := by
    induction characters with
    | nil =>
        intro blanks
        simp [closeDouble, double?]
    | cons first later ih =>
        intro blanks
        have spelled : closeDouble (first :: later) ++ rest =
            spell first ++ (closeDouble later ++ rest) := by
          simp [closeDouble]
        rw [spelled]
        by_cases space : first = ' '
        · subst space
          change double? _ (' ' :: (closeDouble later ++ rest)) = _
          rw [double?_space, ih, List.append_assoc]
          rfl
        · rw [double?_spell_append blanks space, Gap.empty_eq_within, ih]
          rfl
  exact read []

end Double

end Yaml.Quoted

end ChangeImpact
