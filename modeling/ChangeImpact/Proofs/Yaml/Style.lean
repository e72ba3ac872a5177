/-
This file shows that the style of a text keeps all of it.
-/

import ChangeImpact.Proofs.Yaml.Block
import ChangeImpact.Proofs.Yaml.Plain
import ChangeImpact.Proofs.Yaml.Quoted
import ChangeImpact.Proofs.Yaml.Visible

namespace ChangeImpact.Yaml

section Unbroken

variable {characters : List Char}

theorem hasSpaceBeforeBreak_eq_false
    (unbroken : ∀ character ∈ characters, isBreak character = false) :
    hasSpaceBeforeBreak characters = false := by
  induction characters with
  | nil => rfl
  | cons first rest ih =>
      obtain ⟨-, later⟩ := List.forall_mem_cons.mp unbroken
      have next : rest.head?.any isBreak = false := by
        cases rest with
        | nil => rfl
        | cons => exact later _ List.mem_cons_self
      simp [hasSpaceBeforeBreak, ih later, next]

theorem hasSpaceAfterBreak_eq_false
    (unbroken : ∀ character ∈ characters, isBreak character = false) :
    hasSpaceAfterBreak characters = false := by
  induction characters with
  | nil => rfl
  | cons first rest ih =>
      obtain ⟨here, later⟩ := List.forall_mem_cons.mp unbroken
      simp [hasSpaceAfterBreak, ih later, here]

theorem Quoted.isKept_of_isVisible (visible : IsVisible characters) : IsKept characters :=
  have unbroken : ∀ character ∈ characters, isBreak character = false := fun character member =>
    (Bool.or_eq_false_iff.mp (isGap_eq_false_of_isVisible (visible character member))).2
  { printable := fun character member => isPrintable_of_isVisible (visible character member)
    noSpaceBefore := hasSpaceBeforeBreak_eq_false unbroken
    noSpaceAfter := hasSpaceAfterBreak_eq_false unbroken }

end Unbroken

/-- How a text can be written as a scalar without loss. -/
inductive IsWrittenAs (characters : List Char) : ScalarStyle → List Char → Prop
  | plain (kept : Plain.IsKept characters) : IsWrittenAs characters .plain characters
  | literal (nonempty : characters ≠ []) (written : isUnescaped characters) :
    IsWrittenAs characters .literal (Block.literal 2 characters)
  | singleQuoted (kept : Quoted.IsKept characters) :
    IsWrittenAs characters .singleQuoted
      ('\'' :: Quoted.closeSingle [' ', ' '] false characters)
  | doubleQuoted :
    IsWrittenAs characters .doubleQuoted ('"' :: Quoted.closeDouble characters)

theorem isWrittenAs_writeText (text : String) :
    IsWrittenAs text.toList (styleOf text.toList) (writeText text) := by
  unfold writeText
  generalize text.toList = characters
  simp only
  unfold styleOf
  by_cases mistakable : isMistakable characters
  · rw [if_pos mistakable]
    exact .singleQuoted (Quoted.isKept_of_isVisible (isVisible_of_isMistakable mistakable))
  rw [if_neg mistakable]
  by_cases feed : characters.contains '\n'
  · rw [if_pos feed]
    by_cases foldable : (isFoldable characters && !endsWithSpace characters)
    · rw [if_pos foldable]
      refine .literal ?_ ?_
      · rintro rfl
        cases feed
      · simp only [isFoldable, Bool.and_eq_true] at foldable
        exact foldable.1.1
    · rw [if_neg foldable]
      exact .doubleQuoted
  rw [if_neg feed]
  by_cases escaped : (!isFoldable characters || hasSpaceAfterBreak characters)
  · rw [if_pos escaped]
    exact .doubleQuoted
  rw [if_neg escaped]
  simp only [Bool.or_eq_true, Bool.not_eq_true', not_or, Bool.not_eq_false, isFoldable,
    Bool.and_eq_true] at escaped
  obtain ⟨⟨unescaped, noSpaceBefore⟩, noSpaceAfter⟩ := escaped
  have printable : ∀ character ∈ characters, Quoted.isPrintable character := by
    intro character member
    have noFeed : character ≠ '\n' := by
      rintro rfl
      exact feed (List.contains_iff_mem.mpr member)
    simpa [noFeed] using List.all_eq_true.mp unescaped character member
  split
  next =>
    exact .singleQuoted
      ⟨printable, by simpa using noSpaceBefore, by simpa using noSpaceAfter⟩
  next plain =>
    simp only [Bool.or_eq_true, not_or, Bool.not_eq_true] at plain
    obtain ⟨⟨⟨unbroken, startsInside⟩, endsInside⟩, noIndicator⟩ := plain
    have nonempty : characters ≠ [] := by
      rintro rfl
      exact mistakable (by decide +kernel)
    exact .plain ⟨nonempty, printable, by simpa [isMultiline] using unbroken, startsInside,
      endsInside, noIndicator⟩

section Written

variable {first : Char} {characters rest : List Char}

theorem isWritten_of_isPrintable (printable : Quoted.isPrintable first) : isWritten first := by
  rw [isWritten, printable, Bool.or_true]

theorem isUnescaped_cons : isUnescaped (first :: rest) ↔ isWritten first ∧ isUnescaped rest :=
  Bool.and_eq_true_iff

theorem isUnescaped_append :
    isUnescaped (characters ++ rest) ↔ isUnescaped characters ∧ isUnescaped rest := by
  rw [isUnescaped, List.all_append, Bool.and_eq_true]
  rfl

theorem isUnescaped_of_isPrintable
    (printable : ∀ character ∈ characters, Quoted.isPrintable character) :
    isUnescaped characters :=
  List.all_eq_true.mpr fun character member => isWritten_of_isPrintable (printable character member)

theorem isUnescaped_of_isVisible (visible : IsVisible characters) : isUnescaped characters :=
  isUnescaped_of_isPrintable fun character member =>
    isPrintable_of_isVisible (visible character member)

namespace Quoted

theorem isUnescaped_closeSingle {characters : List Char}
    (printable : ∀ character ∈ characters, isPrintable character) (broken : Bool) :
    isUnescaped (closeSingle [' ', ' '] broken characters) := by
  have indented : ∀ broken : Bool, isUnescaped (if broken then [' ', ' '] else []) := by decide
  induction characters generalizing broken with
  | nil => exact isUnescaped_append.mpr ⟨indented broken, by decide⟩
  | cons first rest ih =>
      obtain ⟨here, later⟩ := List.forall_mem_cons.mp printable
      have firstWritten := isWritten_of_isPrintable here
      rw [closeSingle]
      split
      · exact isUnescaped_cons.mpr ⟨firstWritten, ih later true⟩
      · refine isUnescaped_append.mpr
          ⟨isUnescaped_append.mpr ⟨indented broken, ?_⟩, ih later false⟩
        split
        · decide
        · exact isUnescaped_cons.mpr ⟨firstWritten, rfl⟩

theorem isVisible_upperDigits (size number : Nat) :
    IsVisible (Hexadecimal.upperDigits size number) := by
  have digit : ∀ value < 16, isVisible (Nat.digitChar value).toUpper := by decide
  have digits : IsVisible ((Nat.toDigits 16 number).map Char.toUpper) := by
    induction number using Nat.strongRecOn with
    | ind number ih =>
        rw [Nat.toDigits_eq_if (by decide)]
        split
        next small => exact isVisible_cons.mpr ⟨digit number small, List.forall_mem_nil _⟩
        next large =>
          rw [List.map_append]
          exact List.forall_mem_append.mpr ⟨ih (number / 16) (by omega),
            isVisible_cons.mpr ⟨digit _ (Nat.mod_lt number (by decide)), List.forall_mem_nil _⟩⟩
  refine List.forall_mem_append.mpr ⟨fun zero member => ?_, digits⟩
  rw [List.eq_of_mem_replicate member]
  decide

theorem isUnescaped_spell (character : Char) : isUnescaped (spell character) := by
  have code : ∀ letter size, isVisible letter →
      isUnescaped ('\\' :: letter :: Hexadecimal.upperDigits size character.toNat) := by
    intro letter size visible
    exact isUnescaped_of_isVisible (isVisible_cons.mpr
      ⟨by decide, isVisible_cons.mpr ⟨visible, isVisible_upperDigits size _⟩⟩)
  unfold spell
  split
  iterate 14 decide
  simp only
  split
  next printable => exact isUnescaped_cons.mpr ⟨isWritten_of_isPrintable printable, rfl⟩
  split
  · exact code 'x' 2 (by decide)
  split
  · exact code 'u' 4 (by decide)
  · exact code 'U' 8 (by decide)

theorem isUnescaped_closeDouble (characters : List Char) :
    isUnescaped (closeDouble characters) := by
  refine isUnescaped_append.mpr ⟨List.all_eq_true.mpr fun spelled member => ?_, by decide⟩
  obtain ⟨character, -, inside⟩ := List.mem_flatMap.mp member
  exact List.all_eq_true.mp (isUnescaped_spell character) spelled inside

end Quoted

namespace Block

theorem isUnescaped_indentLines {characters : List Char} (written : isUnescaped characters)
    (broken : Bool) : isUnescaped (indentLines [' ', ' '] broken characters) := by
  have indented : ∀ broken : Bool, isUnescaped (if broken then [' ', ' '] else []) := by decide
  induction characters generalizing broken with
  | nil => rfl
  | cons first rest ih =>
      obtain ⟨here, later⟩ := isUnescaped_cons.mp written
      rw [indentLines]
      split
      · exact isUnescaped_cons.mpr ⟨here, ih later true⟩
      · exact isUnescaped_append.mpr
          ⟨indented broken, isUnescaped_cons.mpr ⟨here, ih later false⟩⟩

theorem isUnescaped_literal {characters : List Char} (nonempty : characters ≠ [])
    (written : isUnescaped characters) : isUnescaped (literal 2 characters) := by
  obtain ⟨chomping, marks, -⟩ := exists_marks nonempty
  have mark : isUnescaped (endMark characters) := by
    simp only [Marks, List.mem_cons, Prod.mk.injEq, List.not_mem_nil, or_false] at marks
    rcases marks with ⟨mark, -⟩ | ⟨mark, -⟩ | ⟨mark, -⟩ <;> rw [mark] <;> decide
  have indent : isUnescaped (if hidesIndent characters then Nat.toDigits 10 2 else []) := by
    split <;> decide
  have lines := isUnescaped_indentLines written true
  refine isUnescaped_append.mpr ⟨isUnescaped_append.mpr ⟨?_, mark⟩, ?_⟩
  · exact isUnescaped_cons.mpr ⟨by decide, indent⟩
  · exact isUnescaped_cons.mpr ⟨by decide, lines⟩

end Block

/-- A text is written without anything that a reader could change. -/
theorem IsWrittenAs.isUnescaped {characters spelled : List Char} {style : ScalarStyle}
    (writtenAs : IsWrittenAs characters style spelled) : isUnescaped spelled := by
  cases writtenAs with
  | plain kept => exact isUnescaped_of_isPrintable kept.printable
  | literal nonempty written => exact Block.isUnescaped_literal nonempty written
  | singleQuoted kept =>
      exact isUnescaped_cons.mpr
        ⟨by decide, Quoted.isUnescaped_closeSingle kept.printable false⟩
  | doubleQuoted =>
      exact isUnescaped_cons.mpr ⟨by decide, Quoted.isUnescaped_closeDouble characters⟩

end Written

end ChangeImpact.Yaml
