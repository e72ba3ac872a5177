/-
This file shows what gaps stand for and that printable characters are kept as they are.
-/

import ChangeImpact.Yaml.Quoted

namespace ChangeImpact.Yaml

section Characters

variable {character : Char}

theorem isBreak_iff : isBreak character ↔
    character = '\n' ∨ character = '\u2028' ∨ character = '\u2029' := by
  simp [isBreak, or_assoc]

theorem isBlank_iff : isBlank character ↔ character = ' ' ∨ character = '\t' := by
  simp [isBlank]

/-- The only blank that can be printed is the space. -/
theorem eq_space_of_isBlank (printable : Quoted.isPrintable character)
    (blank : isBlank character) : character = ' ' := by
  rcases isBlank_iff.mp blank with rfl | rfl
  · rfl
  · exact absurd printable (by decide)

/-- Line feeds and what can be printed are written without an escape. -/
def isWritten (character : Char) : Bool :=
  character == '\n' || Quoted.isPrintable character

theorem isAllowed_of_isWritten (written : isWritten character) : isAllowed character := by
  simp only [isWritten, Quoted.isPrintable, Bool.or_eq_true, Bool.and_eq_true, beq_iff_eq,
    decide_eq_true_eq] at written
  rcases written with rfl | printable
  · decide
  · simp only [isAllowed, Bool.or_eq_true, Bool.and_eq_true, decide_eq_true_eq]
    omega

/-- Text without carriage returns and next-line characters keeps its line breaks. -/
theorem unifyBreaks_eq_self {characters : List Char}
    (written : ∀ character ∈ characters, isWritten character) :
    unifyBreaks characters = characters := by
  induction characters with
  | nil => rfl
  | cons first rest ih =>
      obtain ⟨here, later⟩ := List.forall_mem_cons.mp written
      have notReturn : first ≠ '\r' := by
        rintro rfl
        exact absurd here (by decide)
      have notNextLine : first ≠ '\u0085' := by
        rintro rfl
        exact absurd here (by decide)
      rw [unifyBreaks, ih later]
      all_goals simp_all

end Characters

namespace Gap

variable {gap : Gap}

/-- A gap within a line: blanks alone. -/
def within (blanks : List Char) : Gap :=
  ⟨[], blanks, false⟩

@[simp]
theorem empty_eq_within : empty = within [] :=
  rfl

@[simp]
theorem text_within (blanks : List Char) : (within blanks).text = blanks :=
  rfl

@[simp]
theorem isBroken_within (blanks : List Char) : (within blanks).isBroken = false :=
  rfl

@[simp]
theorem add_space_within (blanks : List Char) :
    (within blanks).add ' ' = within (blanks ++ [' ']) :=
  rfl

/-- Line breaks other than line feeds are kept. -/
theorem text_of_breaks {breaks : List Char} (nonempty : breaks ≠ []) (kept : '\n' ∉ breaks)
    (blanks : List Char) : (Gap.mk breaks blanks false).text = breaks := by
  obtain ⟨first, further, rfl⟩ := List.exists_cons_of_ne_nil nonempty
  have other : first ≠ '\n' := fun same => kept (by simp [same])
  rw [text]
  simp [other]

end Gap

end ChangeImpact.Yaml
