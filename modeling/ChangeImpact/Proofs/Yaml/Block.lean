/-
This file shows that literal block scalars are read back up to the line that ends them.
-/

import ChangeImpact.Proofs.Yaml.Gap
import ChangeImpact.Yaml.Style
import Mathlib.Data.List.Basic
import Mathlib.Data.List.Induction

namespace ChangeImpact.Yaml.Block

section Lines

variable {chomping : Chomping}

/-- Lines that are indented by two spaces are read back up to the end of the last one, from within
a line and from the start of one. -/
structure IsReadBack (chomping : Chomping) (characters : List Char) : Prop where
  within : ∀ startsBlank, ∃ endsBlank, ∀ more,
    text? false chomping 2 (.within startsBlank)
        (indentLines [' ', ' '] false characters ++ more) =
      (text? false chomping 2 (.within endsBlank) more).map
        fun read => (characters ++ read.1, read.2)
  before : characters ≠ [] → ∀ separation, ∃ endsBlank, ∀ more,
    text? false chomping 2 (.before 0 separation)
        (indentLines [' ', ' '] true characters ++ more) =
      (text? false chomping 2 (.within endsBlank) more).map fun read =>
        (separation.ending ++ separation.further ++ characters ++ read.1, read.2)

theorem isReadBack_nil : IsReadBack chomping [] where
  within startsBlank := ⟨startsBlank, fun more => by simp [indentLines]⟩
  before nonempty := absurd rfl nonempty

variable {first : Char} {later : List Char}

theorem ne_of_isBreak (breaksHere : isBreak first) : first ≠ ' ' ∧ first ≠ '\t' := by
  constructor <;>
  · rintro rfl
    cases breaksHere

/-- A line break joins those since the last line. -/
theorem IsReadBack.lineBreak (back : IsReadBack chomping later) (breaksHere : isBreak first)
    (goesOn : later ≠ []) : IsReadBack chomping (first :: later) := by
  have spelled (broken : Bool) : indentLines [' ', ' '] broken (first :: later) =
      first :: indentLines [' ', ' '] true later := if_pos breaksHere
  obtain ⟨noSpace, noTab⟩ := ne_of_isBreak breaksHere
  constructor
  · intro startsBlank
    obtain ⟨endsBlank, read⟩ := back.before goesOn ⟨[first], [], startsBlank⟩
    refine ⟨endsBlank, fun more => ?_⟩
    rw [spelled, List.cons_append, text?, if_pos breaksHere, read]
    rfl
  · intro _ separation
    obtain ⟨endsBlank, read⟩ := back.before goesOn (separation.addBreak first)
    refine ⟨endsBlank, fun more => ?_⟩
    rw [spelled, List.cons_append, text?, if_neg (by simp [noSpace]), if_neg (by simp [noTab]),
      if_pos breaksHere, read]
    simp [Separation.addBreak]

/-- Any other character belongs to its line, which is indented if it starts there. -/
theorem IsReadBack.inLine (back : IsReadBack chomping later) (unbroken : ¬ isBreak first) :
    IsReadBack chomping (first :: later) := by
  have spelled (broken : Bool) : indentLines [' ', ' '] broken (first :: later) =
      (if broken then [' ', ' '] else []) ++ first :: indentLines [' ', ' '] false later :=
    if_neg unbroken
  constructor
  · intro startsBlank
    obtain ⟨endsBlank, read⟩ := back.within startsBlank
    refine ⟨endsBlank, fun more => ?_⟩
    rw [spelled, if_neg (by decide), List.nil_append, List.cons_append, text?, if_neg unbroken,
      read]
    cases text? false chomping 2 (.within endsBlank) more <;> rfl
  · intro _ separation
    obtain ⟨endsBlank, read⟩ := back.within (isBlank first)
    refine ⟨endsBlank, fun more => ?_⟩
    rw [spelled, if_pos rfl]
    simp only [List.cons_append, List.nil_append]
    rw [text?, if_pos (by decide), text?, if_pos (by decide), text?, if_neg (by simp),
      if_neg (by simp), if_neg unbroken, if_neg (by decide)]
    simp only [read]
    cases text? false chomping 2 (.within endsBlank) more <;>
      simp [Separation.text]

theorem isReadBack_of_ended {characters : List Char}
    (ended : ∀ last ∈ characters.getLast?, isBreak last = false) :
    IsReadBack chomping characters := by
  induction characters with
  | nil => exact isReadBack_nil
  | cons first later ih =>
      have back := ih fun last member => ended last (by
        simp only [Option.mem_def] at member ⊢
        rw [List.getLast?_cons, member]
        rfl)
      by_cases breaksHere : isBreak first
      · have goesOn : later ≠ [] := by
          rintro rfl
          exact absurd breaksHere (by simp [ended first rfl])
        exact back.lineBreak breaksHere goesOn
      · exact back.inLine breaksHere

theorem indentLines_of_breaks {breaks : List Char} (all : ∀ lineBreak ∈ breaks, isBreak lineBreak)
    (broken : Bool) : indentLines [' ', ' '] broken breaks = breaks := by
  induction breaks generalizing broken with
  | nil => rfl
  | cons first later ih =>
      obtain ⟨here, others⟩ := List.forall_mem_cons.mp all
      rw [indentLines, if_pos here, ih others]

/-- Line breaks at the end are not indented. -/
theorem indentLines_append_breaks {breaks : List Char}
    (all : ∀ lineBreak ∈ breaks, isBreak lineBreak) (broken : Bool) (characters : List Char) :
    indentLines [' ', ' '] broken (characters ++ breaks) =
      indentLines [' ', ' '] broken characters ++ breaks := by
  induction characters generalizing broken with
  | nil => exact indentLines_of_breaks all broken
  | cons first later ih =>
      simp only [List.cons_append, indentLines]
      split
      · rw [ih, List.cons_append]
      · rw [ih, List.append_assoc, List.cons_append]

/-- A text ends with its line breaks. -/
theorem exists_eq_append_breaks (characters : List Char) :
    ∃ body breaks, characters = body ++ breaks ∧ (∀ lineBreak ∈ breaks, isBreak lineBreak) ∧
      ∀ last ∈ body.getLast?, isBreak last = false := by
  induction characters using List.reverseRecOn with
  | nil => exact ⟨[], [], rfl, by simp, by simp⟩
  | append_singleton front last ih =>
      by_cases breaksHere : isBreak last
      · obtain ⟨body, breaks, rfl, all, ended⟩ := ih
        refine ⟨body, breaks ++ [last], List.append_assoc .., ?_, ended⟩
        simpa [or_imp, forall_and, breaksHere] using all
      · exact ⟨front ++ [last], [], (List.append_nil _).symm, by simp, by simpa using breaksHere⟩

variable {next : List Char}

/-- The line of what follows does not belong to a block. -/
def EndsBlock (next : List Char) : Prop :=
  ∀ first later, next = first :: later → isGap first = false

theorem text?_before_of_endsBlock (ends : EndsBlock next) (separation : Separation) :
    text? false chomping 2 (.before 0 separation) next =
      some (separation.final chomping, next) := by
  cases next with
  | nil => rfl
  | cons first later =>
      have noGap := ends first later rfl
      have noSpace : first ≠ ' ' := by
        rintro rfl
        exact absurd noGap (by decide)
      have noTab : first ≠ '\t' := by
        rintro rfl
        exact absurd noGap (by decide)
      have unbroken : isBreak first = false := (Bool.or_eq_false_iff.mp noGap).2
      rw [text?, if_neg (by simp [noSpace]), if_neg (by simp [noTab]), if_neg (by simp [unbroken]),
        if_pos (by decide)]

/-- Blank lines before the end are kept if all of them are to be. -/
theorem text?_before_breaks (ends : EndsBlock next) {breaks : List Char}
    (all : ∀ lineBreak ∈ breaks, isBreak lineBreak) (separation : Separation) :
    text? false .keep 2 (.before 0 separation) (breaks ++ next) =
      some (separation.ending ++ separation.further ++ breaks, next) := by
  induction breaks generalizing separation with
  | nil =>
      rw [List.nil_append, text?_before_of_endsBlock ends]
      simp [Separation.final]
  | cons first later ih =>
      obtain ⟨here, others⟩ := List.forall_mem_cons.mp all
      obtain ⟨noSpace, noTab⟩ := ne_of_isBreak here
      rw [List.cons_append, text?, if_neg (by simp [noSpace]), if_neg (by simp [noTab]),
        if_pos here, ih others]
      simp [Separation.addBreak]

variable {body : List Char} {lineBreak : Char}

theorem text?_within_break (ends : EndsBlock next) (breaks : isBreak lineBreak)
    (startsBlank : Bool) :
    text? false chomping 2 (.within startsBlank) (lineBreak :: next) =
      some (Separation.final chomping ⟨[lineBreak], [], startsBlank⟩, next) := by
  rw [text?, if_pos breaks, text?_before_of_endsBlock ends]

/-- The line break that ends the last line is dropped. -/
theorem text?_strip (ends : EndsBlock next) (nonempty : body ≠ [])
    (ended : ∀ last ∈ body.getLast?, isBreak last = false) :
    text? false .strip 2 (.before 0 .initial) (indentLines [' ', ' '] true body ++ '\n' :: next) =
      some (body, next) := by
  obtain ⟨endsBlank, read⟩ := (isReadBack_of_ended ended).before nonempty .initial
  rw [read, text?_within_break ends rfl]
  simp [Separation.final, Separation.initial]

/-- The line break that ends the last line is kept. -/
theorem text?_clip (ends : EndsBlock next) (nonempty : body ≠ [])
    (ended : ∀ last ∈ body.getLast?, isBreak last = false) (breaks : isBreak lineBreak) :
    text? false .clip 2 (.before 0 .initial)
        (indentLines [' ', ' '] true body ++ lineBreak :: next) =
      some (body ++ [lineBreak], next) := by
  obtain ⟨endsBlank, read⟩ := (isReadBack_of_ended ended).before nonempty .initial
  rw [read, text?_within_break ends breaks]
  simp [Separation.final, Separation.initial]

/-- All line breaks at the end are kept. -/
theorem text?_keep (ends : EndsBlock next) (ended : ∀ last ∈ body.getLast?, isBreak last = false)
    {breaks : List Char} (nonempty : breaks ≠ []) (all : ∀ lineBreak ∈ breaks, isBreak lineBreak) :
    text? false .keep 2 (.before 0 .initial)
        (indentLines [' ', ' '] true body ++ (breaks ++ next)) = some (body ++ breaks, next) := by
  by_cases none : body = []
  · subst none
    rw [indentLines, List.nil_append, text?_before_breaks ends all]
    rfl
  · obtain ⟨endsBlank, read⟩ := (isReadBack_of_ended ended).before none .initial
    obtain ⟨first, later, rfl⟩ := List.exists_cons_of_ne_nil nonempty
    obtain ⟨here, others⟩ := List.forall_mem_cons.mp all
    rw [read, List.cons_append, text?, if_pos here, text?_before_breaks ends others]
    simp [Separation.initial]

end Lines

/-- What ends the last line of a text, unless it ends with a line break. -/
def lineEnd (characters : List Char) : List Char :=
  if characters.getLast?.any isBreak then [] else ['\n']

/-- The mark at the end of a header and what it stands for. -/
def Marks (mark : List Char) (chomping : Chomping) : Prop :=
  (mark, chomping) ∈ [(['-'], .strip), (['+'], .keep), ([], Chomping.clip)]

/-- The mark of a text makes its lines be read back. -/
theorem exists_marks {characters : List Char} (nonempty : characters ≠ []) :
    ∃ chomping, Marks (endMark characters) chomping ∧ ∀ next, EndsBlock next →
      text? false chomping 2 (.before 0 .initial)
        (indentLines [' ', ' '] true characters ++ (lineEnd characters ++ next)) =
          some (characters, next) := by
  obtain ⟨body, breaks, rfl, all, ended⟩ := exists_eq_append_breaks characters
  simp only [indentLines_append_breaks all, List.append_assoc]
  rcases List.eq_nil_or_concat' breaks with rfl | ⟨front, lineBreak, rfl⟩
  · obtain ⟨front, last, rfl⟩ :=
      (List.eq_nil_or_concat' body).resolve_left (by simpa using nonempty)
    have unbroken : isBreak last = false := ended last (by simp)
    have mark : endMark (front ++ [last] ++ []) = ['-'] := by simp [endMark, unbroken]
    have newLine : lineEnd (front ++ [last] ++ []) = ['\n'] := by simp [lineEnd, unbroken]
    refine ⟨.strip, by rw [mark]; simp [Marks], fun next ends => ?_⟩
    rw [newLine, List.append_nil]
    exact text?_strip ends (by simp) ended
  · have breaksHere : isBreak lineBreak := all lineBreak (by simp)
    have newLine : lineEnd (body ++ (front ++ [lineBreak])) = [] := by
      simp [lineEnd, ← List.append_assoc, breaksHere]
    rw [newLine]
    by_cases single : front = [] ∧ body ≠ []
    · obtain ⟨rfl, present⟩ := single
      obtain ⟨before, last, rfl⟩ := (List.eq_nil_or_concat' body).resolve_left present
      have unbroken : isBreak last = false := ended last (by simp)
      have mark : endMark (before ++ [last] ++ ([] ++ [lineBreak])) = [] := by
        simp [endMark, breaksHere, unbroken]
      refine ⟨.clip, by rw [mark]; simp [Marks], fun next ends => ?_⟩
      exact text?_clip ends present ended breaksHere
    · have mark : endMark (body ++ (front ++ [lineBreak])) = ['+'] := by
        rcases List.eq_nil_or_concat' front with rfl | ⟨before, second, rfl⟩
        · obtain rfl : body = [] := by simpa using single
          simp [endMark, breaksHere]
        · have secondBreaks : isBreak second := all second (by simp)
          simp [endMark, breaksHere, secondBreaks]
      refine ⟨.keep, by rw [mark]; simp [Marks], fun next ends => ?_⟩
      exact text?_keep ends ended (by simp) all

namespace Header

theorem read?_of_marks {mark : List Char} {chomping : Chomping} (marks : Marks mark chomping)
    (lines : List Char) :
    read? (mark ++ '\n' :: lines) = some (⟨chomping, none⟩, lines) ∧
      read? ('2' :: mark ++ '\n' :: lines) = some (⟨chomping, some 2⟩, lines) := by
  simp only [Marks, List.mem_cons, Prod.mk.injEq, List.not_mem_nil, or_false] at marks
  rcases marks with ⟨rfl, rfl⟩ | ⟨rfl, rfl⟩ | ⟨rfl, rfl⟩ <;> exact ⟨rfl, rfl⟩

end Header

/-- A first line of text that does not hide its indentation shows it. -/
theorem widestColumn?_indentLines {characters : List Char} (nonempty : characters ≠ [])
    (noTab : characters.head? ≠ some '\t') (shown : hidesIndent characters = false)
    (rest : List Char) :
    widestColumn? 0 (indentLines [' ', ' '] true characters ++ rest) = some 2 := by
  obtain ⟨first, later, rfl⟩ := List.exists_cons_of_ne_nil nonempty
  simp only [hidesIndent, Bool.or_eq_false_iff, beq_eq_false_iff_ne, ne_eq] at shown
  have noTab : first ≠ '\t' := by simpa using noTab
  rw [indentLines, if_neg (by simp [shown.2]), if_pos rfl]
  simp only [List.cons_append, List.nil_append]
  rw [widestColumn?, widestColumn?, widestColumn?, if_neg (by simp [shown.2])]
  · simpa using shown.1
  · simpa using noTab

/-- A text is read back from a literal block in a collection that is not indented. -/
theorem read?_literal {characters next : List Char} (nonempty : characters ≠ [])
    (noTab : characters.head? ≠ some '\t') (ends : EndsBlock next) :
    ∃ block, literal 2 characters = '|' :: block ∧
      read? false (some 0) (block ++ (lineEnd characters ++ next)) = some (characters, next) := by
  obtain ⟨chomping, marks, read⟩ := exists_marks nonempty
  obtain ⟨shown, hidden⟩ := Header.read?_of_marks marks
    (indentLines [' ', ' '] true characters ++ (lineEnd characters ++ next))
  have digits : Nat.toDigits 10 2 = ['2'] := rfl
  have spaces : List.replicate 2 ' ' = [' ', ' '] := rfl
  refine ⟨(if hidesIndent characters then ['2'] else []) ++
    (endMark characters ++ '\n' :: indentLines [' ', ' '] true characters), ?_, ?_⟩
  · simp only [literal, digits, spaces, List.cons_append, List.append_assoc]
  cases hides : hidesIndent characters with
  | true =>
      simp only [if_true, List.cons_append, List.nil_append, List.append_assoc] at hidden ⊢
      rw [Block.read?, hidden]
      exact read next ends
  | false =>
      have widest := widestColumn?_indentLines nonempty noTab hides (lineEnd characters ++ next)
      simp only [List.nil_append, List.append_assoc, List.cons_append, Bool.false_eq_true,
        if_false]
      rw [Block.read?, shown]
      simp only [Option.bind_eq_bind, Option.bind_some, widest]
      exact read next ends

end ChangeImpact.Yaml.Block
