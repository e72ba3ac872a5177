/-
This file shows that plain scalars are read back up to the line break or colon that ends them.
-/

import ChangeImpact.Proofs.Yaml.Gap
import ChangeImpact.Yaml.Style

namespace ChangeImpact.Yaml

namespace Plain

/-- Nothing in these characters ends a plain scalar early, folds it or is left out of it. -/
structure IsKept (characters : List Char) : Prop where
  nonempty : characters ≠ []
  printable : ∀ character ∈ characters, Quoted.isPrintable character
  unbroken : ∀ character ∈ characters, isBreak character = false
  startsInside : startsWithSpace characters = false
  endsInside : endsWithSpace characters = false
  plain : hasIndicator characters = false

theorem IsKept.isGap_first {first : Char} {later : List Char} (kept : IsKept (first :: later)) :
    isGap first = false := by
  have printable := kept.printable first List.mem_cons_self
  have unbroken := kept.unbroken first List.mem_cons_self
  refine Bool.or_eq_false_iff.mpr ⟨Bool.eq_false_iff.mpr fun blank => ?_, unbroken⟩
  obtain rfl := eq_space_of_isBlank printable blank
  cases kept.startsInside

section Read

variable {characters stop rest : List Char} {indent : Nat} {broken : Bool}

/-- What ends a plain scalar. -/
def Stops (indent : Nat) (stop : List Char) (broken : Bool) (rest : List Char) : Prop :=
  text? false indent (.within []) stop = some ([], broken, rest)

theorem text?_append (stops : Stops indent stop broken rest) (nonempty : characters ≠ [])
    (printable : ∀ character ∈ characters, Quoted.isPrintable character)
    (unbroken : ∀ character ∈ characters, isBreak character = false) (blanks : List Char)
    (plain : hasInnerIndicator (!blanks.isEmpty) characters = false)
    (endsInside : endsWithSpace characters = false) :
    text? false indent (.within blanks) (characters ++ stop) =
      some (blanks ++ characters, broken, rest) := by
  induction characters generalizing blanks with
  | nil => exact absurd rfl nonempty
  | cons first later ih =>
      obtain ⟨firstPrintable, laterPrintable⟩ := List.forall_mem_cons.mp printable
      obtain ⟨firstUnbroken, laterUnbroken⟩ := List.forall_mem_cons.mp unbroken
      simp only [hasInnerIndicator, Bool.or_eq_false_iff] at plain
      obtain ⟨⟨noColon, noComment⟩, laterPlain⟩ := plain
      by_cases gap : isGap first
      · have space : first = ' ' := by
          refine eq_space_of_isBlank firstPrintable ?_
          simpa [isGap, firstUnbroken] using gap
        subst space
        have more : later ≠ [] := by
          rintro rfl
          exact absurd endsInside (by decide)
        have laterInside : endsWithSpace later = false := by
          obtain ⟨next, others, rfl⟩ := List.exists_cons_of_ne_nil more
          exact endsInside
        have afterGap : isGap ' ' = !(blanks ++ [' ']).isEmpty := by cases blanks <;> rfl
        have read := ih more laterPrintable laterUnbroken (blanks ++ [' '])
          (afterGap ▸ laterPlain) laterInside
        rw [List.cons_append, text?, if_pos gap, if_neg (by simp), Gap.add_space_within, read,
          List.append_assoc, List.singleton_append]
      · have goesOn : ends false indent (.within blanks) first (later ++ stop) = false := by
          have noColon : meetsColon first (later ++ stop) = false := by
            cases later with
            | nil => simp_all [meetsColon, startsWithGap]
            | cons => exact noColon
          have noComment : (first == '#' && !(Gap.within blanks).isEmpty) = false := by
            simpa [Gap.isEmpty, Gap.within] using noComment
          simp [ends, noColon, noComment, Gap.meetsBound]
        have read : text? false indent .empty (later ++ stop) = some (later, broken, rest) := by
          cases later with
          | nil => exact stops
          | cons next others =>
              refine ih (List.cons_ne_nil _ _) laterPrintable laterUnbroken [] ?_ endsInside
              simpa [gap] using laterPlain
        rw [List.cons_append, text?, if_neg gap, if_neg (by simp [goesOn]),
          if_neg (by simp [clashes]), read]
        rfl

/-- A colon before a gap ends a key. -/
theorem stops_colon (gap : startsWithGap rest) :
    Stops indent (':' :: rest) false (':' :: rest) := by
  have ended : ends false indent (.within []) ':' rest := by simp [ends, meetsColon, gap]
  rw [Stops, text?, if_neg (by decide), if_pos ended]
  rfl

theorem text?_indented {count : Nat} (blanks : List Char)
    (outside : ∀ first later, rest = first :: later →
      isGap first = false ∧ blanks.length + count < indent) :
    text? false indent ⟨['\n'], blanks, false⟩ (List.replicate count ' ' ++ rest) =
      some ([], true, rest) := by
  induction count generalizing blanks with
  | zero =>
      cases rest with
      | nil => rfl
      | cons first later =>
          obtain ⟨noGap, less⟩ := outside first later rfl
          rw [Nat.add_zero] at less
          have ended : ends false indent ⟨['\n'], blanks, false⟩ first later := by
            simp [ends, Gap.isBroken, Gap.column, less]
          simp only [List.replicate_zero, List.nil_append]
          rw [text?, if_neg (by simp [noGap]), if_pos ended]
          rfl
  | succ count ih =>
      rw [List.replicate_succ, List.cons_append, text?, if_pos (by decide), if_neg (by simp)]
      refine ih (blanks ++ [' ']) fun first later starts => ?_
      obtain ⟨noGap, less⟩ := outside first later starts
      exact ⟨noGap, by simp; omega⟩

/-- A line that is not indented far enough ends a plain scalar, and so does the end of the text. -/
theorem stops_line {count : Nat} (outside : ∀ first later, rest = first :: later →
    isGap first = false ∧ count < indent) :
    Stops indent ('\n' :: (List.replicate count ' ' ++ rest)) true rest := by
  rw [Stops, text?, if_pos (by decide), if_neg (by simp)]
  exact text?_indented [] (by simpa using outside)

/-- A kept text is read back with what ends it. -/
theorem IsKept.text?_append (kept : IsKept characters) (stops : Stops indent stop broken rest) :
    text? false indent .empty (characters ++ stop) = some (characters, broken, rest) := by
  refine Plain.text?_append stops kept.nonempty kept.printable kept.unbroken [] ?_ kept.endsInside
  have plain := kept.plain
  cases characters with
  | nil => rfl
  | cons first later =>
      simp only [hasIndicator, Bool.or_eq_false_iff] at plain
      obtain ⟨⟨-, notIndicator⟩, inner⟩ := plain
      have noColon : meetsColon first later = false := by
        by_cases colon : first = ':'
        · subst colon
          simpa [meetsColon] using notIndicator
        · simp [meetsColon, colon]
      simp [hasInnerIndicator, noColon, inner]

end Read

end Plain

end ChangeImpact.Yaml
