/-
This file shows what the extension and the directory of a path are.
-/

import ChangeImpact.ChangeSet.FilePath
import ChangeImpact.Proofs.Text.Segment
import Mathlib.Data.List.Basic
import Mathlib.Tactic.SplitIfs

namespace ChangeImpact.FilePath

section Extension

variable {path : FilePath} {name stem rest extension : List Char}

/-- A name whose only point comes first has no extension. -/
theorem extension?_of_name? (isName : path.name? = some (stem ++ '.' :: rest))
    (apart : '.' ∉ rest) : path.extension? = if stem = [] then none else some rest := by
  simp only [extension?, isName, Option.bind_eq_bind, Option.bind_some,
    Text.dropWhile_reverse apart, Text.reverse_takeWhile_reverse apart (.inr ⟨stem, rfl⟩)]
  cases reversed : stem.reverse with
  | nil => rw [if_pos (List.reverse_eq_nil_iff.mp reversed)]
  | cons last others =>
      rw [if_neg]
      rintro rfl
      cases reversed

theorem extension?_of_not_mem (isName : path.name? = some name) (pointless : '.' ∉ name) :
    path.extension? = none := by
  simp only [extension?, isName, Option.bind_eq_bind, Option.bind_some,
    Text.dropWhile_reverse_of_not_mem pointless]

/-- An extension comes after the last point of a name, and something stands before that point. -/
theorem extension?_eq_some_iff :
    path.extension? = some extension ↔
      ∃ stem, stem ≠ [] ∧ '.' ∉ extension ∧ path.name? = some (stem ++ '.' :: extension) := by
  constructor
  · intro found
    obtain ⟨name, isName, _⟩ := Option.bind_eq_some_iff.mp found
    by_cases pointed : '.' ∈ name
    · obtain ⟨stem, rest, rfl, apart⟩ := Text.exists_last_of_mem pointed
      rw [extension?_of_name? isName apart] at found
      split_ifs at found with isBare
      cases found
      exact ⟨stem, isBare, apart, isName⟩
    · rw [extension?_of_not_mem isName pointed] at found
      cases found
  · rintro ⟨stem, nonempty, apart, isName⟩
    rw [extension?_of_name? isName apart, if_neg nonempty]

end Extension

/-- A segment as it is usually written: not empty, without a slash, and not the current
directory. -/
structure IsPlain (segment : String) : Prop where
  nonempty : segment ≠ ""
  undivided : '/' ∉ segment.toList
  away : segment ≠ "."

section Plain

variable {segment : String} {names : List String}

theorem join_map_toList (names : List String) :
    join (names.map String.toList) = ("/".intercalate names).toList := by
  induction names with
  | nil => rfl
  | cons first rest ih =>
      cases rest with
      | nil => simp [join]
      | cons next rest =>
          rw [String.intercalate_cons_cons, String.toList_append, String.toList_append, ← ih]
          simp [join]

theorem IsPlain.isIdle_eq_false (plain : IsPlain segment) : isIdle segment.toList = false := by
  have nonempty : segment.toList ≠ "".toList := String.toList_inj.not.mpr plain.nonempty
  have away : segment.toList ≠ ".".toList := String.toList_inj.not.mpr plain.away
  rw [isIdle, Bool.or_eq_false_iff, beq_eq_false_iff_ne, beq_eq_false_iff_ne]
  exact ⟨nonempty, away⟩

theorem isIdle_eq_false_of_mem_map (plain : ∀ name ∈ names, IsPlain name) :
    ∀ segment ∈ names.map String.toList, isIdle segment = false := by
  rw [List.forall_mem_map]
  exact fun name member => (plain name member).isIdle_eq_false

theorem dropIdle_concat {segments : List (List Char)} {last : List Char}
    (stays : isIdle last = false) : dropIdle (segments ++ [last]) = segments ++ [last] := by
  rw [dropIdle, List.reverse_concat, List.dropWhile_cons_of_neg (by simp [stays])]
  simp

/-- Nothing is dropped from the end of a plain path. -/
theorem dropIdle_append_map (segments : List (List Char)) (nonempty : names ≠ [])
    (plain : ∀ name ∈ names, IsPlain name) :
    dropIdle (segments ++ names.map String.toList) = segments ++ names.map String.toList := by
  obtain ⟨others, last, rfl⟩ := (List.eq_nil_or_concat' names).resolve_left nonempty
  rw [List.map_append, ← List.append_assoc]
  exact dropIdle_concat (plain last (by simp)).isIdle_eq_false

theorem dropIdle_map (plain : ∀ name ∈ names, IsPlain name) :
    dropIdle (names.map String.toList) = names.map String.toList := by
  cases names with
  | nil => rfl
  | cons first rest => exact dropIdle_append_map [] (List.cons_ne_nil _ _) plain

theorem ofCharacters_of_plain {characters : List Char}
    (busy : ∀ segment ∈ Text.splitAt '/' characters, isIdle segment = false) :
    ofCharacters characters = ⟨[], dropIdle (Text.splitAt '/' characters)⟩ := by
  unfold ofCharacters
  split
  · exact absurd (busy [] (by simp [Text.splitAt])) (by decide)
  · exact absurd (busy ['.'] (by decide)) (by decide)
  · exact absurd (busy ['.'] (by simp [Text.splitAt])) (by decide)
  · rfl

theorem ofText_intercalate (nonempty : names ≠ []) (plain : ∀ name ∈ names, IsPlain name) :
    ofText ("/".intercalate names) = ⟨[], names.map String.toList⟩ := by
  have cut := Text.splitAt_intercalate nonempty fun name member => (plain name member).undivided
  rw [ofText, ofCharacters_of_plain, cut, dropIdle_map plain]
  rw [cut]
  exact isIdle_eq_false_of_mem_map plain

theorem ofText_here (nonempty : names ≠ []) (plain : ∀ name ∈ names, IsPlain name) :
    ofText ("./" ++ "/".intercalate names) = ⟨['.'], [] :: names.map String.toList⟩ := by
  have cut := Text.splitAt_intercalate nonempty fun name member => (plain name member).undivided
  have here (rest : List Char) :
      ofCharacters ("./".toList ++ rest) = ⟨['.'], dropIdle ([] :: Text.splitAt '/' rest)⟩ := rfl
  rw [ofText, String.toList_append, here, cut]
  exact congrArg _ (dropIdle_append_map [[]] nonempty plain)

/-- The directory of a file is everything before the last slash. -/
theorem parent?_ofText_intercalate (nonempty : names ≠ [])
    (plain : ∀ name ∈ names, IsPlain name) :
    (ofText ("/".intercalate names)).parent? = some ("/".intercalate names.dropLast).toList := by
  have plainBefore : ∀ name ∈ names.dropLast, IsPlain name :=
    fun name member => plain name (List.dropLast_subset names member)
  have filled : (names.map String.toList).isEmpty = false := by simpa using nonempty
  rw [ofText_intercalate nonempty plain, parent?, filled, ← List.map_dropLast,
    dropIdle_map plainBefore, join_map_toList]
  rfl

theorem parent?_ofText_here (nonempty : names ≠ []) (plain : ∀ name ∈ names, IsPlain name) :
    (ofText ("./" ++ "/".intercalate names)).parent? =
      some ("/".intercalate ("." :: names.dropLast)).toList := by
  have plainBefore : ∀ name ∈ names.dropLast, IsPlain name :=
    fun name member => plain name (List.dropLast_subset names member)
  have filled : names.map String.toList ≠ [] := by simpa using nonempty
  rw [ofText_here nonempty plain, parent?, List.dropLast_cons_of_ne_nil filled,
    ← List.map_dropLast]
  cases before : names.dropLast with
  | nil => rfl
  | cons first rest =>
      rw [before] at plainBefore
      have kept := dropIdle_append_map [[]] (List.cons_ne_nil _ _) plainBefore
      simp only [List.isEmpty_cons, Bool.false_eq_true, if_false]
      rw [List.singleton_append] at kept
      rw [kept, ← join_map_toList]
      simp [join]

end Plain

end ChangeImpact.FilePath
