/-
This file shows that a path ends with its last segment, which is also found from the end.
-/

import ChangeImpact.Text.Segment

namespace ChangeImpact.Text

theorem splitAt_eq_splitOn (separator : Char) (text : List Char) :
    splitAt separator text = text.splitOn separator := by
  induction text with
  | nil => rfl
  | cons character rest ih =>
      obtain ⟨part, parts, split⟩ :=
        List.exists_cons_of_ne_nil (List.splitOn_ne_nil separator rest)
      rw [splitAt, ih, List.splitOn_cons_eq_if_modifyHead, split]
      simp

/-- A path is cut into the segments that it was put together from. -/
theorem splitAt_intercalate {names : List String} (nonempty : names ≠ [])
    (undivided : ∀ name ∈ names, '/' ∉ name.toList) :
    splitAt '/' ("/".intercalate names).toList = names.map String.toList := by
  rw [splitAt_eq_splitOn, String.toList_intercalate]
  exact List.splitOn_intercalate '/' (by simpa using undivided) (by simpa using nonempty)

/-- A text that holds a separator can be cut at its last one. -/
theorem exists_last_of_mem {β : Type} {separator : β} {text : List β} (member : separator ∈ text) :
    ∃ before last, text = before ++ separator :: last ∧ separator ∉ last := by
  obtain ⟨reversed, others, same, apart⟩ :=
    List.eq_append_cons_of_mem (List.mem_reverse.mpr member)
  refine ⟨others.reverse, reversed.reverse, ?_, by rwa [List.mem_reverse]⟩
  rw [← List.reverse_reverse text, same]
  simp

/-- The last part of a text holds no separator, and it comes after one unless it is the whole
text. -/
theorem exists_getLast?_splitOn (separator : Char) (text : List Char) :
    ∃ last, (text.splitOn separator).getLast? = some last ∧ separator ∉ last ∧
      (text = last ∨ ∃ before, text = before ++ separator :: last) := by
  by_cases divided : separator ∈ text
  · obtain ⟨before, last, rfl, apart⟩ := exists_last_of_mem divided
    refine ⟨last, ?_, apart, .inr ⟨before, rfl⟩⟩
    rw [List.splitOn_append_cons_self, List.splitOn_eq_singleton apart, List.getLast?_concat]
  · exact ⟨text, by rw [List.splitOn_eq_singleton divided]; rfl, divided, .inl rfl⟩

section FromEnd

variable {β : Type} [DecidableEq β] {separator : β} {text before last : List β}

theorem ne_of_mem_reverse (apart : separator ∉ last) :
    ∀ item ∈ last.reverse, decide (item ≠ separator) = true := by
  intro item member
  rw [decide_eq_true_iff]
  rintro rfl
  exact apart (List.mem_reverse.mp member)

/-- What comes after the last separator is found from the end. -/
theorem reverse_takeWhile_reverse (apart : separator ∉ last)
    (place : text = last ∨ ∃ before, text = before ++ separator :: last) :
    (text.reverse.takeWhile (· ≠ separator)).reverse = last := by
  rcases place with rfl | ⟨before, rfl⟩
  · rw [← List.append_nil text.reverse, List.takeWhile_append_of_pos (ne_of_mem_reverse apart)]
    simp
  · rw [List.reverse_append, List.reverse_cons, List.append_assoc,
      List.takeWhile_append_of_pos (ne_of_mem_reverse apart)]
    simp

/-- So is the last separator with what comes before it. -/
theorem dropWhile_reverse (apart : separator ∉ last) :
    (before ++ separator :: last).reverse.dropWhile (· ≠ separator) =
      separator :: before.reverse := by
  rw [List.reverse_append, List.reverse_cons, List.append_assoc,
    List.dropWhile_append_of_pos (ne_of_mem_reverse apart)]
  simp

theorem dropWhile_reverse_of_not_mem (apart : separator ∉ text) :
    text.reverse.dropWhile (· ≠ separator) = [] := by
  rw [← List.append_nil text.reverse, List.dropWhile_append_of_pos (ne_of_mem_reverse apart)]
  rfl

end FromEnd

/-- A path is its last segment, or it ends with a slash and that segment. -/
theorem exists_lastSegment (path : String) :
    '/' ∉ (lastSegment path).toList ∧
      (path.toList = (lastSegment path).toList ∨
        ∃ directory, path.toList = directory ++ '/' :: (lastSegment path).toList) := by
  obtain ⟨last, found, apart, place⟩ := exists_getLast?_splitOn '/' path.toList
  have isLast : lastSegment path = String.ofList last := by
    rw [lastSegment, segments, splitAt_eq_splitOn, List.getLastD_eq_getLast?, List.getLast?_map,
      found]
    rfl
  rw [isLast, String.toList_ofList]
  exact ⟨apart, place⟩

end ChangeImpact.Text
