/-
This file shows that the removal of repeated items keeps exactly the first occurrences.
-/

import ChangeImpact.Distinct
import Mathlib.Data.List.Induction
import Mathlib.Data.List.Nodup

namespace ChangeImpact

section Firsts

variable {α : Type} [BEq α]

/-- Of the items that count as equal the first one is kept, and the items that are kept stand in the
order in which they first occur. -/
structure KeepsFirsts (items kept : List α) : Prop where
  apart : kept.Pairwise fun item other => (item == other) = false
  covers : ∀ item, kept.contains item = items.contains item
  first : ∀ item ∈ kept, items.find? (· == item) = some item
  ordered : kept.Pairwise fun item other => items.idxOf item < items.idxOf other
  sublist : kept.Sublist items

theorem KeepsFirsts.nil : KeepsFirsts ([] : List α) [] := by
  constructor <;> simp

theorem KeepsFirsts.first_append {items kept : List α} (keeps : KeepsFirsts items kept)
    (others : List α) : ∀ item ∈ kept, (items ++ others).find? (· == item) = some item := by
  intro item member
  rw [List.find?_append, keeps.first item member, Option.some_or]

variable [EquivBEq α] {items kept : List α} {item : α}

theorem contains_eq_false_iff :
    items.contains item = false ↔ ∀ other ∈ items, (other == item) = false := by
  rw [List.contains_eq_any_beq, List.any_eq_false]
  simp only [BEq.comm, Bool.not_eq_true]

/-- What comes behind a list does not matter for where its items occur first. -/
theorem idxOf_append_of_occurs (member : item ∈ items) (others : List α) :
    (items ++ others).idxOf item = items.idxOf item := by
  have inside : items.findIdx (· == item) < items.length := List.idxOf_lt_length_of_mem member
  rw [List.idxOf, List.findIdx_append, if_pos inside]

theorem idxOf_concat_of_new (new : items.contains item = false) :
    (items ++ [item]).idxOf item = items.length := by
  have absent : items.findIdx (· == item) = items.length :=
    List.findIdx_eq_length_of_false (contains_eq_false_iff.mp new)
  simp [List.idxOf, List.findIdx_append, absent]

namespace KeepsFirsts

theorem ordered_append (keeps : KeepsFirsts items kept) (others : List α) :
    kept.Pairwise fun item other =>
      (items ++ others).idxOf item < (items ++ others).idxOf other := by
  refine keeps.ordered.imp_of_mem fun {item other} isItem isOther less => ?_
  rwa [idxOf_append_of_occurs (keeps.sublist.subset isItem),
    idxOf_append_of_occurs (keeps.sublist.subset isOther)]

/-- An item that has occurred is passed over. -/
theorem pass (keeps : KeepsFirsts items kept) (old : items.contains item = true) :
    KeepsFirsts (items ++ [item]) kept where
  apart := keeps.apart
  covers := by
    intro other
    rw [keeps.covers, List.contains_append, List.contains_cons, List.contains_nil, Bool.or_false]
    cases same : other == item with
    | true => rw [List.contains_congr same, old, Bool.true_or]
    | false => rw [Bool.or_false]
  first := keeps.first_append [item]
  ordered := keeps.ordered_append [item]
  sublist := keeps.sublist.trans (List.sublist_append_left items [item])

/-- An item that is new is kept behind the others. -/
theorem add (keeps : KeepsFirsts items kept) (new : items.contains item = false) :
    KeepsFirsts (items ++ [item]) (kept ++ [item]) where
  apart := by
    refine List.pairwise_append.mpr ⟨keeps.apart, List.pairwise_singleton _ _, ?_⟩
    intro other isOther last isLast
    rw [List.mem_singleton.mp isLast]
    exact contains_eq_false_iff.mp new other (keeps.sublist.subset isOther)
  covers := by
    intro other
    rw [List.contains_append, List.contains_append, keeps.covers]
  first := by
    intro other member
    rcases List.mem_append.mp member with isKept | isLast
    · exact keeps.first_append [item] other isKept
    · obtain rfl := List.mem_singleton.mp isLast
      have absent := List.find?_eq_none.mpr fun earlier isEarlier =>
        ne_true_of_eq_false (contains_eq_false_iff.mp new earlier isEarlier)
      rw [List.find?_append, absent, Option.none_or, List.find?_singleton, BEq.rfl]
      rfl
  ordered := by
    refine List.pairwise_append.mpr
      ⟨keeps.ordered_append [item], List.pairwise_singleton _ _, ?_⟩
    intro other isOther last isLast
    have isEarlier : other ∈ items := keeps.sublist.subset isOther
    rw [List.mem_singleton.mp isLast, idxOf_append_of_occurs isEarlier, idxOf_concat_of_new new]
    exact List.idxOf_lt_length_of_mem isEarlier
  sublist := keeps.sublist.append_right [item]

end KeepsFirsts

variable [Hashable α] [LawfulHashable α]

/-- The last item is kept exactly if neither an item seen before nor one in front of it equals
it. -/
theorem distinctBeyond_concat (seen : Std.HashSet α) (items : List α) (item : α) :
    distinctBeyond seen (items ++ [item]) =
      if seen.contains item || items.contains item then distinctBeyond seen items
      else distinctBeyond seen items ++ [item] := by
  induction items generalizing seen with
  | nil => simp [distinctBeyond]
  | cons head rest ih =>
      rw [List.cons_append, distinctBeyond, distinctBeyond, ih, ih]
      cases old : seen.contains head with
      | true =>
          -- An item equal to the head has been seen, since the head has.
          have same : (seen.contains item || (head :: rest).contains item) =
              (seen.contains item || rest.contains item) := by
            rw [List.contains_cons]
            cases equal : item == head with
            | true => rw [Std.HashSet.contains_congr equal, old, Bool.true_or, Bool.true_or]
            | false => rw [Bool.false_or]
          rw [if_pos rfl, if_pos rfl, same]
      | false =>
          have same : ((seen.insert head).contains item || rest.contains item) =
              (seen.contains item || (head :: rest).contains item) := by
            rw [Std.HashSet.contains_insert, List.contains_cons, BEq.comm,
              Bool.or_comm (item == head), Bool.or_assoc]
          simp only [Bool.false_eq_true, if_false, same]
          split_ifs <;> rfl

theorem distinct_concat (items : List α) (item : α) :
    distinct (items ++ [item]) =
      if items.contains item then distinct items else distinct items ++ [item] := by
  rw [distinct, distinctBeyond_concat, Std.HashSet.contains_empty, Bool.false_or]
  rfl

theorem keepsFirsts_distinct (items : List α) : KeepsFirsts items (distinct items) := by
  induction items using List.reverseRecOn with
  | nil => exact .nil
  | append_singleton items item ih =>
      rw [distinct_concat]
      cases old : items.contains item with
      | true => exact ih.pass old
      | false => exact ih.add old

/-- Nothing is removed where no two items are equal. -/
theorem distinct_of_apart (apart : items.Pairwise fun item other => (item == other) = false) :
    distinct items = items := by
  induction items using List.reverseRecOn with
  | nil => rfl
  | append_singleton items item ih =>
      obtain ⟨earlier, _, last⟩ := List.pairwise_append.mp apart
      have new : items.contains item = false := contains_eq_false_iff.mpr fun other member =>
        last other member item (List.mem_singleton_self item)
      rw [distinct_concat, new, if_neg Bool.false_ne_true, ih earlier]

theorem distinct_append_eq_filter (items others : List α) :
    distinct (items ++ others) =
      distinct items ++ (distinct others).filter fun item => !items.contains item := by
  induction others using List.reverseRecOn with
  | nil =>
      rw [List.append_nil]
      exact (List.append_nil _).symm
  | append_singleton others item ih =>
      rw [← List.append_assoc, distinct_concat, distinct_concat, List.contains_append, ih]
      cases old : items.contains item <;> cases repeated : others.contains item <;>
        simp [old, List.filter_append]

end Firsts

section EraseDups

variable {α : Type} [BEq α] [LawfulBEq α]

/-- An item at the end is kept only if it is new. -/
theorem eraseDups_concat (items : List α) (item : α) :
    (items ++ [item]).eraseDups =
      if item ∈ items then items.eraseDups else items.eraseDups ++ [item] := by
  rw [List.eraseDups_append]
  split_ifs with old
  · simp [List.removeAll, old]
  · simp [List.removeAll, old, List.eraseDups_cons]

end EraseDups

section Lawful

variable {α : Type} [BEq α] [Hashable α] [LawfulBEq α] [LawfulHashable α]

theorem distinct_eq_eraseDups (items : List α) : distinct items = items.eraseDups := by
  induction items using List.reverseRecOn with
  | nil => rfl
  | append_singleton items item ih =>
      rw [distinct_concat, eraseDups_concat, ih]
      simp only [List.contains_iff_mem]

/-- Of further items those are added that have not been there. -/
theorem distinct_append (items others : List α) :
    distinct (items ++ others) =
      distinct items ++ (distinct others).filter fun item => !(distinct items).contains item := by
  simp only [distinct_append_eq_filter, (keepsFirsts_distinct items).covers]

@[simp] theorem mem_distinct {items : List α} {item : α} :
    item ∈ distinct items ↔ item ∈ items := by
  rw [distinct_eq_eraseDups, List.mem_eraseDups]

theorem distinct_nodup (items : List α) : (distinct items).Nodup :=
  (keepsFirsts_distinct items).apart.imp ne_of_beq_false

end Lawful

/-- The removal of repetitions keeps of the items that count as equal the first one, in the order of
the first occurrences. A second removal changes nothing. Of further items it keeps, behind the
others, what it keeps of them alone and what equals none of the items in front. -/
theorem distinct_firstOccurrences {α : Type} [BEq α] [EquivBEq α] [Hashable α] [LawfulHashable α]
    (items others : List α) :
    KeepsFirsts items (distinct items) ∧
      distinct (distinct items) = distinct items ∧
      distinct (items ++ others) =
        distinct items ++ (distinct others).filter fun item => !items.contains item := by
  have keeps : KeepsFirsts items (distinct items) := keepsFirsts_distinct items
  exact ⟨keeps, distinct_of_apart keeps.apart, distinct_append_eq_filter items others⟩

/-- Of these names the second and the fifth one have occurred before. -/
theorem distinct_firstOccurrences_names :
    KeepsFirsts ["b", "b", "a", "c", "a"] ["b", "a", "c"] ∧
      distinct ["b", "a", "c"] = ["b", "a", "c"] ∧
      distinct (["b", "b", "a"] ++ ["c", "a"]) = ["b", "a"] ++ ["c"] := by
  have all : distinct ["b", "b", "a", "c", "a"] = ["b", "a", "c"] := by
    rw [distinct_eq_eraseDups]
    decide
  obtain ⟨keeps, again, _⟩ := distinct_firstOccurrences ["b", "b", "a", "c", "a"] []
  obtain ⟨_, _, append⟩ := distinct_firstOccurrences ["b", "b", "a"] ["c", "a"]
  rw [all] at keeps again
  refine ⟨keeps, again, append.trans ?_⟩
  rw [distinct_eq_eraseDups, distinct_eq_eraseDups]
  decide

end ChangeImpact
