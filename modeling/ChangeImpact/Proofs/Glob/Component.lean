/-
This file shows what is matched by patterns without alternatives, classes and directories: each part
of a path between slashes is matched by the part of the pattern in the same place.
-/

import ChangeImpact.Glob.Match
import ChangeImpact.Proofs.Distinct

namespace ChangeImpact.Glob

/-- A star stands for any run of bytes, a question mark for one byte, and every other character for
its own bytes. -/
def StandsFor (character : Char) (run : List UInt8) : Prop :=
  if character = '*' then True
  else if character = '?' then run.length = 1
  else run = characterBytes character

/-- A text is made of one run for each character, one after the other. -/
def MadeOf (stands : Char → List UInt8 → Prop) (characters : List Char) (text : List UInt8) : Prop :=
  ∃ runs, List.Forall₂ stands characters runs ∧ runs.flatten = text

/-- A part of a path fits a part of a pattern if it is made of what the characters stand for. -/
def Fits (component : List Char) (part : List UInt8) : Prop :=
  MadeOf StandsFor component part

/-- Pattern and path have as many parts, and each part of the path fits that of the pattern. -/
def CoversByParts (pattern : List Char) (path : List UInt8) : Prop :=
  List.Forall₂ Fits (pattern.splitOn '/') (path.splitOn slash)

/-- This is what a character means outside of alternatives, classes and directories. -/
def Piece.ofPlain (character : Char) : Piece :=
  if character = '*' then .star else if character = '?' then .any else .literal character

section Bytes

theorem toList_loop (array : ByteArray) (index : Nat) (read : List UInt8) :
    ByteArray.toList.loop array index read = read.reverse ++ array.data.toList.drop index := by
  fun_induction ByteArray.toList.loop array index read with
  | case1 index read inside ih =>
      have bound : index < array.data.toList.length := by simpa using inside
      rw [ih, List.drop_eq_getElem_cons bound]
      simp [ByteArray.get!, inside]
  | case2 index read outside =>
      rw [List.drop_eq_nil_of_le (by simpa using Nat.le_of_not_lt outside), List.append_nil]

theorem characterBytes_eq (character : Char) :
    characterBytes character = String.utf8EncodeChar character := by
  rw [characterBytes, String.toUTF8, String.toByteArray_singleton, List.utf8Encode_singleton,
    ByteArray.toList, toList_loop, List.toList_data_toByteArray]
  rfl

/-- The byte of an ASCII character occurs in no other character, as all bytes of longer ones are
large. -/
theorem mem_characterBytes_iff {mark character : Char} (isAscii : mark.toNat < 128) :
    UInt8.ofNat mark.toNat ∈ characterBytes character ↔ character = mark := by
  have isByte (value : Nat) :
      UInt8.ofNat mark.toNat = UInt8.ofNat value ↔ value % 256 = mark.toNat := by
    rw [← UInt8.toNat_inj, UInt8.toNat_ofNat', UInt8.toNat_ofNat', Nat.mod_eq_of_lt (by omega)]
    exact eq_comm
  have isMark : character = mark ↔ character.val.toNat = mark.toNat := by
    rw [← Char.toNat_inj]
    rfl
  rw [characterBytes_eq, String.utf8EncodeChar, isMark]
  split_ifs <;> simp only [List.mem_cons, List.not_mem_nil, or_false, isByte] <;> omega

theorem slash_mem_characterBytes_iff {character : Char} :
    slash ∈ characterBytes character ↔ character = '/' :=
  mem_characterBytes_iff (by decide : '/'.toNat < 128)

end Bytes

section Runs

variable {stands : Char → List UInt8 → Prop} {character : Char} {characters : List Char}
  {text : List UInt8}

theorem madeOf_nil_iff : MadeOf stands [] text ↔ text = [] := by
  simp [MadeOf, eq_comm]

theorem madeOf_cons_iff :
    MadeOf stands (character :: characters) text ↔
      ∃ run rest, stands character run ∧ MadeOf stands characters rest ∧ text = run ++ rest := by
  constructor
  · rintro ⟨_, runs, rfl⟩
    cases runs with
    | cons first others => exact ⟨_, _, first, ⟨_, others, rfl⟩, rfl⟩
  · rintro ⟨run, _, first, ⟨runs, others, rfl⟩, rfl⟩
    exact ⟨run :: runs, .cons first others, rfl⟩

end Runs

section Split

variable {β : Type} [BEq β] {separator : β} {text run first : List β} {rest : List (List β)}

theorem length_splitOn (separator : β) (text : List β) :
    (text.splitOn separator).length = text.count separator + 1 := by
  induction text with
  | nil => rfl
  | cons item text ih =>
      rw [List.splitOn_cons_eq_if_modifyHead, List.count_cons]
      split_ifs with isSeparator
      · simp [ih]
      · simp [ih]

variable [LawfulBEq β]

/-- An empty part before others ends at a separator. -/
theorem splitOn_eq_nil_cons_iff (others : rest ≠ []) :
    text.splitOn separator = [] :: rest ↔
      ∃ after, text = separator :: after ∧ after.splitOn separator = rest := by
  cases text with
  | nil => simp [others.symm]
  | cons item text =>
      rw [List.splitOn_cons_eq_if_modifyHead]
      split_ifs with isSeparator
      · rw [beq_iff_eq] at isSeparator
        simp [isSeparator]
      · rw [beq_iff_eq] at isSeparator
        obtain ⟨head, tail, split⟩ := List.exists_cons_of_ne_nil (List.splitOn_ne_nil separator text)
        simp [split, isSeparator]

/-- What the first part begins with is what the text begins with, if it holds no separator. -/
theorem splitOn_eq_append_cons_iff :
    text.splitOn separator = (run ++ first) :: rest ↔
      separator ∉ run ∧ ∃ after, text = run ++ after ∧ after.splitOn separator = first :: rest := by
  induction run generalizing text with
  | nil => simp
  | cons item run ih =>
      cases text with
      | nil => simp
      | cons next text =>
          rw [List.splitOn_cons_eq_if_modifyHead]
          split_ifs with isSeparator
          · rw [beq_iff_eq] at isSeparator
            subst isSeparator
            simp only [List.cons_append, List.cons.injEq, reduceCtorEq, false_and, List.mem_cons,
              not_or, false_iff]
            rintro ⟨⟨apart, _⟩, after, ⟨rfl, _⟩, _⟩
            exact apart rfl
          · rw [beq_iff_eq] at isSeparator
            obtain ⟨head, tail, split⟩ :=
              List.exists_cons_of_ne_nil (List.splitOn_ne_nil separator text)
            have inner := @ih text
            rw [split] at inner
            simp only [split, List.modifyHead_cons, List.cons_append, List.cons.injEq,
              List.mem_cons, not_or]
            grind

end Split

section Match

variable {character : Char} {pattern : List Char} {text rest : List UInt8}

/-- The run that a character stands for in a whole path holds no slash unless the character is one. -/
def Keeps (character : Char) (run : List UInt8) : Prop :=
  StandsFor character run ∧ (character = '/' ∨ slash ∉ run)

theorem mem_afterStart_iff {start : List UInt8} :
    rest ∈ afterStart start text ↔ text = start ++ rest := by
  unfold afterStart
  split_ifs with isStart
  · obtain ⟨after, rfl⟩ := List.isPrefixOf_iff_prefix.mp isStart
    simp [eq_comm]
  · simp only [List.not_mem_nil, false_iff]
    rintro rfl
    exact isStart (List.isPrefixOf_iff_prefix.mpr (List.prefix_append start rest))

theorem mem_afterRuns_iff :
    rest ∈ afterRuns text ↔ ∃ run, text = run ++ rest ∧ slash ∉ run := by
  induction text with
  | nil => simp [afterRuns]
  | cons byte text ih =>
      rw [afterRuns, List.mem_cons]
      constructor
      · rintro (rfl | later)
        · exact ⟨[], rfl, by simp⟩
        · split_ifs at later with isSlash
          · cases later
          · obtain ⟨run, rfl, clear⟩ := ih.mp later
            exact ⟨byte :: run, rfl, by simp [clear, Ne.symm isSlash]⟩
      · rintro ⟨run, same, clear⟩
        cases run with
        | nil => exact .inl same.symm
        | cons first run =>
            obtain ⟨rfl, rfl⟩ := List.cons.inj same
            rw [List.mem_cons, not_or] at clear
            rw [if_neg (Ne.symm clear.1)]
            exact .inr (ih.mpr ⟨run, rfl, clear.2⟩)

theorem mem_after_any_iff :
    rest ∈ Piece.any.after text ↔ ∃ byte, slash ≠ byte ∧ text = byte :: rest := by
  cases text with
  | nil => simp [Piece.after]
  | cons byte text =>
      simp only [Piece.after]
      split_ifs with isSlash
      · simp [isSlash]
      · simp [eq_comm, isSlash]

/-- A piece takes from the start of a text what its character stands for. -/
theorem mem_after_ofPlain_iff :
    rest ∈ (Piece.ofPlain character).after text ↔
      ∃ run, Keeps character run ∧ text = run ++ rest := by
  unfold Piece.ofPlain Keeps StandsFor
  split_ifs with isStar isAny
  · subst isStar
    simp only [Piece.after, mem_afterRuns_iff, true_and, (by decide : ¬ '*' = '/'), false_or]
    exact exists_congr fun run => and_comm
  · subst isAny
    simp only [mem_after_any_iff, (by decide : ¬ '?' = '/'), false_or, List.length_eq_one_iff]
    constructor
    · rintro ⟨byte, apart, rfl⟩
      exact ⟨[byte], ⟨⟨byte, rfl⟩, by simpa using apart⟩, rfl⟩
    · rintro ⟨_, ⟨⟨byte, rfl⟩, clear⟩, rfl⟩
      exact ⟨byte, by simpa using clear, rfl⟩
  · rw [Piece.after, mem_afterStart_iff]
    constructor
    · rintro rfl
      refine ⟨_, ⟨rfl, ?_⟩, rfl⟩
      rw [slash_mem_characterBytes_iff]
      exact em _
    · rintro ⟨_, ⟨rfl, _⟩, rfl⟩
      rfl

/-- Pieces take from the start of a text what their characters stand for, one after the other. -/
theorem mem_after_map_ofPlain_iff {texts : List (List UInt8)} :
    rest ∈ after texts (pattern.map Piece.ofPlain) ↔
      ∃ text ∈ texts, ∃ start, MadeOf Keeps pattern start ∧ text = start ++ rest := by
  induction pattern generalizing texts with
  | nil => simp [after, madeOf_nil_iff]
  | cons character pattern ih =>
      simp only [List.map_cons, after, ih, mem_distinct, List.mem_flatMap, mem_after_ofPlain_iff,
        madeOf_cons_iff]
      constructor
      · rintro ⟨_, ⟨text, member, run, keeps, rfl⟩, start, made, rfl⟩
        exact ⟨_, member, _, ⟨run, start, keeps, made, rfl⟩, (List.append_assoc _ _ _).symm⟩
      · rintro ⟨text, member, _, ⟨run, start, keeps, made, rfl⟩, rfl⟩
        exact ⟨_, ⟨_, member, run, keeps, List.append_assoc _ _ _⟩, start, made, rfl⟩

/-- A whole text is matched if it is made of what the characters stand for. -/
theorem matchesBytes_map_ofPlain_iff :
    matchesBytes (pattern.map Piece.ofPlain) text = true ↔ MadeOf Keeps pattern text := by
  have isPlain (character : Char) : Piece.ofPlain character ≠ .leadingDirectories := by
    unfold Piece.ofPlain
    split_ifs <;> exact Piece.noConfusion
  unfold matchesBytes
  split
  next directories =>
    obtain ⟨character, _, same⟩ := List.map_eq_singleton_iff.mp directories
    exact absurd same (isPlain character)
  next =>
    simp only [List.any_eq_true, List.isEmpty_iff, exists_eq_right, mem_after_map_ofPlain_iff,
      List.mem_singleton, exists_eq_left, List.append_nil, exists_eq_right']

theorem keeps_slash_iff {run : List UInt8} : Keeps '/' run ↔ run = [slash] := by
  simp only [Keeps, StandsFor, (by decide : ¬ '/' = '*'), (by decide : ¬ '/' = '?'), if_false,
    true_or, and_true, (by decide +kernel : characterBytes '/' = [slash])]

theorem coversByParts_nil_iff : CoversByParts [] text ↔ text = [] := by
  constructor
  · intro covers
    obtain ⟨part, _, fits, last, split⟩ := List.forall₂_cons_left_iff.mp covers
    rw [List.forall₂_nil_left_iff.mp last, madeOf_nil_iff.mp fits] at split
    rw [← @List.intercalate_splitOn UInt8 text _ _ slash, split]
    rfl
  · rintro rfl
    exact .cons (madeOf_nil_iff.mpr rfl) .nil

/-- A slash of the pattern stands for the slash between two parts. -/
theorem coversByParts_slash_iff :
    CoversByParts ('/' :: pattern) text ↔
      ∃ rest, CoversByParts pattern rest ∧ text = slash :: rest := by
  simp only [CoversByParts, List.splitOn_cons_eq_if_modifyHead, BEq.rfl, if_true,
    List.forall₂_cons_left_iff, Fits, madeOf_nil_iff]
  constructor
  · rintro ⟨_, parts, rfl, fits, split⟩
    have others : parts ≠ [] := by
      rintro rfl
      exact List.splitOn_ne_nil _ _ (List.forall₂_nil_right_iff.mp fits)
    obtain ⟨rest, rfl, rfl⟩ := (splitOn_eq_nil_cons_iff others).mp split
    exact ⟨rest, fits, rfl⟩
  · rintro ⟨rest, fits, rfl⟩
    exact ⟨_, _, rfl, fits, by simp [List.splitOn_cons_eq_if_modifyHead]⟩

/-- Any other character stands for a run at the front of the first part. -/
theorem coversByParts_cons_iff (inPart : character ≠ '/') :
    CoversByParts (character :: pattern) text ↔
      ∃ run rest, (StandsFor character run ∧ slash ∉ run) ∧ CoversByParts pattern rest ∧
        text = run ++ rest := by
  obtain ⟨component, components, split⟩ :=
    List.exists_cons_of_ne_nil (List.splitOn_ne_nil '/' pattern)
  simp only [CoversByParts, List.splitOn_cons_eq_if_modifyHead, beq_iff_eq, inPart, if_false,
    split, List.modifyHead_cons, List.forall₂_cons_left_iff, Fits, madeOf_cons_iff]
  constructor
  · rintro ⟨_, parts, ⟨run, others, stands, fits, rfl⟩, behind, same⟩
    obtain ⟨clear, rest, rfl, inner⟩ := splitOn_eq_append_cons_iff.mp same
    exact ⟨run, rest, ⟨stands, clear⟩, ⟨others, parts, fits, behind, inner⟩, rfl⟩
  · rintro ⟨run, rest, ⟨stands, clear⟩, ⟨others, parts, fits, behind, inner⟩, rfl⟩
    exact ⟨_, parts, ⟨run, others, stands, fits, rfl⟩, behind,
      splitOn_eq_append_cons_iff.mpr ⟨clear, rest, rfl, inner⟩⟩

/-- As no run leaves its part, a text is covered as a whole if it is covered part by part. -/
theorem madeOf_keeps_iff : MadeOf Keeps pattern text ↔ CoversByParts pattern text := by
  induction pattern generalizing text with
  | nil => rw [madeOf_nil_iff, coversByParts_nil_iff]
  | cons character pattern ih =>
      simp only [madeOf_cons_iff, ih]
      by_cases isSlash : character = '/'
      · subst isSlash
        simp [keeps_slash_iff, coversByParts_slash_iff]
      · simp only [coversByParts_cons_iff isSlash, Keeps, isSlash, false_or]

instance (pattern : List Char) (path : List UInt8) : Decidable (CoversByParts pattern path) :=
  decidable_of_iff (matchesBytes (pattern.map Piece.ofPlain) path = true)
    (matchesBytes_map_ofPlain_iff.trans madeOf_keeps_iff)

end Match

section Slashes

variable {character : Char} {pattern : List Char} {run : List UInt8} {runs : List (List UInt8)}

/-- A slash has to stand for itself, so that a run which a character stands for has at least its
slashes. If it has no more, then it keeps to its part. -/
theorem StandsFor.count_slash (stands : StandsFor character run) :
    [character].count '/' ≤ run.count slash ∧
      (run.count slash = [character].count '/' → Keeps character run) := by
  by_cases isSlash : character = '/'
  · subst isSlash
    have single := keeps_slash_iff.mp ⟨stands, .inl rfl⟩
    exact ⟨by rw [single]; decide, fun _ => ⟨stands, .inl rfl⟩⟩
  · rw [List.count_eq_zero.mpr (by simpa [eq_comm] using isSlash)]
    exact ⟨Nat.zero_le _, fun clear => ⟨stands, .inr (List.count_eq_zero.mp clear)⟩⟩

theorem count_slash_of_standsFor (stands : List.Forall₂ StandsFor pattern runs) :
    pattern.count '/' ≤ runs.flatten.count slash ∧
      (runs.flatten.count slash = pattern.count '/' → List.Forall₂ Keeps pattern runs) := by
  induction stands with
  | nil => exact ⟨Nat.le_refl 0, fun _ => .nil⟩
  | @cons character run pattern runs first _ ih =>
      obtain ⟨ownLe, ownKeeps⟩ := first.count_slash
      obtain ⟨otherLe, othersKeep⟩ := ih
      rw [List.flatten_cons, List.count_append, ← List.singleton_append, List.count_append]
      refine ⟨Nat.add_le_add ownLe otherLe, fun same => .cons (ownKeeps ?_) (othersKeep ?_)⟩
      · omega
      · omega

/-- However the characters of a pattern share out a path that is covered part by part, only slashes
take slashes: there are no others than those of the pattern. -/
theorem CoversByParts.keeps (covers : CoversByParts pattern runs.flatten)
    (stands : List.Forall₂ StandsFor pattern runs) : List.Forall₂ Keeps pattern runs := by
  have sameParts := List.Forall₂.length_eq covers
  rw [length_splitOn, length_splitOn] at sameParts
  exact (count_slash_of_standsFor stands).2 (Nat.succ.inj sameParts).symm

end Slashes

end ChangeImpact.Glob
