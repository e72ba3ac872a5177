/-
This file shows that a glob takes exactly the paths that it covers out of an analysis, except those
that lead back up at their end, which only a glob that is tested as a whole takes out.
-/

import ChangeImpact.Proofs.Glob.Name

namespace ChangeImpact.Glob

section Remainder

variable {text rest : List UInt8} {texts : List (List UInt8)}

theorem mem_afterSlashes_iff :
    rest ∈ afterSlashes text ↔ ∃ directory, text = directory ++ slash :: rest := by
  induction text with
  | nil => simp [afterSlashes]
  | cons byte text ih =>
      have inner : (∃ directory, byte :: text = directory ++ slash :: rest) ↔
          (byte = slash ∧ text = rest) ∨ ∃ directory, text = directory ++ slash :: rest := by
        constructor
        · rintro ⟨directory, same⟩
          cases directory with
          | nil => exact .inl (List.cons.inj same)
          | cons _ directory => exact .inr ⟨directory, (List.cons.inj same).2⟩
        · rintro (⟨rfl, rfl⟩ | ⟨directory, rfl⟩)
          · exact ⟨[], rfl⟩
          · exact ⟨byte :: directory, rfl⟩
      rw [inner, ← ih, afterSlashes]
      split_ifs with isSlash
      · simp [isSlash, eq_comm]
      · simp [isSlash]

theorem suffix_of_mem_afterAll (member : rest ∈ afterAll text) : rest <:+ text := by
  induction text with
  | nil => simpa [afterAll] using member
  | cons byte text ih =>
      rw [afterAll, List.mem_cons] at member
      rcases member with rfl | later
      · exact List.suffix_refl _
      · exact (ih later).trans (List.suffix_cons byte text)

theorem suffix_of_mem_afterSlash (member : rest ∈ afterSlash text) : rest <:+ text := by
  cases text with
  | nil => cases member
  | cons byte text =>
      rw [afterSlash] at member
      split_ifs at member
      · rw [List.mem_singleton.mp member]
        exact List.suffix_cons byte text
      · cases member

theorem suffix_of_mem_afterSlashes (member : rest ∈ afterSlashes text) : rest <:+ text := by
  obtain ⟨directory, rfl⟩ := mem_afterSlashes_iff.mp member
  exact (List.suffix_cons slash rest).trans (List.suffix_append directory _)

mutual

/-- What a piece leaves of a text is its end. -/
theorem Piece.suffix_of_mem_after (text : List UInt8) :
    ∀ (piece : Piece) {rest : List UInt8}, rest ∈ piece.after text → rest <:+ text
  | .literal character, rest, member => by
    rw [Piece.after, mem_afterStart_iff] at member
    rw [member]
    exact List.suffix_append _ rest
  | .any, rest, member => by
    obtain ⟨byte, _, rfl⟩ := mem_after_any_iff.mp member
    exact List.suffix_cons byte rest
  | .star, rest, member => by
    obtain ⟨run, rfl, _⟩ := mem_afterRuns_iff.mp (by rwa [Piece.after] at member)
    exact List.suffix_append run rest
  | .leadingDirectories, rest, member => by
    rw [Piece.after, List.mem_cons] at member
    rcases member with rfl | later
    · exact List.suffix_refl _
    · exact suffix_of_mem_afterSlashes later
  | .trailingPath, rest, member => by
    rw [Piece.after, List.mem_flatMap] at member
    obtain ⟨behind, isBehind, inside⟩ := member
    exact (suffix_of_mem_afterAll inside).trans (suffix_of_mem_afterSlash isBehind)
  | .innerDirectories, rest, member => by
    simp only [Piece.after, List.mem_flatMap, List.mem_cons] at member
    obtain ⟨behind, isBehind, rfl | later⟩ := member
    · exact suffix_of_mem_afterSlash isBehind
    · exact (suffix_of_mem_afterSlashes later).trans (suffix_of_mem_afterSlash isBehind)
  | .oneOf negated ranges, rest, member => by
    cases text with
    | nil => cases member
    | cons byte text =>
        rw [Piece.after] at member
        split_ifs at member
        · rw [List.mem_singleton.mp member]
          exact List.suffix_cons byte text
        · cases member
  | .alternatives branches, rest, member => by
    rw [Piece.after] at member
    split_ifs at member
    · obtain rfl := List.mem_singleton.mp member
      exact List.suffix_refl rest
    · obtain ⟨origin, isOrigin, isEnd⟩ := suffix_of_mem_afterBranches [text] branches member
      rwa [List.mem_singleton.mp isOrigin] at isEnd

theorem suffix_of_mem_after (texts : List (List UInt8)) :
    ∀ (pieces : List Piece) {rest : List UInt8}, rest ∈ after texts pieces →
      ∃ text ∈ texts, rest <:+ text
  | [], rest, member => ⟨rest, member, List.suffix_refl rest⟩
  | piece :: pieces, rest, member => by
    rw [after] at member
    obtain ⟨middle, isMiddle, isEnd⟩ := suffix_of_mem_after _ pieces member
    rw [mem_distinct, List.mem_flatMap] at isMiddle
    obtain ⟨text, isText, inside⟩ := isMiddle
    exact ⟨text, isText, isEnd.trans (Piece.suffix_of_mem_after text piece inside)⟩

theorem suffix_of_mem_afterBranches (texts : List (List UInt8)) :
    ∀ (branches : List (List Piece)) {rest : List UInt8}, rest ∈ afterBranches texts branches →
      ∃ text ∈ texts, rest <:+ text
  | [], rest, member => by cases member
  | branch :: branches, rest, member => by
    rw [afterBranches, List.mem_append] at member
    rcases member with first | later
    · split_ifs at first
      · cases first
      · exact suffix_of_mem_after texts branch first
    · exact suffix_of_mem_afterBranches texts branches later

end

theorem after_append (texts : List (List UInt8)) (first second : List Piece) :
    after texts (first ++ second) = after (after texts first) second := by
  induction first generalizing texts with
  | nil => rfl
  | cons piece first ih => rw [List.cons_append, after, after, ih]

/-- Fixed characters take their own bytes. -/
theorem mem_after_literals_iff {fixed : List Char} :
    rest ∈ after texts (fixed.map .literal) ↔ charactersBytes fixed ++ rest ∈ texts := by
  induction fixed generalizing texts with
  | nil => rfl
  | cons character fixed ih =>
      rw [List.map_cons, after, ih, mem_distinct, List.mem_flatMap]
      simp [Piece.after, mem_afterStart_iff, charactersBytes]

end Remainder

section Fixed

variable {text : List UInt8} {start : List Piece} {fixed : List Char}

/-- What stands before fixed characters has to leave just their bytes. -/
theorem matchesBytes_append_literals_iff (nonempty : fixed ≠ []) :
    matchesBytes (start ++ fixed.map .literal) text = true ↔
      charactersBytes fixed ∈ after [text] start := by
  have isMatch : matchesBytes (start ++ fixed.map .literal) text =
      (after [text] (start ++ fixed.map .literal)).any List.isEmpty := by
    unfold matchesBytes
    split
    next directories =>
      rw [← List.dropLast_concat_getLast nonempty] at directories
      simp [List.append_eq_singleton_iff] at directories
    next => rfl
  rw [isMatch, List.any_eq_true]
  simp only [List.isEmpty_iff, exists_eq_right, after_append, mem_after_literals_iff,
    List.append_nil]

theorem matchesBytes_directories_literals_iff (nonempty : fixed ≠ []) :
    matchesBytes (.leadingDirectories :: fixed.map .literal) text = true ↔
      text = charactersBytes fixed ∨
        ∃ directory, text = directory ++ slash :: charactersBytes fixed := by
  rw [← List.singleton_append, matchesBytes_append_literals_iff nonempty]
  simp only [after, mem_distinct, List.flatMap_singleton, Piece.after, List.mem_cons,
    mem_afterSlashes_iff]
  rw [eq_comm]

end Fixed

section Shape

variable {glob : Glob} {path : String} {pieces : List Piece} {fixed : List Char}

theorem eq_map_literal_of_literals? (found : literals? pieces = some fixed) :
    pieces = fixed.map .literal := by
  induction pieces generalizing fixed with
  | nil =>
      cases found
      rfl
  | cons piece pieces ih =>
      cases piece with
      | literal character =>
          obtain ⟨rest, others, rfl⟩ := Option.map_eq_some_iff.mp found
          rw [ih others, List.map_cons]
      | _ => cases found

/-- A fixed extension starts with its only point, holds no slash and ends the pattern. -/
theorem exists_of_literalExtension? (found : literalExtension? pieces = some fixed) :
    ∃ start rest, fixed = '.' :: rest ∧ '.' ∉ rest ∧ '/' ∉ rest ∧
      pieces.reverse = start ++ fixed.map .literal := by
  induction pieces generalizing fixed with
  | nil => cases found
  | cons piece pieces ih =>
      rw [literalExtension?.eq_def] at found
      split at found
      next same =>
        obtain ⟨rfl, rfl⟩ := List.cons.inj same
        cases found
        exact ⟨pieces.reverse, [], rfl, List.not_mem_nil, List.not_mem_nil, by simp⟩
      next character _ isPoint same =>
        obtain ⟨rfl, rfl⟩ := List.cons.inj same
        split_ifs at found with isSlash
        obtain ⟨shorter, earlier, rfl⟩ := Option.map_eq_some_iff.mp found
        obtain ⟨start, rest, rfl, noPoint, noSlash, place⟩ := ih earlier
        refine ⟨start, rest ++ [character], rfl, ?_, ?_, by simp [place]⟩
        · simpa [noPoint] using fun same => isPoint same.symm
        · simpa [noSlash] using Ne.symm isSlash
      next => cases found

/-- Patterns that do not end with a fixed extension are tested as a whole. -/
theorem extension_or_whole (pieces : List Piece) :
    (∃ start rest, '.' ∉ rest ∧ '/' ∉ rest ∧ pieces = start ++ ('.' :: rest).map .literal ∧
      ((literalExtension? pieces.reverse).map Shape.extension).getD .whole =
        .extension ('.' :: rest)) ∨
      ((literalExtension? pieces.reverse).map Shape.extension).getD .whole = .whole := by
  cases found : literalExtension? pieces.reverse with
  | none => exact .inr rfl
  | some fixed =>
      obtain ⟨start, rest, rfl, noPoint, noSlash, place⟩ := exists_of_literalExtension? found
      rw [List.reverse_reverse] at place
      exact .inl ⟨start, rest, noPoint, noSlash, place, rfl⟩

/-- This is all that the shape of a glob can say about its pieces. -/
theorem shape_cases (glob : Glob) :
    (∃ fixed, fixed ≠ [] ∧ '/' ∉ fixed ∧
      glob.pieces = .leadingDirectories :: fixed.map .literal ∧ glob.shape = .fileName fixed) ∨
    (∃ start rest, '.' ∉ rest ∧ '/' ∉ rest ∧
      glob.pieces = start ++ ('.' :: rest).map .literal ∧
      glob.shape = .extension ('.' :: rest)) ∨
    glob.shape = .whole := by
  unfold shape
  split
  next rest pieces =>
    split
    next first name read =>
      split_ifs with hasSlash
      · exact .inr (.inr rfl)
      · rw [eq_map_literal_of_literals? read] at pieces
        exact .inl ⟨_, List.cons_ne_nil _ _, hasSlash, pieces, rfl⟩
    next => exact .inr (.inr rfl)
    next =>
      rcases extension_or_whole rest with
        ⟨start, last, noPoint, noSlash, rfl, isExtension⟩ | isWhole
      · exact .inr (.inl ⟨_ :: start, last, noPoint, noSlash, pieces, isExtension⟩)
      · exact .inr (.inr isWhole)
  next =>
    split_ifs
    · exact .inr (.inr rfl)
    · exact .inr (extension_or_whole glob.pieces)

end Shape

section Excludes

variable {glob : Glob} {path : String} {start : List Piece} {fixed rest : List Char}

/-- A glob that is tested for a file name takes out what it covers, unless that leads back up. -/
theorem excludes_of_fileName (nonempty : fixed ≠ []) (noSlash : '/' ∉ fixed)
    (pieces : glob.pieces = .leadingDirectories :: fixed.map .literal)
    (shape : glob.shape = .fileName fixed) :
    glob.excludes path = true ↔ glob.covers path = true ∧ Text.lastSegment path ≠ ".." := by
  have excludes : glob.excludes path = true ↔
      fileName? (bytes path) = some (charactersBytes fixed) := by
    simp only [Glob.excludes, shape, beq_iff_eq]
  have covers : glob.covers path = true ↔ bytes path = charactersBytes fixed ∨
      ∃ directory, bytes path = directory ++ slash :: charactersBytes fixed := by
    rw [Glob.covers, pieces, matchesBytes_directories_literals_iff nonempty]
  rw [excludes, covers, fileName?_bytes]
  constructor
  · intro found
    split_ifs at found with isNameless
    rw [← Option.some.inj found]
    exact ⟨(exists_bytes_lastSegment path).2, (not_or.mp isNameless).2⟩
  · rintro ⟨place, named⟩
    have isLast := eq_bytes_lastSegment (slash_mem_charactersBytes_iff.not.mpr noSlash) place
    have isFilled : path ≠ "" := by
      rintro rfl
      exact charactersBytes_ne_nil nonempty (isLast.trans (by decide +kernel))
    rw [if_neg (not_or.mpr ⟨isFilled, named⟩), isLast]

/-- What a glob covers ends with the fixed characters at the end of its pattern. -/
theorem suffix_of_covers (nonempty : fixed ≠ [])
    (pieces : glob.pieces = start ++ fixed.map .literal) (covers : glob.covers path = true) :
    charactersBytes fixed <:+ bytes path := by
  rw [Glob.covers, pieces, matchesBytes_append_literals_iff nonempty] at covers
  obtain ⟨origin, isOrigin, isEnd⟩ := suffix_of_mem_after _ _ covers
  rwa [List.mem_singleton.mp isOrigin] at isEnd

/-- A glob that is tested for an extension takes out what it covers, unless that leads back up. -/
theorem excludes_of_extension (noPoint : '.' ∉ rest) (noSlash : '/' ∉ rest)
    (pieces : glob.pieces = start ++ ('.' :: rest).map .literal)
    (shape : glob.shape = .extension ('.' :: rest)) :
    glob.excludes path = true ↔ glob.covers path = true ∧ Text.lastSegment path ≠ ".." := by
  have excludes : glob.excludes path = true ↔
      (fileName? (bytes path)).bind extension? = some (charactersBytes ('.' :: rest)) ∧
        glob.covers path = true := by
    simp only [Glob.excludes, shape, Bool.and_eq_true, beq_iff_eq]
  rw [excludes]
  constructor
  · rintro ⟨found, covers⟩
    refine ⟨covers, fun leadsUp => ?_⟩
    rw [fileName?_bytes, if_pos (.inr leadsUp)] at found
    cases found
  · rintro ⟨covers, named⟩
    have isEnd := suffix_of_covers (List.cons_ne_nil _ _) pieces covers
    exact ⟨extension?_fileName? noPoint noSlash named isEnd, covers⟩

/-- A glob takes out what it covers. Only if it is tested as a whole, it also takes out a path that
leads back up at its end. -/
theorem excludes_iff (glob : Glob) (path : String) :
    glob.excludes path = true ↔
      glob.covers path = true ∧ (Text.lastSegment path = ".." → glob.shape = .whole) := by
  rcases shape_cases glob with ⟨fixed, nonempty, noSlash, pieces, shape⟩ |
    ⟨start, rest, noPoint, noSlash, pieces, shape⟩ | shape
  · rw [excludes_of_fileName nonempty noSlash pieces shape, shape]
    simp
  · rw [excludes_of_extension noPoint noSlash pieces shape, shape]
    simp
  · simp [Glob.excludes, shape]

end Excludes

end ChangeImpact.Glob
