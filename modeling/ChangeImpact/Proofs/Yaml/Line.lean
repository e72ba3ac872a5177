/-
This file shows which tokens are read from the lines of fields, lists and records.
-/

import ChangeImpact.Proofs.Yaml.Layout
import ChangeImpact.Proofs.Yaml.Number

namespace ChangeImpact.Yaml

/-- The start of a line whose indentation has been read, and the tokens before it. -/
structure Line where
  rest : List Char
  column : Nat
  blocks : List Nat
  tokens : List Token

namespace Line

open Layout

def layout (line : Line) (number : Nat) : Layout :=
  inBlock line.rest ⟨number, line.column⟩ line.blocks true none line.tokens

/-- From one line on the text is read up to another, whatever their numbers are. -/
def Leads (line next : Line) : Prop :=
  ∀ number, ∃ later, Layout.Leads (line.layout number) (next.layout later)

theorem Leads.refl (line : Line) : line.Leads line :=
  fun number => ⟨number, .refl _⟩

theorem Leads.trans {line middle last : Line} (first : line.Leads middle)
    (second : middle.Leads last) : line.Leads last := by
  intro number
  obtain ⟨later, toMiddle⟩ := first number
  obtain ⟨latest, toLast⟩ := second later
  exact ⟨latest, toMiddle.trans toLast⟩

section Gaps

variable {next : List Char} {blocks : List Nat} {tokens : List Token} {position : Position}
  {keyAllowed : Bool}

theorem foldl_after_newLine (position : Position) (count : Nat) :
    ('\n' :: List.replicate count ' ').foldl Position.after position =
      ⟨position.line + 1, count⟩ := by
  have unbroken : ∀ space ∈ List.replicate count ' ', isBreak space = false := by
    intro space member
    rw [List.eq_of_mem_replicate member]
    rfl
  rw [List.foldl_cons, Position.foldl_after_of_unbroken unbroken]
  simp [Position.after, isBreak]

/-- A key cannot end in a later line. -/
theorem leads_stale (starts : Starts next) {gap : List Char} {place : Position}
    (blank : ∀ character ∈ gap, character = ' ' ∨ character = '\n')
    (reached : gap.foldl Position.after position = place) {possibleKey : Option PossibleKey}
    (stale : ∀ key ∈ possibleKey, key.required = false ∧ key.position.line < place.line) :
    Layout.Leads (inBlock (gap ++ next) position blocks keyAllowed possibleKey tokens)
      (inBlock next place blocks (keyAllowed || gap.any isBreak) none tokens) := by
  have forgotten : possibleKey.filter (canEnd · place) = none := by
    refine Option.filter_eq_none_iff.mpr fun key member => ?_
    have before := (stale key member).2
    simp only [canEnd, Bool.and_eq_true, beq_iff_eq, not_and]
    omega
  rw [← forgotten]
  exact leads_gap starts blank reached fun key member required =>
    absurd required (by simp [(stale key member).1])

theorem leads_forget (starts : Starts next) {possibleKey : Option PossibleKey}
    (stale : ∀ key ∈ possibleKey, key.required = false ∧ key.position.line < position.line) :
    Layout.Leads (inBlock next position blocks keyAllowed possibleKey tokens)
      (inBlock next position blocks keyAllowed none tokens) := by
  have read : Layout.Leads (inBlock ([] ++ next) position blocks keyAllowed possibleKey tokens) _ :=
    leads_stale starts (List.forall_mem_nil _) rfl stale
  simpa using read

theorem leads_newLine (starts : Starts next) {count : Nat} {possibleKey : Option PossibleKey}
    (stale : ∀ key ∈ possibleKey, key.required = false ∧ key.position.line ≤ position.line) :
    Layout.Leads
      (inBlock ('\n' :: (List.replicate count ' ' ++ next)) position blocks keyAllowed possibleKey
        tokens)
      ((Line.mk next count blocks tokens).layout (position.line + 1)) := by
  have blank : ∀ character ∈ '\n' :: List.replicate count ' ',
      character = ' ' ∨ character = '\n' := by
    intro character member
    rcases List.mem_cons.mp member with rfl | space
    · exact .inr rfl
    · exact .inl (List.eq_of_mem_replicate space)
  have read : Layout.Leads
      (inBlock ('\n' :: List.replicate count ' ' ++ next) position blocks keyAllowed possibleKey
        tokens) _ :=
    leads_stale starts blank (foldl_after_newLine position count) fun key member =>
      ⟨(stale key member).1, Nat.lt_succ_of_le (stale key member).2⟩
  simpa [layout, isBreak] using read

end Gaps

section Fields

/-- The tokens of a key with a plain name. -/
def keyTokens (name : String) : List Token :=
  [.key, .scalar .plain name, .value]

variable {name : String} {rest next : List Char} {column count : Nat} {blocks : List Nat}
  {tokens : List Token}

/-- The names that need no quotes and are short enough for a key. -/
structure IsName (name : String) : Prop where
  kept : Plain.IsKept name.toList
  short : name.toList.length ≤ 1024

/-- A letter and then letters, digits, hyphens and underscores. -/
def isSimple (name : String) : Bool :=
  match name.toList with
  | [] => false
  | first :: rest => first.isAlpha && rest.all isWord && rest.length < 1024

theorem isName_of_isSimple {name : String} (simple : isSimple name) : IsName name := by
  unfold isSimple at simple
  split at simple
  next => cases simple
  next first rest spelled =>
    simp only [Bool.and_eq_true, decide_eq_true_eq] at simple
    obtain ⟨⟨letter, words⟩, short⟩ := simple
    have noHyphen : first ≠ '-' := by
      rintro rfl
      cases letter
    have noPoint : first ≠ '.' := by
      rintro rfl
      cases letter
    have here : isNumeric first := by simp [isNumeric, isWord, Char.isAlphanum, letter]
    have later : rest.all isNumeric := List.all_eq_true.mpr fun character member => by
      simp [isNumeric, List.all_eq_true.mp words character member]
    refine ⟨spelled ▸ Plain.isKept_of_isNumeric ?_ ?_ ?_, ?_⟩
    · rw [List.all_cons, here, later, Bool.and_self]
    · simp [noHyphen, noPoint]
    · exact fun hyphen => absurd hyphen noHyphen
    · rw [spelled, List.length_cons]
      exact short

theorem IsName.starts (named : IsName name) (rest : List Char) : Starts (name.toList ++ rest) :=
  starts_of_isKept named.kept rest

theorem head?_blocksAt (inside : ∀ block ∈ blocks.head?, block ≤ column) :
    (blocksAt column blocks).head? = some column := by
  cases blocks with
  | nil => rfl
  | cons block others =>
      have left : block ≤ column := inside block rfl
      rcases Nat.lt_or_eq_of_le left with less | rfl <;> simp_all [blocksAt]

/-- A name before a colon starts a field of the mapping at its column. -/
theorem leads_key (named : IsName name) (gap : startsWithGap rest)
    (inside : ∀ block ∈ blocks.head?, block ≤ column) (number : Nat) :
    Layout.Leads ((Line.mk (name.toList ++ ':' :: rest) column blocks tokens).layout number)
      (inBlock rest ⟨number, column + name.toList.length + 1⟩ (blocksAt column blocks) false none
        (tokens ++ (startAt column blocks ++ keyTokens name))) := by
  have reached := Position.foldl_after_of_unbroken named.kept.unbroken ⟨number, column⟩
  have possible : canEnd ⟨⟨number, column⟩, tokens.length, blocks.head? == some column⟩
      ⟨number, column + name.toList.length⟩ := by
    simpa [canEnd] using named.short
  refine (leads_plain named.kept [] rfl inside (Plain.stops_colon gap) (by simp)).trans ?_
  rw [List.append_nil, reached, String.ofList_toList]
  exact leads_value gap possible
    (fun block member => Nat.le_trans (inside block member) (Nat.le_add_right _ _))
    [.scalar .plain name] rfl

def fieldTokens (name : String) (value : List Char) : List Token :=
  keyTokens name ++ [.scalar .plain (String.ofList value)]

/-- A plain value is read up to the next line, which starts no further right. -/
theorem leads_field (named : IsName name) {value : List Char} (kept : Plain.IsKept value)
    (starts : Starts next) (inside : ∀ block ∈ blocks.head?, block ≤ column)
    (left : count ≤ column) :
    (Line.mk (writeField name value ++ (List.replicate count ' ' ++ next)) column blocks
        tokens).Leads
      ⟨next, count, blocksAt column blocks,
        tokens ++ (startAt column blocks ++ fieldTokens name value)⟩ := by
  intro number
  have ending : Plain.Stops (((blocksAt column blocks).head?.map (· + 1)).getD 0)
      ('\n' :: List.replicate count ' ' ++ next) true next := by
    rw [head?_blocksAt inside]
    exact Plain.stops_line fun first later same =>
      ⟨(starts first later same).1, Nat.lt_succ_of_le left⟩
  have innermost : ∀ block ∈ (blocksAt column blocks).head?,
      block ≤ column + name.toList.length + 2 := by
    intro block member
    rw [head?_blocksAt inside] at member
    cases member
    omega
  have spelled : writeField name value ++ (List.replicate count ' ' ++ next) =
      name.toList ++ ':' :: ' ' :: (value ++ ('\n' :: List.replicate count ' ' ++ next)) := by
    simp [writeField]
  refine ⟨number + 1, ?_⟩
  rw [spelled]
  refine (leads_key named rfl inside number).trans ?_
  refine (leads_space (starts_of_isKept kept _)).trans ?_
  refine (leads_plain kept ('\n' :: List.replicate count ' ') rfl innermost ending
    (by simp)).trans ?_
  rw [List.foldl_append, Position.foldl_after_of_unbroken kept.unbroken, foldl_after_newLine,
    List.append_assoc, List.append_assoc]
  exact .refl _

/-- A name alone in its line is followed by a value of several lines. -/
theorem leads_header (named : IsName name) (starts : Starts next)
    (inside : ∀ block ∈ blocks.head?, block ≤ column) :
    (Line.mk (name.toList ++ [':', '\n'] ++ (List.replicate count ' ' ++ next)) column blocks
        tokens).Leads
      ⟨next, count, blocksAt column blocks,
        tokens ++ (startAt column blocks ++ keyTokens name)⟩ := by
  intro number
  refine ⟨number + 1, ?_⟩
  simp only [List.append_assoc, List.cons_append, List.nil_append]
  exact (leads_key named rfl inside number).trans (leads_newLine starts (by simp))

theorem blocksAt_blocksAt (inside : ∀ block ∈ blocks.head?, block ≤ column) :
    blocksAt column (blocksAt column blocks) = blocksAt column blocks ∧
      startAt column (blocksAt column blocks) = [] := by
  have head := head?_blocksAt inside
  constructor
  · rw [blocksAt, head, if_neg (by simp)]
  · rw [startAt, head, if_neg (by simp)]

/-- A field with a plain value that is kept. -/
def IsPlainField (field : String × List Char) : Prop :=
  IsName field.1 ∧ Plain.IsKept field.2

theorem isPlainField_of_isSimple {value : List Char} (simple : isSimple name)
    (kept : Plain.IsKept value) : IsPlainField (name, value) :=
  ⟨isName_of_isSimple simple, kept⟩

theorem starts_writeField {field : String × List Char} (sound : IsPlainField field)
    (rest : List Char) : Starts (writeField field.1 field.2 ++ rest) := by
  simp only [writeField, List.append_assoc]
  exact sound.1.starts _

/-- Fields at one column belong to one mapping. -/
theorem leads_fields {first : String × List Char} {others : List (String × List Char)}
    (sound : ∀ field ∈ first :: others, IsPlainField field) (starts : Starts next)
    (inside : ∀ block ∈ blocks.head?, block ≤ column) (left : count ≤ column) :
    (Line.mk (writeField first.1 first.2 ++
        ((others.flatMap fun field => List.replicate column ' ' ++ writeField field.1 field.2) ++
          (List.replicate count ' ' ++ next))) column blocks tokens).Leads
      ⟨next, count, blocksAt column blocks, tokens ++ (startAt column blocks ++
        (first :: others).flatMap fun field => fieldTokens field.1 field.2)⟩ := by
  induction others generalizing first blocks tokens with
  | nil =>
      obtain ⟨named, kept⟩ := sound first List.mem_cons_self
      simp only [List.flatMap_nil, List.nil_append, List.flatMap_cons, List.append_nil]
      exact leads_field named kept starts inside left
  | cons second others ih =>
      obtain ⟨⟨named, kept⟩, later⟩ := List.forall_mem_cons.mp sound
      have innermost : ∀ block ∈ (blocksAt column blocks).head?, block ≤ column := by
        simp [head?_blocksAt inside]
      obtain ⟨sameBlocks, noStart⟩ := blocksAt_blocksAt inside
      have toLast := @ih _ (tokens ++ (startAt column blocks ++ fieldTokens first.1 first.2)) second
        later innermost
      rw [sameBlocks, noStart] at toLast
      have read := (leads_field named kept
        (starts_writeField (later second List.mem_cons_self) _) inside
        (Nat.le_refl column)).trans toLast
      simpa using read

end Fields

section Items

variable {characters next : List Char} {tokens : List Token}

theorem line_le_foldl_after (passed : List Char) (position : Position) :
    position.line ≤ (passed.foldl Position.after position).line := by
  induction passed generalizing position with
  | nil => exact Nat.le_refl _
  | cons first rest ih =>
      refine Nat.le_trans ?_ (ih (position.after first))
      unfold Position.after
      split <;> simp

theorem endLine_eq (spelled : List Char) :
    endLine ('-' :: ' ' :: spelled) = '-' :: ' ' :: (spelled ++ Block.lineEnd spelled) := by
  cases spelled with
  | nil => rfl
  | cons first rest =>
      simp only [endLine, Block.lineEnd, List.getLast?_cons_cons]
      split <;> simp

theorem exists_append_lineEnd (spelled : List Char) :
    ∃ front lineBreak, isBreak lineBreak ∧
      spelled ++ Block.lineEnd spelled = front ++ [lineBreak] := by
  rcases List.eq_nil_or_concat' spelled with rfl | ⟨front, last, rfl⟩
  · exact ⟨[], '\n', rfl, rfl⟩
  · by_cases breaks : isBreak last
    · exact ⟨front, last, breaks, by simp [Block.lineEnd, breaks]⟩
    · exact ⟨front ++ [last], '\n', rfl, by simp [Block.lineEnd, breaks]⟩

theorem exists_indentLines (indentation front : List Char) (last : Char) (broken : Bool) :
    ∃ lines, Block.indentLines indentation broken (front ++ [last]) = lines ++ [last] := by
  induction front generalizing broken with
  | nil =>
      rw [List.nil_append, Block.indentLines]
      split
      · exact ⟨[], rfl⟩
      · exact ⟨if broken then indentation else [], rfl⟩
  | cons first rest ih =>
      rw [List.cons_append, Block.indentLines]
      split
      · obtain ⟨lines, spelled⟩ := ih true
        exact ⟨first :: lines, by rw [spelled, List.cons_append]⟩
      · obtain ⟨lines, spelled⟩ := ih false
        exact ⟨(if broken then indentation else []) ++ first :: lines, by
          rw [spelled, List.append_assoc, List.cons_append]⟩

/-- A literal block ends like its text. -/
theorem lineEnd_literal (nonempty : characters ≠ []) :
    Block.lineEnd (Block.literal 2 characters) = Block.lineEnd characters := by
  obtain ⟨front, last, rfl⟩ := (List.eq_nil_or_concat' characters).resolve_left nonempty
  obtain ⟨lines, spelled⟩ := exists_indentLines (List.replicate 2 ' ') front last true
  rw [Block.literal, spelled, ← List.cons_append, ← List.append_assoc]
  simp only [Block.lineEnd, List.getLast?_concat]

theorem exists_closeSingle (indentation characters : List Char) (broken : Bool) :
    ∃ front, Quoted.closeSingle indentation broken characters = front ++ ['\''] := by
  induction characters generalizing broken with
  | nil => exact ⟨if broken then indentation else [], rfl⟩
  | cons first rest ih =>
      rw [Quoted.closeSingle]
      split
      · obtain ⟨front, spelled⟩ := ih true
        exact ⟨first :: front, by rw [spelled, List.cons_append]⟩
      · obtain ⟨front, spelled⟩ := ih false
        rw [spelled, ← List.append_assoc]
        exact ⟨_, rfl⟩

theorem lineEnd_of_unbroken {last : Char} (unbroken : isBreak last = false) (front : List Char) :
    Block.lineEnd (front ++ [last]) = ['\n'] := by
  simp [Block.lineEnd, unbroken]

/-- The text of an entry, up to the start of the next line, is read as one token. -/
def ReadsEntry (token : Token) (spelled : List Char) : Prop :=
  ∀ (next : List Char) (tokens : List Token) (number : Nat), Starts next →
    ∃ later, Layout.Leads
      (inBlock (spelled ++ (Block.lineEnd spelled ++ next)) ⟨number, 2⟩ [0] true none tokens)
      ((Line.mk next 0 [0] (tokens ++ [token])).layout later)

/-- A key that is noted in an entry is not required, and stands in the line of the entry. -/
theorem noted_inEntry {number : Nat} :
    ∀ key ∈ noted ⟨number, 2⟩ [0] true tokens,
      key.required = false ∧ key.position.line = number := by
  intro key member
  cases member
  exact ⟨rfl, rfl⟩

theorem readsEntry_plain (kept : Plain.IsKept characters) :
    ReadsEntry (.scalar .plain (String.ofList characters)) characters := by
  intro next tokens number starts
  have ending : Block.lineEnd characters = ['\n'] := by
    obtain ⟨front, last, rfl⟩ := (List.eq_nil_or_concat' characters).resolve_left kept.nonempty
    exact lineEnd_of_unbroken (kept.unbroken last (by simp)) front
  have ends : Plain.Stops ((([0].head?).map (· + 1)).getD 0) ('\n' :: next) true next :=
    @Plain.stops_line next 1 0 fun first later same =>
      ⟨(starts first later same).1, Nat.zero_lt_one⟩
  refine ⟨number + 1, ?_⟩
  rw [ending]
  refine (leads_plain kept ['\n'] rfl (by simp) ends (by simp)).trans ?_
  rw [List.foldl_append, Position.foldl_after_of_unbroken kept.unbroken]
  refine leads_forget starts fun key member => ?_
  obtain ⟨notRequired, line⟩ := noted_inEntry key member
  exact ⟨notRequired, line ▸ Nat.lt_succ_self number⟩

/-- A block ends with its last line break, after which the next line starts. -/
theorem readsEntry_literal (nonempty : characters ≠ []) (written : isUnescaped characters) :
    ReadsEntry (.scalar .literal (String.ofList characters)) (Block.literal 2 characters) := by
  intro next tokens number starts
  have noTab : characters.head? ≠ some '\t' := by
    obtain ⟨first, rest, rfl⟩ := List.exists_cons_of_ne_nil nonempty
    rintro ⟨⟩
    exact absurd (isUnescaped_cons.mp written).1 (by decide)
  have ends : Block.EndsBlock next := fun first later same => (starts first later same).1
  have toLine := @leads_literal next ⟨number, 2⟩ true tokens characters nonempty noTab ends
  obtain ⟨front, lineBreak, breaks, spelled⟩ := exists_append_lineEnd (Block.literal 2 characters)
  rw [lineEnd_literal nonempty] at spelled ⊢
  have column := Position.column_foldl_after_break breaks front ⟨number, 2⟩
  rw [← spelled] at column
  rw [List.append_assoc] at toLine
  generalize (Block.literal 2 characters ++ Block.lineEnd characters).foldl Position.after
    ⟨number, 2⟩ = place at column toLine
  obtain ⟨later, _⟩ := place
  cases column
  exact ⟨later, toLine⟩

/-- After its closing quotation mark a text is followed by the next line. -/
theorem readsEntry_quoted {style : ScalarStyle} {spelled : List Char} {mark : Char}
    (closed : ∃ front, spelled = front ++ [mark]) (unbroken : isBreak mark = false)
    (read : ∀ (rest : List Char) (tokens : List Token) (number : Nat), rest.head? ≠ some mark →
      Layout.Leads (inBlock (spelled ++ rest) ⟨number, 2⟩ [0] true none tokens)
        (inBlock rest (spelled.foldl Position.after ⟨number, 2⟩) [0] false
          (noted ⟨number, 2⟩ [0] true tokens)
          (tokens ++ [.scalar style (String.ofList characters)]))) :
    ReadsEntry (.scalar style (String.ofList characters)) spelled := by
  intro next tokens number starts
  have ending : Block.lineEnd spelled = ['\n'] := by
    obtain ⟨front, rfl⟩ := closed
    exact lineEnd_of_unbroken unbroken front
  have apart : ('\n' :: next).head? ≠ some mark := by
    rintro ⟨⟩
    cases unbroken
  have stale : ∀ key ∈ noted ⟨number, 2⟩ [0] true tokens, key.required = false ∧
      key.position.line ≤ (spelled.foldl Position.after ⟨number, 2⟩).line := by
    intro key member
    obtain ⟨notRequired, line⟩ := noted_inEntry key member
    exact ⟨notRequired, line ▸ line_le_foldl_after spelled ⟨number, 2⟩⟩
  rw [ending]
  exact ⟨_, (read ('\n' :: next) tokens number apart).trans (leads_newLine starts stale)⟩

/-- Whatever style a text is written in, it is read as one scalar. -/
theorem readsEntry_scalar {spelled : List Char} {style : ScalarStyle}
    (written : IsWrittenAs characters style spelled) :
    ReadsEntry (.scalar style (String.ofList characters)) spelled := by
  cases written with
  | plain kept => exact readsEntry_plain kept
  | literal nonempty written => exact readsEntry_literal nonempty written
  | singleQuoted kept =>
      have closed : ∃ front, '\'' :: Quoted.closeSingle [' ', ' '] false characters =
          front ++ ['\''] := by
        obtain ⟨front, spelled⟩ := exists_closeSingle [' ', ' '] characters false
        exact ⟨'\'' :: front, congrArg ('\'' :: ·) spelled⟩
      refine readsEntry_quoted closed rfl fun rest tokens number apart => ?_
      exact leads_singleQuoted kept apart (by simp) rfl
  | doubleQuoted =>
      have closed : ∃ front, '"' :: Quoted.closeDouble characters = front ++ ['"'] :=
        ⟨'"' :: characters.flatMap Quoted.spell, rfl⟩
      refine readsEntry_quoted closed rfl fun rest tokens number _ => ?_
      exact leads_doubleQuoted (by simp) rfl

theorem starts_of_isWrittenAs {spelled : List Char} {style : ScalarStyle}
    (written : IsWrittenAs characters style spelled) (rest : List Char) :
    Starts (spelled ++ rest) := by
  cases written with
  | plain kept => exact starts_of_isKept kept rest
  | literal | singleQuoted | doubleQuoted => exact starts_cons (by decide) _

def itemTokens (text : String) : List Token :=
  [.entry, .scalar (styleOf text.toList) text]

def item (text : String) : List Char :=
  endLine ('-' :: ' ' :: writeText text)

theorem starts_item (text : String) (rest : List Char) : Starts (item text ++ rest) := by
  rw [item, endLine_eq]
  exact starts_cons (by decide) _

theorem leads_item (text : String) (starts : Starts next) :
    (Line.mk (item text ++ next) 0 [0] tokens).Leads
      ⟨next, 0, [0], tokens ++ itemTokens text⟩ := by
  intro number
  have written := isWrittenAs_writeText text
  have spelled : item text ++ next = '-' :: ' ' ::
      (writeText text ++ (Block.lineEnd (writeText text) ++ next)) := by
    simp [item, endLine_eq]
  obtain ⟨later, toNext⟩ := readsEntry_scalar written next (tokens ++ [.entry]) number starts
  have read := (leads_entry number).trans
    ((leads_space (starts_of_isWrittenAs written _)).trans toNext)
  refine ⟨later, ?_⟩
  simpa [layout, spelled, itemTokens] using read

/-- The entries of a list are read in turn. -/
theorem leads_items (texts : List String) (starts : Starts next) :
    (Line.mk (texts.flatMap item ++ next) 0 [0] tokens).Leads
      ⟨next, 0, [0], tokens ++ texts.flatMap itemTokens⟩ := by
  induction texts generalizing tokens with
  | nil => simpa using Leads.refl ⟨next, 0, [0], tokens⟩
  | cons text texts ih =>
      have follows : Starts (texts.flatMap item ++ next) := by
        cases texts with
        | nil => exact starts
        | cons second others =>
            rw [List.flatMap_cons, List.append_assoc]
            exact starts_item second _
      simp only [List.flatMap_cons, List.append_assoc]
      refine (leads_item text follows).trans ?_
      rw [← List.append_assoc]
      exact ih

theorem starts_writeTexts {name : String} (named : IsName name) (texts : List String)
    (rest : List Char) : Starts (writeTexts name texts ++ rest) := by
  cases texts with
  | nil =>
      simp only [writeTexts, writeField, List.append_assoc]
      exact named.starts _
  | cons first others =>
      simp only [writeTexts, List.append_assoc]
      exact named.starts _

/-- The tokens of a field with a list of texts. -/
def textsTokens (name : String) (texts : List String) : List Token :=
  keyTokens name ++
    if texts.isEmpty then [.mark '[', .mark ']'] else texts.flatMap itemTokens

theorem leads_texts {name : String} (named : IsName name) (texts : List String)
    (starts : Starts next) :
    (Line.mk (writeTexts name texts ++ next) 0 [0] tokens).Leads
      ⟨next, 0, [0], tokens ++ textsTokens name texts⟩ := by
  cases texts with
  | nil =>
      intro number
      have spelled : writeTexts name [] ++ next =
          name.toList ++ ':' :: ' ' :: '[' :: ']' :: '\n' :: (List.replicate 0 ' ' ++ next) := by
        simp [writeTexts, writeField]
      refine ⟨number + 1, ?_⟩
      rw [spelled]
      refine (leads_key named rfl (by simp) number).trans ?_
      refine (leads_space (starts_cons (by decide) _)).trans ?_
      refine (leads_openBracket number (by simp [blocksAt])).trans ?_
      refine (leads_closeBracket number _).trans ?_
      have listed : tokens ++ textsTokens name [] =
          tokens ++ (startAt 0 [0] ++ keyTokens name) ++ [.mark '['] ++ [.mark ']'] := by
        simp [textsTokens, startAt]
      rw [listed]
      exact leads_newLine starts (by simp)
  | cons first others =>
      have toNext := @leads_items next (tokens ++ keyTokens name) (first :: others) starts
      have spelled : writeTexts name (first :: others) ++ next = name.toList ++ [':', '\n'] ++
          (List.replicate 0 ' ' ++ ((first :: others).flatMap item ++ next)) := by
        have items : (fun text => endLine ('-' :: ' ' :: writeText text)) = item := rfl
        simp [writeTexts, items]
      have listed : tokens ++ textsTokens name (first :: others) =
          tokens ++ keyTokens name ++ (first :: others).flatMap itemTokens := by
        simp [textsTokens]
      rw [spelled, listed]
      refine (leads_header named ?_ (by simp)).trans toNext
      rw [List.flatMap_cons, List.append_assoc]
      exact starts_item first _

end Items

section Records

variable {next : List Char} {tokens : List Token}

theorem starts_writeRecord {name : String} (named : IsName name)
    (fields : List (String × List Char)) (rest : List Char) :
    Starts (writeRecord name fields ++ rest) := by
  simp only [writeRecord, List.append_assoc]
  exact named.starts _

/-- The tokens of a field with a record of plain values. -/
def recordTokens (name : String) (fields : List (String × List Char)) : List Token :=
  keyTokens name ++
    .blockMappingStart :: (fields.flatMap fun field => fieldTokens field.1 field.2) ++ [.blockEnd]

theorem leads_record {name : String} (named : IsName name) {first : String × List Char}
    {others : List (String × List Char)} (sound : ∀ field ∈ first :: others, IsPlainField field)
    (starts : Starts next) :
    (Line.mk (writeRecord name (first :: others) ++ next) 0 [0] tokens).Leads
      ⟨next, 0, [0], tokens ++ recordTokens name (first :: others)⟩ := by
  have indented : ([' ', ' '] : List Char) = List.replicate 2 ' ' := rfl
  have spelled : writeRecord name (first :: others) ++ next = name.toList ++ [':', '\n'] ++
      (List.replicate 2 ' ' ++ (writeField first.1 first.2 ++
        ((others.flatMap fun field => List.replicate 2 ' ' ++ writeField field.1 field.2) ++
          (List.replicate 0 ' ' ++ next)))) := by
    simp [writeRecord, indented]
  have closed : (Line.mk next 0 (blocksAt 2 [0]) (tokens ++ keyTokens name ++ (startAt 2 [0] ++
      (first :: others).flatMap fun field => fieldTokens field.1 field.2))).Leads
      ⟨next, 0, [0], tokens ++ recordTokens name (first :: others)⟩ := by
    intro number
    refine ⟨number, ?_⟩
    have listed : tokens ++ recordTokens name (first :: others) =
        tokens ++ keyTokens name ++ (startAt 2 [0] ++ (first :: others).flatMap fun field =>
          fieldTokens field.1 field.2) ++ [.blockEnd] := by
      simp [recordTokens, startAt]
    rw [listed]
    exact leads_blockEnd starts (Nat.zero_lt_two) (by simp)
  rw [spelled]
  refine (leads_header named (starts_writeField (sound first List.mem_cons_self) _)
    (by simp)).trans ?_
  exact (leads_fields sound starts (by simp [blocksAt]) (Nat.zero_le 2)).trans closed

end Records

section Written

variable {name : String}

theorem isUnescaped_name (named : IsName name) : isUnescaped name.toList :=
  isUnescaped_of_isPrintable named.kept.printable

theorem isUnescaped_writeField {field : String × List Char} (sound : IsPlainField field) :
    isUnescaped (writeField field.1 field.2) := by
  simp only [writeField, isUnescaped_append]
  exact ⟨⟨⟨isUnescaped_name sound.1, by decide⟩,
    isUnescaped_of_isPrintable sound.2.printable⟩, by decide⟩

theorem isUnescaped_flatMap {β : Type} {write : β → List Char} {items : List β}
    (each : ∀ item ∈ items, isUnescaped (write item)) : isUnescaped (items.flatMap write) := by
  refine List.all_eq_true.mpr fun character member => ?_
  obtain ⟨item, inside, written⟩ := List.mem_flatMap.mp member
  exact List.all_eq_true.mp (each item inside) character written

theorem isUnescaped_item (text : String) : isUnescaped (item text) := by
  have ending : isUnescaped (Block.lineEnd (writeText text)) := by
    unfold Block.lineEnd
    split <;> decide
  rw [item, endLine_eq]
  exact isUnescaped_cons.mpr ⟨by decide, isUnescaped_cons.mpr ⟨by decide,
    isUnescaped_append.mpr ⟨(isWrittenAs_writeText text).isUnescaped, ending⟩⟩⟩

theorem isUnescaped_writeTexts (named : IsName name) (texts : List String) :
    isUnescaped (writeTexts name texts) := by
  cases texts with
  | nil =>
      simp only [writeTexts, writeField, isUnescaped_append]
      exact ⟨⟨⟨isUnescaped_name named, by decide⟩, by decide⟩, by decide⟩
  | cons first others =>
      simp only [writeTexts, isUnescaped_append]
      exact ⟨⟨isUnescaped_name named, by decide⟩,
        isUnescaped_flatMap fun text _ => isUnescaped_item text⟩

theorem isUnescaped_writeRecord (named : IsName name) {fields : List (String × List Char)}
    (sound : ∀ field ∈ fields, IsPlainField field) : isUnescaped (writeRecord name fields) := by
  simp only [writeRecord, isUnescaped_append]
  exact ⟨⟨isUnescaped_name named, by decide⟩, isUnescaped_flatMap fun field member =>
    isUnescaped_append.mpr ⟨by decide, isUnescaped_writeField (sound field member)⟩⟩

end Written

/-- What is left at the end of the text is the end of the outermost mapping. -/
theorem tokens?_eq {text : String} (written : isUnescaped text.toList) {tokens : List Token}
    (leads : (Line.mk text.toList 0 [] []).Leads ⟨[], 0, [0], tokens⟩) :
    tokens? text = some (tokens ++ [.blockEnd]) := by
  obtain ⟨later, count, shorter, read⟩ := leads 0
  have sound : ∀ character ∈ text.toList, isWritten character := List.all_eq_true.mp written
  have allowed : text.toList.all isAllowed :=
    List.all_eq_true.mpr fun character member => isAllowed_of_isWritten (sound character member)
  rw [tokens?, if_pos allowed]
  simp only [unifyBreaks_eq_self sound]
  simp only [layout, inBlock, List.length_nil, Nat.add_zero] at shorter
  have enough : text.toList.length + 1 = text.toList.length - count + 1 + count := by omega
  have ended := read (text.toList.length - count + 1)
  rw [← enough] at ended
  change (run? _ ((Line.mk text.toList 0 [] []).layout 0)).map _ = _
  rw [ended, run?_succ]
  simp only [layout]
  rw [prepare?_inBlock (by simp [Starts]) (by simp) (by simp)]
  simp [inBlock, closeBlocks, inFlow, noKey?]

end Line

end ChangeImpact.Yaml
