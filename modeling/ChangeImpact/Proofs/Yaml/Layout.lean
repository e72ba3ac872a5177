/-
This file shows which tokens are read from text in block context.
-/

import ChangeImpact.Proofs.Yaml.Style
import ChangeImpact.Yaml.Layout
import Mathlib.Data.List.Basic

namespace ChangeImpact.Yaml

namespace Position

/-- Characters that do not break a line stand beside one another. -/
theorem foldl_after_of_unbroken {characters : List Char}
    (unbroken : ∀ character ∈ characters, isBreak character = false) (position : Position) :
    characters.foldl after position =
      ⟨position.line, position.column + characters.length⟩ := by
  induction characters generalizing position with
  | nil => rfl
  | cons first rest ih =>
      obtain ⟨here, later⟩ := List.forall_mem_cons.mp unbroken
      rw [List.foldl_cons, ih later, after, if_neg (by simp [here])]
      simp [Nat.add_assoc, Nat.add_comm 1]

/-- A line starts after a line break. -/
theorem column_foldl_after_break {lineBreak : Char} (breaks : isBreak lineBreak)
    (characters : List Char) (position : Position) :
    ((characters ++ [lineBreak]).foldl after position).column = 0 := by
  rw [List.foldl_append, List.foldl_cons, List.foldl_nil, after, if_pos breaks]

end Position

namespace Layout

/-- A place outside of flow collections. -/
def inBlock (rest : List Char) (position : Position) (blocks : List Nat) (keyAllowed : Bool)
    (possibleKey : Option PossibleKey) (tokens : List Token) : Layout :=
  ⟨rest, position, blocks, keyAllowed, possibleKey, [], tokens.toArray⟩

/-- Neither a gap nor a comment stands in front. -/
def Starts (characters : List Char) : Prop :=
  ∀ first later, characters = first :: later →
    isGap first = false ∧ first ≠ '#' ∧ first ≠ orderMark

theorem starts_cons {first : Char} (visible : isGap first = false ∧ first ≠ '#' ∧ first ≠ orderMark)
    (later : List Char) : Starts (first :: later) := by
  rintro _ _ ⟨⟩
  exact visible

section Steps

/-- Reading goes on from one layout to another, and takes no more tokens than characters. -/
def Leads (layout next : Layout) : Prop :=
  ∃ count, count + next.rest.length ≤ layout.rest.length ∧
    ∀ steps, run? (steps + count) layout = run? steps next

theorem Leads.refl (layout : Layout) : Leads layout layout :=
  ⟨0, by omega, fun _ => rfl⟩

theorem Leads.trans {layout middle last : Layout} (first : Leads layout middle)
    (second : Leads middle last) : Leads layout last := by
  obtain ⟨count, shorter, read⟩ := first
  obtain ⟨more, shortest, readMore⟩ := second
  refine ⟨more + count, by omega, fun steps => ?_⟩
  rw [← Nat.add_assoc, read, readMore]

/-- The layout at the next token. -/
def prepare? (layout : Layout) : Option Layout := do
  let layout ← layout.toToken.forgetKeys?
  some (layout.closeBlocks (some layout.position.column))

theorem run?_succ (steps : Nat) (layout : Layout) :
    run? (steps + 1) layout = layout.prepare?.bind fun layout =>
      match layout.rest with
      | [] => ((layout.closeBlocks none).noKey?).map tokens
      | character :: rest => (layout.token? character rest).bind (run? steps) := by
  rw [run?, prepare?]
  cases layout.toToken.forgetKeys? with
  | none => rfl
  | some layout =>
      simp only [Option.bind_eq_bind, Option.bind_some]
      cases (layout.closeBlocks (some layout.position.column)).rest with
      | nil => cases (closeBlocks _ none).noKey? <;> rfl
      | cons => rfl

theorem leads_of_prepare?_eq {layout next : Layout} (same : layout.prepare? = next.prepare?)
    (shorter : next.rest.length ≤ layout.rest.length) : Leads layout next := by
  refine ⟨0, by omega, fun steps => ?_⟩
  cases steps with
  | zero => rfl
  | succ steps => rw [Nat.add_zero, run?_succ, run?_succ, same]

theorem leads_of_token? {layout ready next : Layout} {first : Char} {later : List Char}
    (prepared : layout.prepare? = some ready) (front : ready.rest = first :: later)
    (read : ready.token? first later = some next)
    (shorter : next.rest.length < layout.rest.length) : Leads layout next := by
  refine ⟨1, by omega, fun steps => ?_⟩
  rw [run?_succ, prepared, Option.bind_some]
  simp only [front]
  rw [read, Option.bind_some]

end Steps

section Prepare

variable {rest next gap : List Char} {position : Position} {blocks : List Nat} {keyAllowed : Bool}
  {possibleKey : Option PossibleKey} {tokens : List Token}

theorem moveTo_inBlock (passed : List Char) :
    (inBlock (passed ++ rest) position blocks keyAllowed possibleKey tokens).moveTo rest =
      inBlock rest (passed.foldl Position.after position) blocks keyAllowed possibleKey tokens := by
  simp [inBlock, moveTo]

/-- Spaces and line feeds are skipped, and keys are allowed after a line feed. -/
theorem skipGap_append (starts : Starts next) (gap : List Char)
    (blank : ∀ character ∈ gap, character = ' ' ∨ character = '\n') (lineStart keyAllowed : Bool) :
    skipGap false false lineStart keyAllowed (gap ++ next) =
      (keyAllowed || gap.any isBreak, next) := by
  induction gap generalizing lineStart keyAllowed with
  | nil =>
      cases next with
      | nil => simp [skipGap]
      | cons first later =>
          obtain ⟨noGap, noComment, noMark⟩ := starts first later rfl
          have unbroken : isBreak first = false := (Bool.or_eq_false_iff.mp noGap).2
          have noBlank : first ≠ ' ' ∧ first ≠ '\t' := by
            constructor <;>
            · rintro rfl
              cases noGap
          simp [skipGap, unbroken, noComment, noMark, noBlank]
  | cons first gap ih =>
      obtain ⟨here, later⟩ := List.forall_mem_cons.mp blank
      rcases here with rfl | rfl
      · have space : isBreak ' ' = false := rfl
        simp [skipGap, space, ih later]
      · have feed : isBreak '\n' = true := rfl
        simp [skipGap, feed, ih later]

theorem toToken_inBlock (starts : Starts next)
    (blank : ∀ character ∈ gap, character = ' ' ∨ character = '\n') :
    (inBlock (gap ++ next) position blocks keyAllowed possibleKey tokens).toToken =
      inBlock next (gap.foldl Position.after position) blocks (keyAllowed || gap.any isBreak)
        possibleKey tokens := by
  have skipped := skipGap_append starts gap blank (position.column == 0) keyAllowed
  have moved := @moveTo_inBlock next position blocks keyAllowed possibleKey tokens gap
  simp only [toToken, inFlow, inBlock, List.isEmpty_nil, Bool.not_true, skipped] at moved ⊢
  rw [moved]

theorem current?_eq (stays : ∀ key ∈ possibleKey, key.required → canEnd key position) :
    current? position possibleKey = some (possibleKey.filter (canEnd · position)) := by
  cases possibleKey with
  | none => rfl
  | some key =>
      have remains := stays key rfl
      cases ended : canEnd key position <;> simp_all [current?, Option.filter]

theorem forgetKeys?_inBlock
    (stays : ∀ key ∈ possibleKey, key.required → canEnd key position) :
    (inBlock rest position blocks keyAllowed possibleKey tokens).forgetKeys? =
      some (inBlock rest position blocks keyAllowed (possibleKey.filter (canEnd · position))
        tokens) := by
  simp [forgetKeys?, inBlock, current?_eq stays]

theorem closeBlocks_inBlock {column : Nat} (outer : ∀ block ∈ blocks.head?, block ≤ column) :
    (inBlock rest position blocks keyAllowed possibleKey tokens).closeBlocks (some column) =
      inBlock rest position blocks keyAllowed possibleKey tokens := by
  cases blocks with
  | nil => simp [closeBlocks, inBlock, inFlow]
  | cons block others =>
      have least : ¬ column < block := Nat.not_lt.mpr (outer block rfl)
      simp [closeBlocks, inBlock, inFlow, least]

/-- A gap changes nothing but the place, the keys that are still possible and the blocks. -/
theorem prepare?_append (starts : Starts next)
    (blank : ∀ character ∈ gap, character = ' ' ∨ character = '\n')
    (stays : ∀ key ∈ possibleKey, key.required → canEnd key (gap.foldl Position.after position)) :
    (inBlock (gap ++ next) position blocks keyAllowed possibleKey tokens).prepare? =
      some ((inBlock next (gap.foldl Position.after position) blocks (keyAllowed || gap.any isBreak)
        (possibleKey.filter (canEnd · (gap.foldl Position.after position))) tokens).closeBlocks
          (some (gap.foldl Position.after position).column)) := by
  rw [prepare?, toToken_inBlock starts blank, forgetKeys?_inBlock stays]
  rfl

/-- At a token that stands in the innermost block nothing is left to be prepared. -/
theorem prepare?_inBlock (starts : Starts next)
    (possible : ∀ key ∈ possibleKey, canEnd key position)
    (inside : ∀ block ∈ blocks.head?, block ≤ position.column) :
    (inBlock next position blocks keyAllowed possibleKey tokens).prepare? =
      some (inBlock next position blocks keyAllowed possibleKey tokens) := by
  have same : possibleKey.filter (canEnd · position) = possibleKey := by
    cases possibleKey with
    | none => rfl
    | some key => exact Option.filter_some_pos (possible key rfl)
  have prepared : (inBlock ([] ++ next) position blocks keyAllowed possibleKey tokens).prepare? =
      _ := prepare?_append starts (List.forall_mem_nil _) fun key member _ => possible key member
  simp only [List.nil_append, List.foldl_nil, List.any_nil, Bool.or_false, same] at prepared
  rw [prepared, closeBlocks_inBlock inside]

end Prepare

section Tokens

variable {rest later next : List Char} {first : Char} {position : Position} {blocks : List Nat}
  {keyAllowed : Bool} {possibleKey : Option PossibleKey} {tokens : List Token}

/-- A gap is skipped, and with it the keys that cannot end after it. -/
theorem leads_gap (starts : Starts next) {gap : List Char} {place : Position}
    (blank : ∀ character ∈ gap, character = ' ' ∨ character = '\n')
    (reached : gap.foldl Position.after position = place)
    (stays : ∀ key ∈ possibleKey, key.required → canEnd key place) :
    Leads (inBlock (gap ++ next) position blocks keyAllowed possibleKey tokens)
      (inBlock next place blocks (keyAllowed || gap.any isBreak)
        (possibleKey.filter (canEnd · place)) tokens) := by
  subst reached
  refine leads_of_prepare?_eq ?_ (by simp [inBlock])
  have possible : ∀ key ∈ possibleKey.filter (canEnd · (gap.foldl Position.after position)),
      canEnd key (gap.foldl Position.after position) := by
    intro key member
    exact (Option.filter_eq_some_iff.mp member).2
  have prepared : (inBlock ([] ++ next) (gap.foldl Position.after position) blocks
      (keyAllowed || gap.any isBreak)
      (possibleKey.filter (canEnd · (gap.foldl Position.after position))) tokens).prepare? = _ :=
    prepare?_append starts (List.forall_mem_nil _) fun key member _ => possible key member
  rw [prepare?_append starts blank stays]
  simpa using prepared.symm

theorem leads_space (starts : Starts next) {line column : Nat} :
    Leads (inBlock (' ' :: next) ⟨line, column⟩ blocks keyAllowed none tokens)
      (inBlock next ⟨line, column + 1⟩ blocks keyAllowed none tokens) := by
  have read : Leads (inBlock ([' '] ++ next) ⟨line, column⟩ blocks keyAllowed none tokens) _ :=
    leads_gap starts (by simp) rfl (by simp)
  simpa [Position.after, isBreak] using read

/-- A block ends before a token that stands further left. -/
theorem leads_blockEnd (starts : Starts next) {block : Nat} (left : position.column < block)
    (inside : ∀ outer ∈ blocks.head?, outer ≤ position.column) :
    Leads (inBlock next position (block :: blocks) keyAllowed none tokens)
      (inBlock next position blocks keyAllowed none (tokens ++ [.blockEnd])) := by
  refine leads_of_prepare?_eq ?_ (Nat.le_refl _)
  rw [prepare?_inBlock starts (by simp) inside]
  have prepared : (inBlock ([] ++ next) position (block :: blocks) keyAllowed none
      tokens).prepare? = _ := prepare?_append starts (List.forall_mem_nil _) (by simp)
  rw [List.nil_append] at prepared
  rw [prepared]
  have ended : blocks.takeWhile (fun outer => decide (position.column < outer)) = [] ∧
      blocks.dropWhile (fun outer => decide (position.column < outer)) = blocks := by
    cases blocks with
    | nil => exact ⟨rfl, rfl⟩
    | cons outer others =>
        have least : ¬ position.column < outer := Nat.not_lt.mpr (inside outer rfl)
        simp [least]
  simp [closeBlocks, inBlock, inFlow, left, ended]

/-- A token is read where it stands. -/
theorem leads_token {layout : Layout} (starts : Starts (first :: later))
    (possible : ∀ key ∈ possibleKey, canEnd key position)
    (inside : ∀ block ∈ blocks.head?, block ≤ position.column)
    (read : (inBlock (first :: later) position blocks keyAllowed possibleKey tokens).token?
      first later = some layout) (shorter : layout.rest.length ≤ later.length) :
    Leads (inBlock (first :: later) position blocks keyAllowed possibleKey tokens) layout :=
  leads_of_token? (prepare?_inBlock starts possible inside) rfl read
    (Nat.lt_succ_of_le shorter)

theorem accept_inBlock (token : Token) (allowed : Bool) (passed : List Char) :
    (inBlock (passed ++ rest) position blocks keyAllowed possibleKey tokens).accept token allowed
        rest =
      inBlock rest (passed.foldl Position.after position) blocks allowed possibleKey
        (tokens ++ [token]) := by
  simp [accept, emit, moveTo, inBlock]

/-- A token is accepted where it stands, and what follows its characters is left. -/
theorem leads_accept {tail : List Char} {token : Token} {allowed : Bool}
    (starts : Starts (first :: (tail ++ rest)))
    (inside : ∀ block ∈ blocks.head?, block ≤ position.column)
    (read : (inBlock (first :: (tail ++ rest)) position blocks keyAllowed none tokens).token? first
        (tail ++ rest) =
      some ((inBlock (first :: (tail ++ rest)) position blocks keyAllowed possibleKey tokens).accept
        token allowed rest)) :
    Leads (inBlock (first :: (tail ++ rest)) position blocks keyAllowed none tokens)
      (inBlock rest ((first :: tail).foldl Position.after position) blocks allowed possibleKey
        (tokens ++ [token])) := by
  rw [← List.cons_append, accept_inBlock] at read
  exact leads_token starts (by simp) inside read (by simp [inBlock])

/-- The key that may start at a place, where keys are allowed. -/
def noted (position : Position) (blocks : List Nat) (keyAllowed : Bool) (tokens : List Token) :
    Option PossibleKey :=
  if keyAllowed then some ⟨position, tokens.length, blocks.head? == some position.column⟩ else none

theorem mayBeKey?_inBlock :
    (inBlock rest position blocks keyAllowed none tokens).mayBeKey? =
      some (inBlock rest position blocks keyAllowed (noted position blocks keyAllowed tokens)
        tokens) := by
  cases keyAllowed <;> simp [mayBeKey?, inBlock, noted, noKey?, inFlow]

/-- The collections that are open after the key of a mapping at a column. -/
def blocksAt (column : Nat) (blocks : List Nat) : List Nat :=
  if blocks.head?.all (· < column) then column :: blocks else blocks

/-- The token that shows the start of a mapping at a column. -/
def startAt (column : Nat) (blocks : List Nat) : List Token :=
  if blocks.head?.all (· < column) then [.blockMappingStart] else []

theorem insert_inBlock (before after : List Token) (token : Token) :
    (inBlock rest position blocks keyAllowed possibleKey (before ++ after)).insert before.length
        token =
      inBlock rest position blocks keyAllowed possibleKey (before ++ token :: after) := by
  have inserted : (before ++ after).insertIdx before.length token = before ++ token :: after := by
    induction before with
    | nil => rfl
    | cons first others ih => simp [ih]
  simp [insert, inBlock, inserted]

theorem openBlock_inBlock (column : Nat) (before after : List Token) :
    (inBlock rest position blocks keyAllowed possibleKey (before ++ after)).openBlock column
        before.length .blockMappingStart =
      inBlock rest position (blocksAt column blocks) keyAllowed possibleKey
        (before ++ (startAt column blocks ++ after)) := by
  rw [openBlock, insert_inBlock]
  simp only [inBlock, inFlow, List.isEmpty_nil, Bool.not_true, Bool.not_false, Bool.true_and,
    blocksAt, startAt]
  split <;> rfl

/-- A colon turns the tokens since the possible key into a key. -/
theorem value?_inBlock (key : PossibleKey) {before : List Token} (after : List Token)
    (index : key.index = before.length) :
    (inBlock (':' :: rest) position blocks keyAllowed (some key) (before ++ after)).value? rest =
      some (inBlock rest (position.after ':') (blocksAt key.position.column blocks) false none
        (before ++ (startAt key.position.column blocks ++ (.key :: after ++ [.value])))) := by
  have moved := @accept_inBlock rest position (blocksAt key.position.column blocks) keyAllowed
    (some key) (before ++ (startAt key.position.column blocks ++ .key :: after)) .value false [':']
  rw [value?]
  change some _ = _
  rw [index, insert_inBlock, openBlock_inBlock]
  rw [List.singleton_append] at moved
  rw [moved]
  simp [inBlock]

/-- A colon after a key is followed by its value. -/
theorem leads_value (gap : startsWithGap rest) {key : PossibleKey} (possible : canEnd key position)
    (inside : ∀ block ∈ blocks.head?, block ≤ position.column) {before : List Token}
    (after : List Token) (index : key.index = before.length) :
    Leads (inBlock (':' :: rest) position blocks keyAllowed (some key) (before ++ after))
      (inBlock rest (position.after ':') (blocksAt key.position.column blocks) false none
        (before ++ (startAt key.position.column blocks ++ (.key :: after ++ [.value])))) := by
  refine leads_token (starts_cons (by decide) _) ?_ inside ?_
    (Nat.le_refl _)
  · simpa using possible
  · have here : (inBlock (':' :: rest) position blocks keyAllowed (some key)
        (before ++ after)).token? ':' rest =
      (inBlock (':' :: rest) position blocks keyAllowed (some key) (before ++ after)).value?
        rest := by
      simp [token?, inBlock, startsDocument, endsDocument, gap]
    exact here.trans (value?_inBlock key after index)

/-- An entry of a sequence that is not indented further than the mapping around it. -/
theorem leads_entry (line : Nat) :
    Leads (inBlock ('-' :: ' ' :: rest) ⟨line, 0⟩ [0] true none tokens)
      (inBlock (' ' :: rest) ⟨line, 1⟩ [0] true none (tokens ++ [.entry])) := by
  have here : (inBlock ('-' :: ' ' :: rest) ⟨line, 0⟩ [0] true none tokens).token? '-' (' ' :: rest) =
      entry? (inBlock ('-' :: ' ' :: rest) ⟨line, 0⟩ [0] true none tokens) (' ' :: rest) := by
    simp [token?, inBlock, startsDocument, endsDocument, startsWithGap, isGap, isBlank]
  exact @leads_accept (' ' :: rest) '-' ⟨line, 0⟩ [0] true none tokens [] .entry true
    (starts_cons (by decide) _) (by simp) here

/-- A place in a flow collection that is in no other. -/
def inBrackets (rest : List Char) (position : Position) (blocks : List Nat) (tokens : List Token) :
    Layout :=
  ⟨rest, position, blocks, true, none, [none], tokens.toArray⟩

theorem leads_openBracket {column : Nat} (line : Nat)
    (inside : ∀ block ∈ blocks.head?, block ≤ column) :
    Leads (inBlock ('[' :: rest) ⟨line, column⟩ blocks false none tokens)
      (inBrackets rest ⟨line, column + 1⟩ blocks (tokens ++ [.mark '['])) := by
  refine leads_token (starts_cons (by decide) _) (by simp) inside ?_
    (Nat.le_refl _)
  have moved := @accept_inBlock rest ⟨line, column⟩ blocks false none tokens (Token.mark '[') true
    ['[']
  have here : (inBlock ('[' :: rest) ⟨line, column⟩ blocks false none tokens).token? '[' rest =
      (inBlock ('[' :: rest) ⟨line, column⟩ blocks false none tokens).flowStart? '[' rest := by
    simp [token?, inBlock, startsDocument, endsDocument]
  rw [here]
  exact congrArg (fun layout => some { layout with possibleKey := none, outerKeys := [none] }) moved

theorem leads_closeBracket (line column : Nat) :
    Leads (inBrackets (']' :: rest) ⟨line, column⟩ blocks tokens)
      (inBlock rest ⟨line, column + 1⟩ blocks false none (tokens ++ [.mark ']'])) := by
  have prepared : (inBrackets (']' :: rest) ⟨line, column⟩ blocks tokens).prepare? =
      some (inBrackets (']' :: rest) ⟨line, column⟩ blocks tokens) := by
    simp [prepare?, toToken, inBrackets, inFlow, skipGap, isBreak, orderMark, moveTo, forgetKeys?,
      current?, closeBlocks]
  refine leads_of_token? prepared rfl ?_ (Nat.lt_succ_self _)
  have moved := @accept_inBlock rest ⟨line, column⟩ blocks false none tokens (Token.mark ']') false
    [']']
  have here : (inBrackets (']' :: rest) ⟨line, column⟩ blocks tokens).token? ']' rest =
      (inBrackets (']' :: rest) ⟨line, column⟩ blocks tokens).flowEnd? ']' rest := by
    simp [token?, inBrackets, startsDocument, endsDocument]
  rw [here]
  exact congrArg some moved

variable {characters : List Char}

theorem exists_mark_of_boundsDocument (bounds : boundsDocument characters) :
    ∃ mark, (mark = '-' ∨ mark = '.') ∧ ∃ others, characters = mark :: mark :: mark :: others := by
  rcases Bool.or_eq_true_iff.mp bounds with starts | ends
  · unfold startsDocument at starts
    split at starts
    · exact ⟨'-', .inl rfl, _, rfl⟩
    · cases starts
  · unfold endsDocument at ends
    split at ends
    · exact ⟨'.', .inr rfl, _, rfl⟩
    · cases ends

/-- A kept text does not start like a mark of a document. -/
theorem boundsDocument_append (kept : Plain.IsKept characters) {stop : List Char}
    (ended : ∀ next ∈ stop.head?, next ≠ '-' ∧ next ≠ '.') :
    boundsDocument (characters ++ stop) = false := by
  refine Bool.eq_false_iff.mpr fun bounds => ?_
  obtain ⟨mark, spelled, others, same⟩ := exists_mark_of_boundsDocument bounds
  have notNext : ∀ more, stop ≠ mark :: more := by
    rintro more rfl
    obtain ⟨noHyphen, noPoint⟩ := ended mark rfl
    exact spelled.elim noHyphen noPoint
  have plain := kept.plain
  rcases characters with _ | ⟨first, _ | ⟨second, _ | ⟨third, more⟩⟩⟩
  · exact kept.nonempty rfl
  · exact notNext _ (List.cons.inj same).2
  · exact notNext _ (List.cons.inj (List.cons.inj same).2).2
  · simp only [List.cons_append, List.cons.injEq] at same
    obtain ⟨rfl, rfl, rfl, -⟩ := same
    rcases spelled with rfl | rfl <;> simp [hasIndicator] at plain

/-- No other token starts where a kept text does. -/
theorem token?_inBlock (kept : Plain.IsKept (first :: later)) {stop : List Char}
    (ended : ∀ next ∈ stop.head?, next ≠ '-' ∧ next ≠ '.') :
    (inBlock (first :: later ++ stop) position blocks keyAllowed possibleKey tokens).token? first
        (later ++ stop) =
      (inBlock (first :: later ++ stop) position blocks keyAllowed possibleKey tokens).plain? := by
  obtain ⟨noStart, noEnd⟩ := Bool.or_eq_false_iff.mp (boundsDocument_append kept ended)
  have noGap := kept.isGap_first
  have plain := kept.plain
  simp only [hasIndicator, Bool.or_eq_false_iff] at plain
  obtain ⟨⟨-, notIndicator⟩, -⟩ := plain
  by_cases special : first = '-' ∨ first = '?' ∨ first = ':'
  · have inside : startsWithGap later = false := by
      rcases special with rfl | rfl | rfl <;> simpa using notIndicator
    have goesOn : startsWithGap (later ++ stop) = false := by
      cases later with
      | nil => cases inside
      | cons => exact inside
    have noBlank : (later ++ stop).head?.any isBlank = false := by
      cases later with
      | nil => cases inside
      | cons => exact (Bool.or_eq_false_iff.mp inside).1
    rcases special with rfl | rfl | rfl <;>
      simp_all [token?, inBlock, inFlow, Plain.starts]
  · have noIndicator : Plain.isIndicator first = false := by simp_all
    have others : ∀ mark ∈ ['[', '{', ']', '}', ',', '*', '&', '!', '|', '>', '\'', '"', '%'],
        first ≠ mark := by
      rintro mark member rfl
      have all : ['[', '{', ']', '}', ',', '*', '&', '!', '|', '>', '\'', '"', '%'].all
          Plain.isIndicator := by decide
      simp [List.all_eq_true.mp all first member] at noIndicator
    simp only [List.forall_mem_cons] at others
    simp_all [token?, inBlock, inFlow, Plain.starts]

theorem starts_of_isKept (kept : Plain.IsKept characters) (stop : List Char) :
    Starts (characters ++ stop) := by
  obtain ⟨first, later, rfl⟩ := List.exists_cons_of_ne_nil kept.nonempty
  rintro _ _ ⟨⟩
  refine ⟨kept.isGap_first, ?_, ?_⟩
  · rintro rfl
    simpa [hasIndicator, Plain.isIndicator] using kept.plain
  · rintro rfl
    exact absurd (kept.printable orderMark List.mem_cons_self) (by decide)

/-- A kept text is read up to what ends it. -/
theorem leads_plain (kept : Plain.IsKept characters) (gap : List Char) {stop : List Char}
    (split : stop = gap ++ rest) (inside : ∀ block ∈ blocks.head?, block ≤ position.column)
    {broken : Bool} (stops : Plain.Stops ((blocks.head?.map (· + 1)).getD 0) stop broken rest)
    (ended : ∀ next ∈ stop.head?, next ≠ '-' ∧ next ≠ '.') :
    Leads (inBlock (characters ++ stop) position blocks keyAllowed none tokens)
      (inBlock rest ((characters ++ gap).foldl Position.after position) blocks broken
        (noted position blocks keyAllowed tokens)
        (tokens ++ [.scalar .plain (String.ofList characters)])) := by
  subst split
  have starts := starts_of_isKept kept (gap ++ rest)
  obtain ⟨first, later, rfl⟩ := List.exists_cons_of_ne_nil kept.nonempty
  have here : (inBlock (first :: later ++ (gap ++ rest)) position blocks keyAllowed none
      tokens).token? first (later ++ (gap ++ rest)) =
    some ((inBlock (first :: later ++ (gap ++ rest)) position blocks keyAllowed
      (noted position blocks keyAllowed tokens) tokens).accept
        (.scalar .plain (String.ofList (first :: later))) broken rest) := by
    have read := kept.text?_append stops
    have allowed := @mayBeKey?_inBlock (first :: later ++ (gap ++ rest)) position blocks keyAllowed
      tokens
    refine (token?_inBlock kept ended).trans ?_
    rw [plain?]
    simp only [inBlock, inFlow, List.isEmpty_nil, Bool.not_true] at read allowed ⊢
    simp only [read, allowed, Option.bind_eq_bind, Option.bind_some]
  simp only [List.cons_append, ← List.append_assoc] at starts here ⊢
  exact leads_accept starts inside here

theorem leads_singleQuoted (kept : Quoted.IsKept characters) (closed : rest.head? ≠ some '\'')
    (inside : ∀ block ∈ blocks.head?, block ≤ position.column) {spelled : List Char}
    (written : spelled = Quoted.closeSingle [' ', ' '] false characters) :
    Leads (inBlock ('\'' :: spelled ++ rest) position blocks keyAllowed none tokens)
      (inBlock rest (('\'' :: spelled).foldl Position.after position) blocks false
        (noted position blocks keyAllowed tokens)
        (tokens ++ [.scalar .singleQuoted (String.ofList characters)])) := by
  have here : (inBlock ('\'' :: spelled ++ rest) position blocks keyAllowed none tokens).token? '\''
      (spelled ++ rest) =
    (inBlock ('\'' :: spelled ++ rest) position blocks keyAllowed none tokens).singleQuoted?
      (spelled ++ rest) := by
    simp [token?, inBlock, inFlow, startsDocument, endsDocument]
  refine leads_accept (starts_cons (by decide) _) inside
    (here.trans ?_)
  rw [singleQuoted?, written, kept.single?_closeSingle closed, ← written, mayBeKey?_inBlock]
  rfl

theorem leads_doubleQuoted (inside : ∀ block ∈ blocks.head?, block ≤ position.column)
    {spelled : List Char} (written : spelled = Quoted.closeDouble characters) :
    Leads (inBlock ('"' :: spelled ++ rest) position blocks keyAllowed none tokens)
      (inBlock rest (('"' :: spelled).foldl Position.after position) blocks false
        (noted position blocks keyAllowed tokens)
        (tokens ++ [.scalar .doubleQuoted (String.ofList characters)])) := by
  have here : (inBlock ('"' :: spelled ++ rest) position blocks keyAllowed none tokens).token? '"'
      (spelled ++ rest) =
    (inBlock ('"' :: spelled ++ rest) position blocks keyAllowed none tokens).doubleQuoted?
      (spelled ++ rest) := by
    simp [token?, inBlock, inFlow, startsDocument, endsDocument]
  refine leads_accept (starts_cons (by decide) _) inside
    (here.trans ?_)
  rw [doubleQuoted?, written, Quoted.double?_closeDouble, ← written, mayBeKey?_inBlock]
  rfl

/-- A literal block is read up to the next line of the collection around it. -/
theorem leads_literal (nonempty : characters ≠ []) (noTab : characters.head? ≠ some '\t')
    (ends : Block.EndsBlock next) :
    Leads (inBlock (Block.literal 2 characters ++ Block.lineEnd characters ++ next) position [0]
        keyAllowed none tokens)
      (inBlock next
        ((Block.literal 2 characters ++ Block.lineEnd characters).foldl Position.after position)
        [0] true none (tokens ++ [.scalar .literal (String.ofList characters)])) := by
  obtain ⟨block, spelled, read⟩ := Block.read?_literal nonempty noTab ends
  rw [spelled]
  have here : (inBlock ('|' :: block ++ Block.lineEnd characters ++ next) position [0] keyAllowed
      none tokens).token? '|' (block ++ Block.lineEnd characters ++ next) =
    (inBlock ('|' :: block ++ Block.lineEnd characters ++ next) position [0] keyAllowed none
      tokens).blockScalar? .literal (block ++ Block.lineEnd characters ++ next) := by
    simp [token?, inBlock, inFlow, startsDocument, endsDocument]
  refine leads_accept (starts_cons (by decide) _) (by simp)
    (here.trans ?_)
  rw [← List.append_assoc] at read
  rw [blockScalar?]
  change Option.bind (Block.read? false (some 0) _) _ = _
  rw [read]
  rfl

end Tokens

end Layout

end ChangeImpact.Yaml
