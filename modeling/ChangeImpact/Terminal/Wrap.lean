/-
This file breaks a line of text into lines of limited width at the least cost.
-/

import ChangeImpact.Terminal.LineBreak

namespace ChangeImpact.Terminal

/-- A piece of text that stays in one line, and the number of spaces after it. -/
structure Word where
  text : List Char
  spaces : Nat
deriving DecidableEq, Repr

namespace Word

def width (word : Word) : Nat :=
  Terminal.width word.text

def ofPiece (piece : List Char) : Word :=
  let spaces := (piece.reverse.takeWhile (· == ' ')).length
  ⟨piece.take (piece.length - spaces), spaces⟩

/-- Letters and digits; from the accented letters on, every character outside the blocks of
punctuation and symbols counts. -/
def isLetterOrDigit (character : Char) : Bool :=
  let point := character.toNat
  character.isAlphanum ||
    [0xAA, 0xB2, 0xB3, 0xB5, 0xB9, 0xBA, 0xBC, 0xBD, 0xBE].contains point ||
    0xC0 ≤ point && point != 0xD7 && point != 0xF7 && !(0x2000 ≤ point && point < 0x2C00) &&
      !(0x3000 ≤ point && point < 0x3040) && !(0x1F000 ≤ point && point < 0x20000)

/-- Cuts after each hyphen between two letters or digits. -/
def hyphenated : (previous : Option Char) → List Char → List (List Char)
  | _, [] => [[]]
  | previous, character :: rest =>
    let pieces := hyphenated (some character) rest
    let isCut :=
      character == '-' && previous.any isLetterOrDigit && rest.head?.any isLetterOrDigit
    if isCut then [character] :: pieces
    else match pieces with
      | [] => [[character]]
      | piece :: pieces => (character :: piece) :: pieces

/-- Cuts into pieces that are no wider than the limit, as far as single characters are not. -/
def narrowed (limit : Nat) : (used : Nat) → List Char → List (List Char)
  | _, [] => [[]]
  | used, character :: rest =>
    let columns := Terminal.columns character
    if 0 < used && limit < used + columns then
      match narrowed limit columns rest with
      | [] => [[], [character]]
      | piece :: pieces => [] :: (character :: piece) :: pieces
    else
      match narrowed limit (used + columns) rest with
      | [] => [[character]]
      | piece :: pieces => (character :: piece) :: pieces

/-- The parts of a word that a line can be broken between. The spaces follow the last one. -/
def parts (limit : Nat) (word : Word) : List Word :=
  let texts := (hyphenated none word.text).flatMap fun text =>
    if limit < Terminal.width text then narrowed limit 0 text else [text]
  texts.dropLast.map (⟨·, 0⟩) ++ texts.getLast?.toList.map (⟨·, word.spaces⟩)

end Word

/-- The words of a line, which may be broken between any two of them. -/
def words (limit : Nat) (line : List Char) : List Word :=
  (cut line).flatMap fun piece => (Word.ofPiece piece).parts limit

/-- A line of words. -/
structure Row where
  /-- The last word comes first. -/
  reversed : List Word
  /-- The columns up to the last word. -/
  start : Nat
deriving DecidableEq, Repr

namespace Row

def empty : Row := ⟨[], 0⟩

def lastWidth (row : Row) : Nat :=
  (row.reversed.head?.map Word.width).getD 0

/-- The columns that the row takes without the spaces at its end. -/
def width (row : Row) : Nat :=
  row.start + row.lastWidth

def push (row : Row) (word : Word) : Row :=
  ⟨word :: row.reversed, row.width + (row.reversed.head?.map Word.spaces).getD 0⟩

/-- Every row has its price; one that is too wide pays for each column, and one that is too narrow
for the square of the gap. The last row may be narrow, unless it is a single short word. -/
def cost (limit : Nat) (isLast : Bool) (row : Row) : Nat :=
  1000 +
    if limit < row.width then 2500 * (row.width - limit)
    else if !isLast then (limit - row.width) * (limit - row.width)
    else if row.reversed.length = 1 ∧ 4 * row.width < limit then 25
    else 0

def text (row : Row) : List Char :=
  match row.reversed with
  | [] => []
  | last :: before =>
    (before.reverse.flatMap fun word => word.text ++ List.replicate word.spaces ' ') ++ last.text

end Row

/-- Some words in rows, with the cost of them. -/
structure Paragraph where
  cost : Nat
  /-- The last row comes first. -/
  reversed : List Row
deriving DecidableEq, Repr

namespace Paragraph

def empty : Paragraph := ⟨0, []⟩

/-- The paragraph with another row. -/
def push (limit : Nat) (isLast : Bool) (paragraph : Paragraph) (row : Row) : Paragraph :=
  ⟨paragraph.cost + row.cost limit isLast, row :: paragraph.reversed⟩

/-- The first of the cheapest paragraphs. -/
def cheapest (first : Paragraph) (others : List Paragraph) : Paragraph :=
  others.foldl (fun best other => if other.cost < best.cost then other else best) first

/-- The cheapest rows for all words: `best` is the cheapest paragraph of the words before, and each
of the `openings` is the cheapest one up to some place, with a row of the words after that place.
The longest rows come first. -/
def fill (limit : Nat) (best : Paragraph) : (openings : List (Paragraph × Row)) → List Word →
    Paragraph
  | _, [] => best
  | openings, word :: rest =>
    let openings := (openings ++ [(best, Row.empty)]).map fun (paragraph, row) =>
      (paragraph, row.push word)
    let closed := openings.map fun (paragraph, row) => paragraph.push limit rest.isEmpty row
    match closed with
    | [] => best
    | first :: others => fill limit (cheapest first others) openings rest

end Paragraph

/-- The rows of a line without line feeds. -/
def wrapLine (limit : Nat) (line : List Char) : List String :=
  match (Paragraph.fill limit .empty [] (words limit line)).reversed with
  | [] => [""]
  | rows => rows.reverse.map fun row => String.ofList row.text

/-- The rows of a text, at least one for each of its lines. -/
def wrap (limit : Nat) (text : String) : List String :=
  (text.splitOn "\n").flatMap fun line => wrapLine limit line.toList

end ChangeImpact.Terminal
