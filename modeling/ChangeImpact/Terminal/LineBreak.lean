/-
This file says between which characters a line of text may be broken.
-/

import ChangeImpact.Terminal.Width

namespace ChangeImpact.Terminal

/-- How a character behaves in line breaking, by the classes of Unicode that matter here. -/
inductive BreakClass where
  /-- The line ends after it. -/
  | mandatory
  | space
  /-- Belongs to the character before it. -/
  | combining
  | glue
  | alphabetic
  | numeric
  | ideographic
  | hyphen
  | breakAfter
  | slash
  | opening
  | closingBrace
  | closingParenthesis
  | quotation
  | exclamation
  /-- Separates the parts of a number. -/
  | separator
  /-- A sign in front of a number. -/
  | leadingSign
  /-- A sign behind a number. -/
  | trailingSign
deriving DecidableEq, Repr

namespace BreakClass

def ofChar (character : Char) : BreakClass :=
  if character == ' ' then space
  else if ['\n', '\x0b', '\x0c', '\r', '\u0085', '\u2028', '\u2029'].contains character then
    mandatory
  else if character == '\t' || character == '|' then breakAfter
  else if isControl character || isCombining character then combining
  else if character == '\u00a0' then glue
  else if character.isDigit then numeric
  else if character == '-' then hyphen
  else if character == '/' then slash
  else if ['(', '[', '\x7b'].contains character then opening
  else if character == '\x7d' then closingBrace
  else if [')', ']'].contains character then closingParenthesis
  else if ['\'', '"'].contains character then quotation
  else if ['!', '?'].contains character then exclamation
  else if [',', '.', ':', ';'].contains character then separator
  else if ['$', '+', '\\'].contains character then leadingSign
  else if character == '%' then trailingSign
  else if isWide character then ideographic
  else alphabetic

/-- Pairs of classes that stay together when nothing stands between them. -/
def clings : BreakClass → BreakClass → Bool
  | alphabetic, alphabetic => true
  | alphabetic, numeric => true
  | alphabetic, leadingSign => true
  | alphabetic, trailingSign => true
  | alphabetic, opening => true
  | numeric, numeric => true
  | numeric, alphabetic => true
  | numeric, leadingSign => true
  | numeric, trailingSign => true
  | numeric, opening => true
  | leadingSign, alphabetic => true
  | leadingSign, numeric => true
  | leadingSign, opening => true
  | leadingSign, ideographic => true
  | trailingSign, alphabetic => true
  | trailingSign, numeric => true
  | trailingSign, opening => true
  | ideographic, trailingSign => true
  | closingBrace, leadingSign => true
  | closingBrace, trailingSign => true
  | closingParenthesis, leadingSign => true
  | closingParenthesis, trailingSign => true
  | closingParenthesis, alphabetic => true
  | closingParenthesis, numeric => true
  | separator, alphabetic => true
  | separator, numeric => true
  | slash, numeric => true
  | hyphen, numeric => true
  | _, _ => false

/-- Classes that never start a line, not even after a space. -/
def neverStarts : BreakClass → Bool
  | mandatory => true
  | space => true
  | closingBrace => true
  | closingParenthesis => true
  | exclamation => true
  | separator => true
  | slash => true
  | _ => false

/-- Whether a line may be broken between two characters, which spaces may separate. -/
def breaks (before : BreakClass) (spaced : Bool) (after : BreakClass) : Bool :=
  if !spaced && before == mandatory then true
  else if neverStarts after then false
  else if before == opening then false
  else if spaced then !(before == quotation && after == opening)
  else
    !(before == glue || before == quotation || clings before after ||
      [combining, quotation, hyphen, breakAfter].contains after ||
      after == glue && before != breakAfter && before != hyphen)

end BreakClass

/-- Where the search for breaks stands: the last class that is not a space, and whether spaces
follow it. -/
structure BreakState where
  before : BreakClass
  spaced : Bool
deriving DecidableEq, Repr

namespace BreakState

/-- The state after a character. A character that combines with nothing counts as a letter. -/
def next (state : BreakState) (character : Char) : BreakState :=
  match BreakClass.ofChar character with
  | .space => if state.before == .mandatory then ⟨.alphabetic, true⟩ else ⟨state.before, true⟩
  | .combining => if state.spaced then ⟨.alphabetic, false⟩ else state
  | found => ⟨found, false⟩

def breaksBefore (state : BreakState) (character : Char) : Bool :=
  let found := BreakClass.ofChar character
  let found := if found == .combining && state.spaced then .alphabetic else found
  BreakClass.breaks state.before state.spaced found

end BreakState

/-- Cuts a line where it may be broken. A hyphen is left to `Word.parts`. -/
def cutFrom : BreakState → (previous : Char) → List Char → List (List Char)
  | _, _, [] => [[]]
  | state, previous, character :: rest =>
    let pieces := cutFrom (state.next character) character rest
    let pieces := match pieces with
      | [] => [[character]]
      | piece :: pieces => (character :: piece) :: pieces
    if state.breaksBefore character && previous != '-' then [] :: pieces else pieces

def cut : List Char → List (List Char)
  | [] => []
  | character :: rest =>
    let initial : BreakState := ⟨.alphabetic, false⟩
    match cutFrom (initial.next character) character rest with
    | [] => [[character]]
    | piece :: pieces => (character :: piece) :: pieces

end ChangeImpact.Terminal
