/-
This file reads block scalars and writes literal ones.
-/

import ChangeImpact.Yaml.Character

namespace ChangeImpact.Yaml.Block

/-- What becomes of the line breaks at the end of a block scalar: all are dropped, one is kept, or
all are kept. -/
inductive Chomping where
  | strip
  | clip
  | keep
deriving DecidableEq, Repr

structure Header where
  chomping : Chomping
  /-- How far the text is indented, if the header gives it. -/
  increment : Option Nat
deriving DecidableEq, Repr

namespace Header

def chomping? : List Char → Option Chomping × List Char
  | '-' :: rest => (some .strip, rest)
  | '+' :: rest => (some .keep, rest)
  | rest => (none, rest)

/-- A digit other than zero gives the indentation. -/
def increment? : List Char → Option (Option Nat × List Char)
  | [] => some (none, [])
  | digit :: rest =>
    if digit.isDigit then
      if digit = '0' then none else some (some (digit.toNat - '0'.toNat), rest)
    else some (none, digit :: rest)

/-- The header after the character that starts a block scalar, and the lines after it. -/
def read? (characters : List Char) : Option (Header × List Char) := do
  let (first, rest) := chomping? characters
  let (increment, rest) ← increment? rest
  let (chomping, rest) :=
    if first.isNone && increment.isSome then chomping? rest else (first, rest)
  let rest ← nextLine? rest
  some (⟨chomping.getD .clip, increment⟩, rest)

end Header

/-- The widest of the columns that blank lines and the first line of text start at; `column` spaces
have been read. A tab cannot take part in the indentation. -/
def widestColumn? : Nat → List Char → Option Nat
  | column, [] => some column
  | column, ' ' :: rest => widestColumn? (column + 1) rest
  | _, '\t' :: _ => none
  | column, character :: rest =>
    if isBreak character then (widestColumn? 0 rest).map (max column) else some column

/-- The line breaks since the last line of text: the one that ends it, if there is such a line, and
those of the blank lines after it. -/
structure Separation where
  ending : List Char
  further : List Char
  /-- Whether the last line of text starts with a blank. -/
  afterBlank : Bool

namespace Separation

/-- No line of text has been read. -/
def initial : Separation := ⟨[], [], false⟩

def addBreak (separation : Separation) (lineBreak : Char) : Separation :=
  { separation with further := separation.further ++ [lineBreak] }

/-- What stands between two lines of text. Where lines are folded, a single line feed becomes a
space, and one before blank lines is dropped, unless one of the lines starts with a blank. -/
def text (folded beforeBlank : Bool) (separation : Separation) : List Char :=
  if folded && separation.ending == ['\n'] && !separation.afterBlank && !beforeBlank then
    if separation.further.isEmpty then [' '] else separation.further
  else separation.ending ++ separation.further

/-- What stands after the last line of text. -/
def final (chomping : Chomping) (separation : Separation) : List Char :=
  match chomping with
  | .strip => []
  | .clip => separation.ending
  | .keep => separation.ending ++ separation.further

end Separation

/-- Where the reading of a block scalar stands: in the spaces before a line, `column` of them being
read, or within a line. -/
inductive Place where
  | before (column : Nat) (separation : Separation)
  | within (startsBlank : Bool)

/-- The text of a block scalar whose lines start at the column `indent`, and what follows it. The
scalar ends at a character before that column. -/
def text? (folded : Bool) (chomping : Chomping) (indent : Nat) :
    Place → List Char → Option (List Char × List Char)
  | .before _ separation, [] => some (separation.final chomping, [])
  | .within _, [] => some ([], [])
  | .before column separation, character :: rest =>
    if column < indent && character == ' ' then
      text? folded chomping indent (.before (column + 1) separation) rest
    else if column < indent && character == '\t' then none
    else if isBreak character then
      text? folded chomping indent (.before 0 (separation.addBreak character)) rest
    else if column < indent then some (separation.final chomping, character :: rest)
    else do
      let startsBlank := isBlank character
      let (text, rest) ← text? folded chomping indent (.within startsBlank) rest
      some (separation.text folded startsBlank ++ character :: text, rest)
  | .within startsBlank, character :: rest =>
    if isBreak character then
      text? folded chomping indent (.before 0 ⟨[character], [], startsBlank⟩) rest
    else do
      let (text, rest) ← text? folded chomping indent (.within startsBlank) rest
      some (character :: text, rest)

/-- A block scalar after the character that starts it, and what follows. The collection around it
starts at the column `parent`; unless the header gives the indentation, the first line of text
does, or a blank line before it that is wider. -/
def read? (folded : Bool) (parent : Option Nat) (characters : List Char) :
    Option (List Char × List Char) := do
  let (header, lines) ← Header.read? characters
  let indent ← match header.increment with
    | some increment => some (parent.getD 0 + increment)
    | none => do
      let widest ← widestColumn? 0 lines
      some (max widest (max ((parent.map (· + 1)).getD 0) 1))
  text? folded header.chomping indent (.before 0 .initial) lines

/-- How the lines of a text are kept apart from what follows: the end of the text shows it. -/
def endMark (characters : List Char) : List Char :=
  match characters.reverse with
  | [] => ['-']
  | last :: before =>
    if !isBreak last then ['-']
    else match before with
      | [] => ['+']
      | next :: _ => if isBreak next then ['+'] else []

/-- Whether a text could be taken for one that is indented further, so that the header has to give
the indentation. -/
def hidesIndent (characters : List Char) : Bool :=
  match characters with
  | [] => false
  | first :: _ => first == ' ' || isBreak first

/-- The lines of a text, each with text in it indented. -/
def indentLines (indentation : List Char) : Bool → List Char → List Char
  | _, [] => []
  | broken, character :: rest =>
    if isBreak character then character :: indentLines indentation true rest
    else (if broken then indentation else []) ++ character :: indentLines indentation false rest

/-- A text as a literal block scalar, indented by `indent` from the collection around it. -/
def literal (indent : Nat) (characters : List Char) : List Char :=
  '|' :: (if hidesIndent characters then Nat.toDigits 10 indent else []) ++
    endMark characters ++
    '\n' :: indentLines (List.replicate indent ' ') true characters

end ChangeImpact.Yaml.Block
