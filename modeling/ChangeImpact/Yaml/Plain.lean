/-
This file reads plain scalars.
-/

import ChangeImpact.Yaml.Gap

namespace ChangeImpact.Yaml

/-- The brackets and the comma that structure flow collections. -/
def isFlowMark (character : Char) : Bool :=
  [',', '[', ']', '{', '}'].contains character

namespace Plain

/-- Characters that have a meaning of their own where a scalar may start. -/
def isIndicator (character : Char) : Bool :=
  ['-', '?', ':', ',', '[', ']', '{', '}', '#', '&', '*', '!', '|', '>', '\'', '"', '%', '@',
    '`'].contains character

/-- Whether a plain scalar can start here, when no other token does. -/
def starts (inFlow : Bool) : List Char → Bool
  | [] => false
  | character :: rest =>
    !isGap character && !isIndicator character ||
      character == '-' && !(rest.head?.any isBlank) ||
      !inFlow && (character == '?' || character == ':') && !startsWithGap rest

/-- Whether a colon ends a key here. -/
def meetsColon (character : Char) (rest : List Char) : Bool :=
  character == ':' && startsWithGap rest

/-- Whether a plain scalar ends before this character. In block context it also ends at the first
line that starts before the column `indent`. -/
def ends (inFlow : Bool) (indent : Nat) (gap : Gap) (character : Char) (rest : List Char) : Bool :=
  !inFlow && gap.isBroken && gap.column < indent ||
    gap.meetsBound (character :: rest) ||
    character == '#' && !gap.isEmpty ||
    meetsColon character rest ||
    inFlow && isFlowMark character

/-- In flow context a colon does not stand before a mark. -/
def clashes (inFlow : Bool) (character : Char) (rest : List Char) : Bool :=
  inFlow && character == ':' && rest.head?.any fun next => next == '?' || isFlowMark next

/-- The text of a plain scalar after a gap, whether the scalar is followed by a line break, and
the rest. A tab cannot take part in the indentation. -/
def text? (inFlow : Bool) (indent : Nat) : Gap → List Char → Option (List Char × Bool × List Char)
  | gap, [] => some ([], gap.isBroken, [])
  | gap, character :: rest =>
    if isGap character then
      if character == '\t' && gap.isBroken && gap.column < indent then none
      else text? inFlow indent (gap.add character) rest
    else if ends inFlow indent gap character rest then
      some ([], gap.isBroken, character :: rest)
    else if clashes inFlow character rest then none
    else do
      let (text, broken, rest) ← text? inFlow indent .empty rest
      some (gap.text ++ character :: text, broken, rest)

end Plain

end ChangeImpact.Yaml
