/-
This file folds the blanks and line breaks between two words of a scalar.
-/

import ChangeImpact.Yaml.Character

namespace ChangeImpact.Yaml

/-- A run of blanks and line breaks. -/
structure Gap where
  /-- The line breaks of the run, in order. -/
  breaks : List Char
  /-- The blanks after the last line break. -/
  blanks : List Char
  /-- Whether a backslash before the first line break takes it away. -/
  escaped : Bool
deriving DecidableEq, Repr

namespace Gap

def empty : Gap := ⟨[], [], false⟩

/-- The run that an escaped line break starts. -/
def afterEscapedBreak : Gap := ⟨[], [], true⟩

def isEmpty (gap : Gap) : Bool :=
  gap.breaks.isEmpty && gap.blanks.isEmpty && !gap.escaped

/-- Whether the text goes on in another line. -/
def isBroken (gap : Gap) : Bool :=
  gap.escaped || !gap.breaks.isEmpty

/-- The column after the run, once a line has been broken. -/
def column (gap : Gap) : Nat :=
  gap.blanks.length

def addBlank (gap : Gap) (blank : Char) : Gap :=
  { gap with blanks := gap.blanks ++ [blank] }

def addBreak (gap : Gap) (lineBreak : Char) : Gap :=
  { gap with breaks := gap.breaks ++ [lineBreak], blanks := [] }

def add (gap : Gap) (character : Char) : Gap :=
  if isBreak character then gap.addBreak character else gap.addBlank character

/-- What the run stands for: within a line its blanks, between two lines a space. Further line
breaks are kept instead of the space, and separators of lines and paragraphs always are. -/
def text (gap : Gap) : List Char :=
  if gap.escaped then gap.breaks
  else match gap.breaks with
    | [] => gap.blanks
    | ['\n'] => [' ']
    | '\n' :: further => further
    | breaks => breaks

/-- Whether a document ends or starts where the run ends. -/
def meetsBound (gap : Gap) (rest : List Char) : Bool :=
  gap.isBroken && gap.blanks.isEmpty && boundsDocument rest

end Gap

end ChangeImpact.Yaml
