/-
This file paints text with the escape sequences of terminals.
-/

namespace ChangeImpact.Terminal

inductive Colour where
  | red
  | green
  | yellow
  | cyan
  | white
deriving DecidableEq, Repr

namespace Colour

def code : Colour → String
  | red => "31"
  | green => "32"
  | yellow => "33"
  | cyan => "36"
  | white => "37"

end Colour

structure Ink where
  colour : Option Colour
  bold : Bool
  dimmed : Bool
deriving DecidableEq, Repr

namespace Ink

def dim : Ink := ⟨none, false, true⟩

def coloured (colour : Colour) : Ink := ⟨some colour, false, false⟩

def boldly (colour : Colour) : Ink := ⟨some colour, true, false⟩

/-- The sequence that takes all paint away. -/
def reset : String := "\x1b[0m"

def start (ink : Ink) : String :=
  let codes :=
    (if ink.bold then ["1"] else []) ++ (if ink.dimmed then ["2"] else []) ++
      (ink.colour.map Colour.code).toList
  let codes := String.intercalate ";" codes
  s!"\x1b[{codes}m"

end Ink

/-- Whether text is painted at all. -/
inductive Palette where
  | plain
  | painted
deriving DecidableEq, Repr

/-- The text in the given ink. Paint within the text ends there, and an empty text needs none. -/
def Palette.paint (palette : Palette) (ink : Ink) (text : String) : String :=
  match palette with
  | plain => text
  | painted =>
    if text.isEmpty then text
    else ink.start ++ text.replace Ink.reset (Ink.reset ++ ink.start) ++ Ink.reset

end ChangeImpact.Terminal
