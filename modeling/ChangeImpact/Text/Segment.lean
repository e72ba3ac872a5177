/-
This file cuts paths into segments.
-/

namespace ChangeImpact.Text

/-- The parts of a list between the occurrences of a separator; there is always one. -/
def splitAt (separator : Char) : List Char → List (List Char)
  | [] => [[]]
  | character :: rest =>
    if character = separator then [] :: splitAt separator rest
    else
      match splitAt separator rest with
      | [] => [[character]]
      | part :: parts => (character :: part) :: parts

/-- The segments of a path, in order, also the empty ones. -/
def segments (path : String) : List String :=
  (splitAt '/' path.toList).map String.ofList

def lastSegment (path : String) : String :=
  (segments path).getLastD ""

/-- The text with every slash replaced. -/
def replaceSlashes (replacement : Char) (path : String) : String :=
  path.map fun character => if character = '/' then replacement else character

end ChangeImpact.Text
