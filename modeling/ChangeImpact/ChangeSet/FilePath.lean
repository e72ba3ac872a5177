/-
This file takes the paths of files apart.
-/

import ChangeImpact.Text.Segment

namespace ChangeImpact

/-- A path in parts: the root or the current directory that it starts from, if it names one, and
the segments after that. The last segment is neither empty nor a point. -/
structure FilePath where
  lead : List Char
  segments : List (List Char)
deriving DecidableEq, Repr

namespace FilePath

/-- Whether a segment stands for the directory that it is in. -/
def isIdle (segment : List Char) : Bool :=
  segment == [] || segment == ['.']

def dropIdle (segments : List (List Char)) : List (List Char) :=
  (segments.reverse.dropWhile isIdle).reverse

def ofCharacters (characters : List Char) : FilePath :=
  match characters with
  | '/' :: rest => ⟨['/'], dropIdle (Text.splitAt '/' rest)⟩
  | ['.'] => ⟨['.'], []⟩
  | '.' :: '/' :: rest => ⟨['.'], dropIdle ([] :: Text.splitAt '/' rest)⟩
  | _ => ⟨[], dropIdle (Text.splitAt '/' characters)⟩

def ofText (text : String) : FilePath :=
  ofCharacters text.toList

def join : List (List Char) → List Char
  | [] => []
  | [segment] => segment
  | segment :: next :: rest => segment ++ '/' :: join (next :: rest)

/-- The directory of a path, as far as it is written; the root and the empty path have none. -/
def parent? (path : FilePath) : Option (List Char) :=
  if path.segments.isEmpty then
    if path.lead = ['.'] then some [] else none
  else some (path.lead ++ join (dropIdle path.segments.dropLast))

/-- The last segment, unless it leads back up. -/
def name? (path : FilePath) : Option (List Char) :=
  path.segments.getLast?.filter (· ≠ ['.', '.'])

/-- The part of a name after its last point, unless that point starts the name. -/
def extension? (path : FilePath) : Option (List Char) := do
  let name ← path.name?
  let reversed := name.reverse
  match reversed.dropWhile (· ≠ '.') with
  | [] => none
  | [_] => none
  | _ => some (reversed.takeWhile (· ≠ '.')).reverse

end FilePath

end ChangeImpact
