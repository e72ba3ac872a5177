/-
This file decides which modules a list of globs excludes.
-/

import ChangeImpact.Glob.Match

namespace ChangeImpact

/-- A glob, as it was given and as it was read. -/
structure Glob where
  pattern : String
  pieces : List Glob.Piece
deriving Repr

namespace Glob

def ofPattern? (pattern : String) : Except Fault Glob := do
  return ⟨pattern, ← pieces? pattern.toList⟩

def covers (glob : Glob) (path : String) : Bool :=
  matchesBytes glob.pieces (bytes path)

/-- The part of a path after its last slash, unless it leads back up. -/
def fileName? (path : List UInt8) : Option (List UInt8) :=
  let name := (path.reverse.takeWhile (· ≠ slash)).reverse
  if path.isEmpty ∨ name = bytes ".." then none else some name

/-- The part of a file name from its last point on. -/
def extension? (name : List UInt8) : Option (List UInt8) :=
  let point := 46
  if name.contains point then
    some (point :: (name.reverse.takeWhile (· ≠ point)).reverse)
  else none

/-- The characters that pieces stand for if each of them stands for one. -/
def literals? : List Piece → Option (List Char)
  | [] => some []
  | .literal character :: rest => (literals? rest).map (character :: ·)
  | _ => none

/-- The characters from the last point of a pattern to its end, if they are all fixed and none of
them is a slash. -/
def literalExtension? (reversed : List Piece) : Option (List Char) :=
  match reversed with
  | .literal '.' :: _ => some ['.']
  | .literal character :: rest =>
    if character = '/' then none else (literalExtension? rest).map (· ++ [character])
  | _ => none

/-- What a path is tested for first. -/
inductive Shape where
  /-- The last part of the path is fixed, and all before it is free. -/
  | fileName (name : List Char)
  /-- The last part of the path has a fixed extension. -/
  | extension (name : List Char)
  | whole
deriving DecidableEq, Repr

def shape (glob : Glob) : Shape :=
  match glob.pieces with
  | .leadingDirectories :: rest =>
    match literals? rest with
    | some (first :: name) => if '/' ∈ first :: name then .whole else .fileName (first :: name)
    | some [] => .whole
    | none => ((literalExtension? rest.reverse).map .extension).getD .whole
  | pieces =>
    if (literals? pieces).isSome then .whole
    else ((literalExtension? pieces.reverse).map .extension).getD .whole

def charactersBytes (characters : List Char) : List UInt8 :=
  characters.flatMap characterBytes

/-- Whether the glob takes a path out of an analysis. It does so if it covers the path, except that
a path whose last part leads back up has neither a file name nor an extension. -/
def excludes (glob : Glob) (path : String) : Bool :=
  let name := fileName? (bytes path)
  match glob.shape with
  | .fileName fixed => name == some (charactersBytes fixed)
  | .extension fixed =>
    (name.bind extension?) == some (charactersBytes fixed) && glob.covers path
  | .whole => glob.covers path

end Glob

/-- The globs of the modules that an analysis leaves out. -/
structure Exclusion where
  globs : List Glob
deriving Repr

namespace Exclusion

/-- A pattern that cannot be read. -/
structure Error where
  pattern : String
  fault : Glob.Fault
deriving DecidableEq, Repr

def Error.message (error : Error) : String :=
  s!"invalid exclude pattern '{error.pattern}': error parsing glob '{error.pattern}': " ++
    error.fault.message

/-- Reads the patterns in order; the first that cannot be read is the error. -/
def ofPatterns? (patterns : List String) : Except Error Exclusion := do
  return ⟨← patterns.mapM fun pattern => (Glob.ofPattern? pattern).mapError (⟨pattern, ·⟩)⟩

/-- Whether an analysis leaves a module out. -/
def excludes (exclusion : Exclusion) (path : String) : Bool :=
  exclusion.globs.any (·.excludes path)

/-- The first pattern that covers a module. -/
def matchingPattern? (exclusion : Exclusion) (path : String) : Option String :=
  (exclusion.globs.find? (·.covers path)).map Glob.pattern

end Exclusion

end ChangeImpact
