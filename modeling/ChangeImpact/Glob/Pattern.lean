/-
This file defines glob patterns and reads them.
-/

namespace ChangeImpact.Glob

/-- A part of a pattern. -/
inductive Piece where
  | literal (character : Char)
  /-- One byte other than a slash. -/
  | any
  /-- A run of bytes other than slashes. -/
  | star
  /-- Nothing, or any directories and the slash after them. -/
  | leadingDirectories
  /-- A slash and all that follows it. -/
  | trailingPath
  /-- A slash, or directories between two slashes. -/
  | innerDirectories
  /-- One byte of the listed characters, or one that is not. -/
  | oneOf (negated : Bool) (ranges : List (Char × Char))
  | alternatives (branches : List (List Piece))
deriving Repr, Inhabited

/-- Why a text is no pattern. -/
inductive Fault where
  | unclosedClass
  | invalidRange (first last : Char)
  | unopenedAlternatives
  | unclosedAlternatives
  | danglingEscape
deriving DecidableEq, Repr

def Fault.message : Fault → String
  | unclosedClass => "unclosed character class; missing ']'"
  | invalidRange first last => s!"invalid range; '{first}' > '{last}'"
  | unopenedAlternatives =>
    "unopened alternate group; missing '\x7b' (maybe escape '\x7d' with '[\x7d]'?)"
  | unclosedAlternatives =>
    "unclosed alternate group; missing '\x7d' (maybe escape '\x7b' with '[\x7b]'?)"
  | danglingEscape => "dangling '\\'"

/-- The class of characters that is being read, its ranges in reverse. -/
structure OpenClass where
  negated : Bool
  ranges : List (Char × Char)
  /-- No character has been read; a negation may still come if `mayNegate`. -/
  isFirst : Bool
  mayNegate : Bool
  /-- A dash waits for the end of a range. -/
  inRange : Bool

/-- What the next character continues. -/
inductive Mode where
  | plain
  | escape
  /-- One star has been read, after the given character. -/
  | star (before : Option Char)
  /-- Two stars have been read, after the given character. -/
  | doubleStar (before : Option Char)
  | inClass (pending : OpenClass)

/-- A group of alternatives that is being read: what stood before it and its finished branches. -/
structure OpenGroup where
  outer : List Piece
  branches : List (List Piece)

/-- The pieces of the branch that is being read are in reverse. -/
structure State where
  mode : Mode
  previous : Option Char
  current : List Piece
  groups : List OpenGroup

def State.initial : State :=
  ⟨.plain, none, [], []⟩

def State.push (state : State) (piece : Piece) : State :=
  { state with mode := .plain, current := piece :: state.current }

def State.pushStars (state : State) : State :=
  (state.push .star).push .star

/-- Reads a character that continues nothing. -/
def plainStep (state : State) (character : Char) : Except Fault State :=
  match character with
  | '?' => .ok (state.push .any)
  | '*' => .ok { state with mode := .star state.previous }
  | '[' => .ok { state with mode := .inClass ⟨false, [], true, true, false⟩ }
  | '\x7b' =>
    .ok { state with current := [], groups := ⟨state.current, []⟩ :: state.groups }
  | '\x7d' =>
    match state.groups with
    | [] => .error .unopenedAlternatives
    | group :: groups =>
      let branches := (group.branches.reverse ++ [state.current.reverse])
      .ok { state with current := .alternatives branches :: group.outer, groups := groups }
  | ',' =>
    match state.groups with
    | [] => .ok (state.push (.literal ','))
    | group :: groups =>
      let group := { group with branches := state.current.reverse :: group.branches }
      .ok { state with current := [], groups := group :: groups }
  | '\\' => .ok { state with mode := .escape }
  | _ => .ok (state.push (.literal character))

/-- Two stars after a slash take it with them. What they become depends on whether the pattern or
the branch ends after them; directories that were read before already stand for both. -/
def State.pushDirectories (state : State) (atEnd : Bool) : State :=
  match state.current with
  | .leadingDirectories :: rest =>
    { state with mode := .plain, current := .leadingDirectories :: rest }
  | .trailingPath :: rest => { state with mode := .plain, current := .trailingPath :: rest }
  | _ :: rest =>
    let piece := if atEnd then Piece.trailingPath else Piece.innerDirectories
    { state with mode := .plain, current := piece :: rest }
  | [] => state

/-- Whether two stars may stand for directories after this character. -/
def State.opensDirectories (state : State) (before : Option Char) : Bool :=
  before == some '/' ||
    (!state.groups.isEmpty && (before == some ',' || before == some '\x7b'))

/-- Two stars have been read, and `character` comes next. -/
def doubleStarStep (state : State) (before : Option Char) (character : Char) :
    Except Fault State :=
  if state.current.isEmpty then
    if character = '/' then .ok (state.push .leadingDirectories)
    else plainStep state.pushStars character
  else if !state.opensDirectories before then plainStep state.pushStars character
  else if character = '/' then .ok (state.pushDirectories false)
  else if (character = ',' ∨ character = '\x7d') ∧ !state.groups.isEmpty then
    plainStep (state.pushDirectories true) character
  else plainStep state.pushStars character

/-- Ends the range that is being read. -/
def OpenClass.endRange (pending : OpenClass) (last : Char) : Except Fault OpenClass :=
  match pending.ranges with
  | (first, _) :: ranges =>
    if last < first then .error (.invalidRange first last)
    else .ok { pending with ranges := (first, last) :: ranges, inRange := false }
  | [] => .ok { pending with inRange := false }

def OpenClass.add (pending : OpenClass) (character : Char) : OpenClass :=
  { pending with ranges := (character, character) :: pending.ranges, isFirst := false }

/-- Reads a character of a class, where a closing bracket and a dash stand for themselves at the
front. -/
def classStep (state : State) (pending : OpenClass) (character : Char) : Except Fault State := do
  if pending.mayNegate && (character == '!' || character == '^') then
    return { state with mode := .inClass { pending with negated := true, mayNegate := false } }
  let pending := { pending with mayNegate := false }
  if character = ']' ∧ !pending.isFirst then
    let pending := if pending.inRange then pending.add '-' else pending
    return state.push (.oneOf pending.negated pending.ranges.reverse)
  else if character = '-' ∧ !pending.isFirst ∧ !pending.inRange then
    return { state with mode := .inClass { pending with inRange := true } }
  else if pending.inRange then
    return { state with mode := .inClass (← pending.endRange character) }
  else
    return { state with mode := .inClass (pending.add character) }

def modeStep (state : State) (character : Char) : Except Fault State :=
  match state.mode with
  | .plain => plainStep state character
  | .escape => .ok (state.push (.literal character))
  | .star before =>
    if character = '*' then .ok { state with mode := .doubleStar before }
    else plainStep (state.push .star) character
  | .doubleStar before => doubleStarStep state before character
  | .inClass pending => classStep state pending character

def step (state : State) (character : Char) : Except Fault State := do
  return { ← modeStep state character with previous := some character }

/-- Ends what the last character left open. -/
def finish (state : State) : Except Fault (List Piece) := do
  let state ← match state.mode with
    | .plain => .ok state
    | .escape => .error Fault.danglingEscape
    | .inClass _ => .error .unclosedClass
    | .star _ => .ok (state.push .star)
    | .doubleStar before =>
      if state.current.isEmpty then .ok (state.push .leadingDirectories)
      else if state.opensDirectories before then .ok (state.pushDirectories true)
      else .ok state.pushStars
  if state.groups.isEmpty then return state.current.reverse
  else .error .unclosedAlternatives

def pieces? (pattern : List Char) : Except Fault (List Piece) := do
  finish (← pattern.foldlM step .initial)

end ChangeImpact.Glob
