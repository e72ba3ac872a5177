/-
This file cuts YAML text into tokens, where indentation bounds block collections and a colon turns
what precedes it into a key.
-/

import ChangeImpact.Yaml.Block
import ChangeImpact.Yaml.Plain
import ChangeImpact.Yaml.Quoted
import ChangeImpact.Yaml.Token

namespace ChangeImpact.Yaml

structure Position where
  line : Nat
  column : Nat
deriving DecidableEq, Repr

def Position.after (position : Position) (character : Char) : Position :=
  if isBreak character then ⟨position.line + 1, 0⟩ else ⟨position.line, position.column + 1⟩

/-- A place where a key may have started, should a colon follow. -/
structure PossibleKey where
  position : Position
  /-- The number of tokens before it. -/
  index : Nat
  /-- Whether nothing but a key can stand there. -/
  required : Bool
deriving DecidableEq, Repr

/-- Where the reading of a text stands. -/
structure Layout where
  rest : List Char
  position : Position
  /-- The columns of the open block collections, the innermost first. -/
  blocks : List Nat
  /-- Whether a key or an entry can start here. -/
  keyAllowed : Bool
  possibleKey : Option PossibleKey
  /-- What was the possible key outside each of the open flow collections. -/
  outerKeys : List (Option PossibleKey)
  tokens : Array Token

namespace Layout

def initial (characters : List Char) : Layout :=
  ⟨characters, ⟨0, 0⟩, [], true, none, [], #[]⟩

def inFlow (layout : Layout) : Bool :=
  !layout.outerKeys.isEmpty

/-- Goes on at `rest`, which is what is left of the text. -/
def moveTo (layout : Layout) (rest : List Char) : Layout :=
  let passed := layout.rest.take (layout.rest.length - rest.length)
  { layout with rest, position := passed.foldl Position.after layout.position }

def emit (layout : Layout) (token : Token) : Layout :=
  { layout with tokens := layout.tokens.push token }

/-- Puts a token before those from `index` on. -/
def insert (layout : Layout) (index : Nat) (token : Token) : Layout :=
  { layout with
    tokens := if h : index ≤ layout.tokens.size then layout.tokens.insertIdx index token h
      else layout.tokens }

/-- Where the next token starts, and whether a key can start there: comments and gaps are skipped,
and in block context a line break allows a key. A tab cannot stand where a key can. -/
def skipGap (inFlow : Bool) : (comment lineStart keyAllowed : Bool) → List Char → Bool × List Char
  | _, _, keyAllowed, [] => (keyAllowed, [])
  | comment, lineStart, keyAllowed, character :: rest =>
    if isBreak character then skipGap inFlow false true (keyAllowed || !inFlow) rest
    else if comment || character == '#' then skipGap inFlow true false keyAllowed rest
    else if character == ' ' || character == '\t' && (inFlow || !keyAllowed) ||
        character == orderMark && lineStart then
      skipGap inFlow false false keyAllowed rest
    else (keyAllowed, character :: rest)

def toToken (layout : Layout) : Layout :=
  let (keyAllowed, rest) :=
    skipGap layout.inFlow false (layout.position.column == 0) layout.keyAllowed layout.rest
  { layout.moveTo rest with keyAllowed }

/-- A key takes part of a line, at most 1024 characters. -/
def canEnd (key : PossibleKey) (position : Position) : Bool :=
  key.position.line == position.line && position.column ≤ key.position.column + 1024

/-- The possible key that is still possible. -/
def current? (position : Position) : Option PossibleKey → Option (Option PossibleKey)
  | none => some none
  | some key =>
    if canEnd key position then some (some key)
    else if key.required then none
    else some none

/-- Forgets the keys that have become impossible. -/
def forgetKeys? (layout : Layout) : Option Layout := do
  let possibleKey ← current? layout.position layout.possibleKey
  let outerKeys ← layout.outerKeys.mapM (current? layout.position)
  some { layout with possibleKey, outerKeys }

/-- There is no key at the place that was noted. -/
def noKey? (layout : Layout) : Option Layout :=
  if layout.possibleKey.any (·.required) then none else some { layout with possibleKey := none }

/-- Notes that a key may start here. -/
def mayBeKey? (layout : Layout) : Option Layout :=
  if layout.keyAllowed then do
    let layout ← layout.noKey?
    let required := !layout.inFlow && layout.blocks.head? == some layout.position.column
    some { layout with possibleKey := some ⟨layout.position, layout.tokens.size, required⟩ }
  else some layout

/-- Ends the open block collections that start after a column, or all of them. -/
def closeBlocks (layout : Layout) (column : Option Nat) : Layout :=
  if layout.inFlow then layout
  else
    let isInner (block : Nat) : Bool := column.all (· < block)
    { layout with
      blocks := layout.blocks.dropWhile isInner
      tokens := layout.tokens ++ (layout.blocks.takeWhile isInner).map fun _ => Token.blockEnd }

/-- Starts a block collection at a column unless one is open there. -/
def openBlock (layout : Layout) (column index : Nat) (start : Token) : Layout :=
  if !layout.inFlow && layout.blocks.head?.all (· < column) then
    { layout.insert index start with blocks := column :: layout.blocks }
  else layout

/-- Starts a block collection here. An entry, a key or a value that is not in a flow collection has
to stand where a key can. -/
def openBlockHere? (layout : Layout) (start : Token) : Option Layout :=
  if layout.inFlow then some layout
  else if layout.keyAllowed then
    some (layout.openBlock layout.position.column layout.tokens.size start)
  else none

/-- Goes on after a token that keys can follow, or cannot. -/
def accept (layout : Layout) (token : Token) (keyAllowed : Bool) (rest : List Char) : Layout :=
  { (layout.emit token).moveTo rest with keyAllowed }

def directive? (layout : Layout) (rest : List Char) : Option Layout := do
  let (directive, rest) ← Directive.read? rest
  let layout ← (layout.closeBlocks none).noKey?
  some (layout.accept (.directive directive) false rest)

def bound? (layout : Layout) (token : Token) (rest : List Char) : Option Layout := do
  let layout ← (layout.closeBlocks none).noKey?
  some (layout.accept token false rest)

def flowStart? (layout : Layout) (character : Char) (rest : List Char) : Option Layout := do
  let layout ← layout.mayBeKey?
  let layout := layout.accept (.mark character) true rest
  some { layout with
    possibleKey := none
    outerKeys := layout.possibleKey :: layout.outerKeys }

def flowEnd? (layout : Layout) (character : Char) (rest : List Char) : Option Layout := do
  let layout := (← layout.noKey?).accept (.mark character) false rest
  match layout.outerKeys with
  | [] => some layout
  | possibleKey :: outerKeys => some { layout with possibleKey, outerKeys }

def comma? (layout : Layout) (rest : List Char) : Option Layout := do
  some ((← layout.noKey?).accept (.mark ',') true rest)

def entry? (layout : Layout) (rest : List Char) : Option Layout := do
  let layout ← layout.openBlockHere? .blockSequenceStart
  some ((← layout.noKey?).accept .entry true rest)

def key? (layout : Layout) (rest : List Char) : Option Layout := do
  let layout ← layout.openBlockHere? .blockMappingStart
  some ((← layout.noKey?).accept .key (!layout.inFlow) rest)

def value? (layout : Layout) (rest : List Char) : Option Layout := do
  match layout.possibleKey with
  | some key =>
    let layout := layout.insert key.index .key
    let layout := layout.openBlock key.position.column key.index .blockMappingStart
    some { layout.accept .value false rest with possibleKey := none }
  | none =>
    let layout ← layout.openBlockHere? .blockMappingStart
    some (layout.accept .value (!layout.inFlow) rest)

def reference? (layout : Layout) (rest : List Char) : Option Layout := do
  let (name, rest) ← anchorName? rest
  some ((← layout.mayBeKey?).accept (.reference name) false rest)

def anchor? (layout : Layout) (rest : List Char) : Option Layout := do
  let (name, rest) ← anchorName? rest
  some ((← layout.mayBeKey?).accept (.anchor name) false rest)

def tag? (layout : Layout) (rest : List Char) : Option Layout := do
  let (tag, rest) ← Tag.read? layout.inFlow rest
  some ((← layout.mayBeKey?).accept (.tag tag) false rest)

def blockScalar? (layout : Layout) (style : ScalarStyle) (rest : List Char) : Option Layout := do
  let (text, rest) ← Block.read? (style == .folded) layout.blocks.head? rest
  some ((← layout.noKey?).accept (.scalar style (String.ofList text)) true rest)

def singleQuoted? (layout : Layout) (rest : List Char) : Option Layout := do
  let (text, rest) ← Quoted.single? .empty rest
  some ((← layout.mayBeKey?).accept (.scalar .singleQuoted (String.ofList text)) false rest)

def doubleQuoted? (layout : Layout) (rest : List Char) : Option Layout := do
  let (text, rest) ← Quoted.double? .empty rest
  some ((← layout.mayBeKey?).accept (.scalar .doubleQuoted (String.ofList text)) false rest)

/-- A line break after a plain scalar allows a key. -/
def plain? (layout : Layout) : Option Layout := do
  let indent := (layout.blocks.head?.map (· + 1)).getD 0
  let (text, broken, rest) ← Plain.text? layout.inFlow indent .empty layout.rest
  some ((← layout.mayBeKey?).accept (.scalar .plain (String.ofList text)) broken rest)

/-- Reads the token that starts here; nothing if no token does. -/
def token? (layout : Layout) (character : Char) (rest : List Char) : Option Layout :=
  let inFlow := layout.inFlow
  let lineStart := layout.position.column == 0
  if lineStart && character == '%' then layout.directive? rest
  else if lineStart && startsDocument layout.rest then
    layout.bound? .documentStart (layout.rest.drop 3)
  else if lineStart && endsDocument layout.rest then
    layout.bound? .documentEnd (layout.rest.drop 3)
  else if character == '[' || character == '{' then layout.flowStart? character rest
  else if character == ']' || character == '}' then layout.flowEnd? character rest
  else if character == ',' then layout.comma? rest
  else if character == '-' && startsWithGap rest then layout.entry? rest
  else if character == '?' && (inFlow || startsWithGap rest) then layout.key? rest
  else if character == ':' && (inFlow || startsWithGap rest) then layout.value? rest
  else if character == '*' then layout.reference? rest
  else if character == '&' then layout.anchor? rest
  else if character == '!' then layout.tag? rest
  else if character == '|' && !inFlow then layout.blockScalar? .literal rest
  else if character == '>' && !inFlow then layout.blockScalar? .folded rest
  else if character == '\'' then layout.singleQuoted? rest
  else if character == '"' then layout.doubleQuoted? rest
  else if Plain.starts inFlow layout.rest then layout.plain?
  else none

/-- Reads the rest of the text in at most so many tokens. -/
def run? : Nat → Layout → Option (Array Token)
  | 0, _ => none
  | steps + 1, layout => do
    let layout ← layout.toToken.forgetKeys?
    let layout := layout.closeBlocks (some layout.position.column)
    match layout.rest with
    | [] => return (← (layout.closeBlocks none).noKey?).tokens
    | character :: rest => run? steps (← layout.token? character rest)

end Layout

/-- The tokens of a text without its disallowed characters, unless some part of it is no token.
Each token takes a character, so the length of the text bounds their number. -/
def tokens? (text : String) : Option (List Token) :=
  if text.toList.all isAllowed then
    let characters := unifyBreaks text.toList
    (Layout.run? (characters.length + 1) (.initial characters)).map Array.toList
  else none

end ChangeImpact.Yaml
