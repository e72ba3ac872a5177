/-
This file chooses how a text is written as a YAML scalar and writes it.
-/

import ChangeImpact.Yaml.Block
import ChangeImpact.Yaml.Number
import ChangeImpact.Yaml.Plain
import ChangeImpact.Yaml.Quoted
import ChangeImpact.Yaml.Token

namespace ChangeImpact.Yaml

/-- Spellings that some readers take for truth values. -/
def truthSpellings : List String :=
  ["y", "Y", "yes", "Yes", "YES", "n", "N", "no", "No", "NO", "true", "True", "TRUE", "false",
    "False", "FALSE", "on", "On", "ON", "off", "Off", "OFF"]

/-- Spellings of the absence of a value. -/
def nullSpellings : List String :=
  ["", "~", "null", "Null", "NULL"]

/-- Whether a text is an integer of at most 128 bits. -/
def isInteger (characters : List Char) : Bool :=
  (unsignedAfterPlus? characters).any (· < Decimal.twoTo 128) ||
    match characters with
    | '-' :: rest => (unsigned? rest).any (· ≤ Decimal.twoTo 127)
    | _ => false

def hasNeedlessZeroAfterSign : List Char → Bool
  | '-' :: rest => hasNeedlessZero rest
  | '+' :: rest => hasNeedlessZero rest
  | characters => hasNeedlessZero characters

/-- Whether a plain scalar with these characters could be taken for something else than a text. -/
def isMistakable (characters : List Char) : Bool :=
  let text := String.ofList characters
  truthSpellings.contains text || nullSpellings.contains text || isInteger characters ||
    hasNeedlessZeroAfterSign characters || (float? characters).isSome

/-- Whether a colon before a gap or a number sign after one would end a plain scalar. -/
def hasInnerIndicator : (afterGap : Bool) → List Char → Bool
  | _, [] => false
  | afterGap, character :: rest =>
    Plain.meetsColon character rest || character == '#' && afterGap ||
      hasInnerIndicator (isGap character) rest

def hasIndicator : List Char → Bool
  | [] => false
  | first :: rest =>
    [['-', '-', '-'], ['.', '.', '.']].contains ((first :: rest).take 3) ||
      (if first == '-' || first == '?' || first == ':' then startsWithGap rest
        else Plain.isIndicator first) ||
      hasInnerIndicator (isGap first) rest

def isMultiline (characters : List Char) : Bool :=
  characters.any isBreak

/-- Whether every character can be written without an escape. -/
def isUnescaped (characters : List Char) : Bool :=
  characters.all fun character => character == '\n' || Quoted.isPrintable character

def startsWithSpace (characters : List Char) : Bool :=
  characters.head? == some ' '

def endsWithSpace (characters : List Char) : Bool :=
  characters.getLast? == some ' '

/-- Whether a line that is followed by another ends with a space. -/
def hasSpaceBeforeBreak : List Char → Bool
  | [] => false
  | character :: rest =>
    character == ' ' && rest.head?.any isBreak || hasSpaceBeforeBreak rest

/-- Whether a line that follows another starts with a space. -/
def hasSpaceAfterBreak : List Char → Bool
  | [] => false
  | character :: rest =>
    isBreak character && startsWithSpace rest || hasSpaceAfterBreak rest

/-- Whether a text can be written without double quotes in some style. -/
def isFoldable (characters : List Char) : Bool :=
  isUnescaped characters && !hasSpaceBeforeBreak characters

/-- The style of a text: plain if nothing in it has another meaning, a literal block if it has line
feeds, and double quotes where no other style keeps all of it. -/
def styleOf (characters : List Char) : ScalarStyle :=
  if isMistakable characters then .singleQuoted
  else if characters.contains '\n' then
    if isFoldable characters && !endsWithSpace characters then .literal else .doubleQuoted
  else if !isFoldable characters || hasSpaceAfterBreak characters then .doubleQuoted
  else if isMultiline characters || startsWithSpace characters || endsWithSpace characters ||
      hasIndicator characters then .singleQuoted
  else .plain

/-- A text as a scalar whose further lines are indented by two spaces. -/
def writeText (text : String) : List Char :=
  let characters := text.toList
  match styleOf characters with
  | .plain => characters
  | .literal => Block.literal 2 characters
  | .singleQuoted => '\'' :: Quoted.closeSingle [' ', ' '] false characters
  | _ => '"' :: Quoted.closeDouble characters

/-- Ends the line, unless the last line break of a block scalar has done so. -/
def endLine (characters : List Char) : List Char :=
  if characters.getLast?.any isBreak then characters else characters ++ ['\n']

/-- A field with a plain value, in a line of its own. -/
def writeField (name : String) (value : List Char) : List Char :=
  name.toList ++ [':', ' '] ++ value ++ ['\n']

/-- A field with a list of texts. The items are not indented. -/
def writeTexts (name : String) : List String → List Char
  | [] => writeField name ['[', ']']
  | texts =>
    name.toList ++ [':', '\n'] ++ texts.flatMap fun text => endLine ('-' :: ' ' :: writeText text)

/-- A field with a record of plain values. -/
def writeRecord (name : String) (fields : List (String × List Char)) : List Char :=
  name.toList ++ [':', '\n'] ++
    fields.flatMap fun field => [' ', ' '] ++ writeField field.1 field.2

end ChangeImpact.Yaml
