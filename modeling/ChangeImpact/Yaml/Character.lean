/-
This file classifies the characters of YAML text.
-/

namespace ChangeImpact.Yaml

/-- Line breaks, once carriage returns and next-line characters have been turned into line
feeds. -/
def isBreak (character : Char) : Bool :=
  character == '\n' || character == '\u2028' || character == '\u2029'

def isBlank (character : Char) : Bool :=
  character == ' ' || character == '\t'

def isGap (character : Char) : Bool :=
  isBlank character || isBreak character

/-- Whether a text ends or goes on with a blank or a line break. -/
def startsWithGap : List Char → Bool
  | [] => true
  | character :: _ => isGap character

/-- The next line, if this one has but blanks and a comment left. -/
def nextLine? (characters : List Char) : Option (List Char) :=
  match characters.dropWhile isBlank with
  | [] => some []
  | character :: rest =>
    if isBreak character then some rest
    else if character = '#' then some ((rest.dropWhile (!isBreak ·)).drop 1)
    else none

/-- Letters and digits of ASCII, the hyphen and the underscore. -/
def isWord (character : Char) : Bool :=
  character.isAlphanum || character == '-' || character == '_'

/-- A byte order mark. -/
def orderMark : Char := '\ufeff'

/-- Whether a character may stand in a text at all. -/
def isAllowed (character : Char) : Bool :=
  let point := character.toNat
  point == 0x09 || point == 0x0A || point == 0x0D || 0x20 ≤ point && point ≤ 0x7E ||
    point == 0x85 || 0xA0 ≤ point && point ≤ 0xFFFD || 0x10000 ≤ point

/-- Turns carriage returns, also those before a line feed, and next-line characters into line
feeds. -/
def unifyBreaks : List Char → List Char
  | [] => []
  | '\r' :: '\n' :: rest => '\n' :: unifyBreaks rest
  | '\r' :: rest => '\n' :: unifyBreaks rest
  | '\u0085' :: rest => '\n' :: unifyBreaks rest
  | character :: rest => character :: unifyBreaks rest

/-- Whether a line that starts here is the mark that starts a document. -/
def startsDocument : List Char → Bool
  | '-' :: '-' :: '-' :: rest => startsWithGap rest
  | _ => false

/-- Whether a line that starts here is the mark that ends a document. -/
def endsDocument : List Char → Bool
  | '.' :: '.' :: '.' :: rest => startsWithGap rest
  | _ => false

def boundsDocument (characters : List Char) : Bool :=
  startsDocument characters || endsDocument characters

end ChangeImpact.Yaml
