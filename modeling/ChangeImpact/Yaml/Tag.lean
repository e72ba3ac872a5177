/-
This file reads tags and the names of anchors.
-/

import ChangeImpact.Text.Hexadecimal
import ChangeImpact.Yaml.Character

namespace ChangeImpact.Yaml

/-- A name of letters, digits, hyphens and underscores, which a gap or a mark has to end. -/
def anchorName? (characters : List Char) : Option (String × List Char) :=
  let name := characters.takeWhile isWord
  let rest := characters.dropWhile isWord
  let ended := startsWithGap rest ||
    rest.head?.any ['?', ':', ',', ']', '}', '%', '@', '`'].contains
  if name.isEmpty || !ended then none else some (String.ofList name, rest)

/-- A tag as it is written: a handle, which stands for the start of the tag, and the rest of it.
Without a handle the tag is written in full. -/
structure Tag where
  handle : List Char
  suffix : List Char
deriving DecidableEq, Repr

namespace Tag

/-- Characters of a tag; those of a tag that is written in full are `wide`. -/
def isUri (wide : Bool) (character : Char) : Bool :=
  isWord character ||
    [';', '/', '?', ':', '@', '&', '=', '+', '$', '.', '!', '~', '*', '\'', '(', ')'].contains
      character ||
    wide && [',', '[', ']'].contains character

/-- How many octets follow this first octet of an encoded character. -/
def followers? (octet : Nat) : Option Nat :=
  if octet < 0x80 then some 0
  else if octet < 0xC0 then none
  else if octet < 0xE0 then some 1
  else if octet < 0xF0 then some 2
  else if octet < 0xF8 then some 3
  else none

/-- The characters of a tag and what follows them; `awaited` octets of an encoded character are
still to come. An octet is escaped by a percent sign, and stands for the character of its number. -/
def uri? (wide : Bool) : Nat → List Char → Option (List Char × List Char)
  | awaited, '%' :: high :: low :: rest => do
    let octet ← Hexadecimal.number? [high, low]
    let awaited ← match awaited with
      | 0 => followers? octet
      | awaited + 1 => if 0x80 ≤ octet ∧ octet < 0xC0 then some awaited else none
    let (uri, rest) ← uri? wide awaited rest
    some (Char.ofNat octet :: uri, rest)
  | 0, character :: rest =>
    if isUri wide character then do
      let (uri, rest) ← uri? wide 0 rest
      some (character :: uri, rest)
    else if character = '%' then none
    else some ([], character :: rest)
  | 0, [] => some ([], [])
  | _ + 1, _ => none

/-- At least one character of a tag. -/
def nonemptyUri? (wide : Bool) (characters : List Char) : Option (List Char × List Char) := do
  let (uri, rest) ← uri? wide 0 characters
  if uri.isEmpty then none else some (uri, rest)

/-- A tag after the exclamation mark that starts it, before what may follow it is looked at. -/
def body? : List Char → Option (Tag × List Char)
  | '<' :: rest => do
    match ← nonemptyUri? true rest with
    | (uri, '>' :: rest) => some (⟨[], uri⟩, rest)
    | _ => none
  | characters => do
    let word := characters.takeWhile isWord
    match characters.dropWhile isWord with
    | '!' :: rest =>
      let (suffix, rest) ← nonemptyUri? false rest
      some (⟨'!' :: word ++ ['!'], suffix⟩, rest)
    | rest =>
      let (more, rest) ← uri? false 0 rest
      let suffix := word ++ more
      some (if suffix.isEmpty then ⟨[], ['!']⟩ else ⟨['!'], suffix⟩, rest)

/-- A tag after the exclamation mark that starts it. A gap ends it, in flow context also a comma. -/
def read? (inFlow : Bool) (characters : List Char) : Option (Tag × List Char) := do
  let (tag, rest) ← body? characters
  if startsWithGap rest || inFlow && rest.head? == some ',' then some (tag, rest) else none

/-- What the handles stand for that need not be declared. -/
def standardHandles : List (List Char × List Char) :=
  [(['!'], ['!']), (['!', '!'], "tag:yaml.org,2002:".toList)]

/-- The whole tag, given what the handles stand for. -/
def resolve? (handles : List (List Char × List Char)) (tag : Tag) : Option String :=
  if tag.handle.isEmpty then some (String.ofList tag.suffix)
  else (handles.lookup tag.handle).map fun start => String.ofList (start ++ tag.suffix)

end Tag

end ChangeImpact.Yaml
