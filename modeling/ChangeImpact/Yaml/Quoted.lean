/-
This file reads and writes the characters of quoted scalars.
-/

import ChangeImpact.Text.Hexadecimal
import ChangeImpact.Yaml.Gap

namespace ChangeImpact.Yaml.Quoted

/-- The text up to the closing single quote, after a gap, and what follows the quote. A quote in
the text is written twice. -/
def single? : Gap → List Char → Option (List Char × List Char)
  | _, [] => none
  | gap, '\'' :: '\'' :: rest => do
    let (text, rest) ← single? .empty rest
    some (gap.text ++ '\'' :: text, rest)
  | gap, '\'' :: rest => some (gap.text, rest)
  | gap, character :: rest =>
    if isGap character then single? (gap.add character) rest
    else if gap.meetsBound (character :: rest) then none
    else do
      let (text, rest) ← single? .empty rest
      some (gap.text ++ character :: text, rest)

/-- What a backslash and one more character stand for. -/
def shortEscape? : Char → Option Char
  | '0' => some '\x00'
  | 'a' => some '\x07'
  | 'b' => some '\x08'
  | 't' => some '\t'
  | '\t' => some '\t'
  | 'n' => some '\n'
  | 'v' => some '\x0b'
  | 'f' => some '\x0c'
  | 'r' => some '\r'
  | 'e' => some '\x1b'
  | ' ' => some ' '
  | '"' => some '"'
  | '/' => some '/'
  | '\\' => some '\\'
  | 'N' => some '\u0085'
  | '_' => some '\u00a0'
  | 'L' => some '\u2028'
  | 'P' => some '\u2029'
  | _ => none

/-- The character that hexadecimal digits name, if there is one. -/
def codeEscape? (digits : List Char) : Option Char := do
  let point ← Hexadecimal.number? digits
  if point.isValidChar then some (Char.ofNat point) else none

/-- The text up to the closing double quote, after a gap, and what follows the quote. -/
def double? : Gap → List Char → Option (List Char × List Char)
  | _, [] => none
  | gap, '"' :: rest => some (gap.text, rest)
  | gap, '\\' :: 'x' :: d₁ :: d₂ :: rest => do
    let character ← codeEscape? [d₁, d₂]
    let (text, rest) ← double? .empty rest
    some (gap.text ++ character :: text, rest)
  | gap, '\\' :: 'u' :: d₁ :: d₂ :: d₃ :: d₄ :: rest => do
    let character ← codeEscape? [d₁, d₂, d₃, d₄]
    let (text, rest) ← double? .empty rest
    some (gap.text ++ character :: text, rest)
  | gap, '\\' :: 'U' :: d₁ :: d₂ :: d₃ :: d₄ :: d₅ :: d₆ :: d₇ :: d₈ :: rest => do
    let character ← codeEscape? [d₁, d₂, d₃, d₄, d₅, d₆, d₇, d₈]
    let (text, rest) ← double? .empty rest
    some (gap.text ++ character :: text, rest)
  | gap, '\\' :: escape :: rest =>
    if isBreak escape then do
      let (text, rest) ← double? .afterEscapedBreak rest
      some (gap.text ++ text, rest)
    else do
      let character ← shortEscape? escape
      let (text, rest) ← double? .empty rest
      some (gap.text ++ character :: text, rest)
  | gap, character :: rest =>
    if isGap character then double? (gap.add character) rest
    else if gap.meetsBound (character :: rest) then none
    else do
      let (text, rest) ← double? .empty rest
      some (gap.text ++ character :: text, rest)

/-- A text within single quotes, with the quote that ends it. A text that goes on after a line
break is indented there. -/
def closeSingle (indentation : List Char) : Bool → List Char → List Char
  | broken, [] => (if broken then indentation else []) ++ ['\'']
  | broken, character :: rest =>
    if isBreak character then character :: closeSingle indentation true rest
    else
      (if broken then indentation else []) ++
        (if character == '\'' then ['\'', '\''] else [character]) ++
        closeSingle indentation false rest

/-- Whether a character can be printed and does not break a line. -/
def isPrintable (character : Char) : Bool :=
  let point := character.toNat
  0x20 ≤ point && point ≤ 0x7E || 0xA0 ≤ point && point ≤ 0xFFFD && character != orderMark ||
    0x10000 ≤ point

/-- How a character is written between double quotes. -/
def spell (character : Char) : List Char :=
  match character with
  | '\x00' => ['\\', '0']
  | '\x07' => ['\\', 'a']
  | '\x08' => ['\\', 'b']
  | '\t' => ['\\', 't']
  | '\n' => ['\\', 'n']
  | '\x0b' => ['\\', 'v']
  | '\x0c' => ['\\', 'f']
  | '\r' => ['\\', 'r']
  | '\x1b' => ['\\', 'e']
  | '"' => ['\\', '"']
  | '\\' => ['\\', '\\']
  | '\u0085' => ['\\', 'N']
  | '\u2028' => ['\\', 'L']
  | '\u2029' => ['\\', 'P']
  | _ =>
    let point := character.toNat
    if isPrintable character then [character]
    else if point ≤ 0xFF then '\\' :: 'x' :: Hexadecimal.upperDigits 2 point
    else if point ≤ 0xFFFF then '\\' :: 'u' :: Hexadecimal.upperDigits 4 point
    else '\\' :: 'U' :: Hexadecimal.upperDigits 8 point

/-- A text within double quotes, with the quote that ends it. -/
def closeDouble (characters : List Char) : List Char :=
  characters.flatMap spell ++ ['"']

end ChangeImpact.Yaml.Quoted
