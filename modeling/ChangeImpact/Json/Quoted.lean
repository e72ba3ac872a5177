/-
This file spells and reads the characters between the quotes of a JSON string.
-/

import ChangeImpact.Text.Hexadecimal

namespace ChangeImpact.Json.Quoted

/-- Quotes, backslashes and control characters are escaped, all else stands for itself. -/
def spell (character : Char) : List Char :=
  match character with
  | '"' => ['\\', '"']
  | '\\' => ['\\', '\\']
  | '\n' => ['\\', 'n']
  | '\r' => ['\\', 'r']
  | '\t' => ['\\', 't']
  | '\x08' => ['\\', 'b']
  | '\x0c' => ['\\', 'f']
  | _ =>
    if character.toNat < 32 then
      ['\\', 'u', '0', '0', Hexadecimal.digit (character.toNat / 16),
        Hexadecimal.digit (character.toNat % 16)]
    else [character]

/-- The spelled characters, with the quote that ends them. -/
def close (characters : List Char) : List Char :=
  characters.flatMap spell ++ ['"']

/-- What a backslash and one more character stand for. -/
def shortEscape? : Char → Option Char
  | '"' => some '"'
  | '\\' => some '\\'
  | '/' => some '/'
  | 'b' => some '\x08'
  | 'f' => some '\x0c'
  | 'n' => some '\n'
  | 'r' => some '\r'
  | 't' => some '\t'
  | _ => none

/-- The code points and surrogates up to the closing quote, and what follows it. -/
def points? : List Char → Option (List Nat × List Char)
  | [] => none
  | '"' :: rest => some ([], rest)
  | '\\' :: 'u' :: first :: second :: third :: fourth :: rest => do
    let point ← Hexadecimal.number? [first, second, third, fourth]
    let (points, rest) ← points? rest
    some (point :: points, rest)
  | '\\' :: escape :: rest => do
    let character ← shortEscape? escape
    let (points, rest) ← points? rest
    some (character.toNat :: points, rest)
  | character :: rest =>
    if character.toNat < 32 then none
    else do
      let (points, rest) ← points? rest
      some (character.toNat :: points, rest)

def isHighSurrogate (point : Nat) : Bool :=
  0xD800 ≤ point && point < 0xDC00

def isLowSurrogate (point : Nat) : Bool :=
  0xDC00 ≤ point && point < 0xE000

/-- The characters that the points denote once each high surrogate is joined with the low one that
follows it; nothing if a surrogate is left alone. -/
def join? : List Nat → Option (List Char)
  | [] => some []
  | [point] =>
    if isHighSurrogate point || isLowSurrogate point then none else some [Char.ofNat point]
  | point :: next :: rest =>
    if isHighSurrogate point then
      if isLowSurrogate next then
        (join? rest).map
          (Char.ofNat (0x10000 + (point - 0xD800) * 1024 + (next - 0xDC00)) :: ·)
      else none
    else if isLowSurrogate point then none
    else (join? (next :: rest)).map (Char.ofNat point :: ·)

end ChangeImpact.Json.Quoted
