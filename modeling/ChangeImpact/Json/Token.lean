/-
This file cuts JSON text into tokens and spells tokens out.
-/

import ChangeImpact.Json.Quoted
import ChangeImpact.Json.Value

namespace ChangeImpact.Json

inductive Token where
  /-- One of the six characters that structure a text. -/
  | mark (character : Char)
  /-- A string; absent when it denotes no text. -/
  | string (text : Option String)
  | number (numeral : Decimal.Numeral)
  | null
  | bool (value : Bool)
deriving DecidableEq, Repr

namespace Token

def isMark (character : Char) : Bool :=
  ['{', '}', '[', ']', ':', ','].contains character

def isBlank (character : Char) : Bool :=
  character == ' ' || character == '\n' || character == '\r' || character == '\t'

/-- The digits at the front, of which there must be one. -/
def digits? (characters : List Char) : Option (List Char × List Char) :=
  let digits := characters.takeWhile Char.isDigit
  if digits.isEmpty then none else some (digits, characters.dropWhile Char.isDigit)

/-- The digits before the point: a single zero, or digits that do not start with one. -/
def whole? : List Char → Option (List Char × List Char)
  | '0' :: rest => some (['0'], rest)
  | characters => digits? characters

def fraction? : List Char → Option (List Char × List Char)
  | '.' :: rest => digits? rest
  | characters => some ([], characters)

def exponentDigits? (negative : Bool) (characters : List Char) :
    Option (Option Int × List Char) := do
  let (digits, rest) ← digits? characters
  let size : Int := Decimal.Numeral.digitsValue digits
  some (some (if negative then -size else size), rest)

def signedExponent? : List Char → Option (Option Int × List Char)
  | '-' :: rest => exponentDigits? true rest
  | '+' :: rest => exponentDigits? false rest
  | characters => exponentDigits? false characters

def exponent? : List Char → Option (Option Int × List Char)
  | 'e' :: rest => signedExponent? rest
  | 'E' :: rest => signedExponent? rest
  | characters => some (none, characters)

def unsigned? (negative : Bool) (characters : List Char) : Option (Token × List Char) := do
  let (whole, rest) ← whole? characters
  let (fraction, rest) ← fraction? rest
  let (exponent, rest) ← exponent? rest
  some (.number ⟨negative, whole, fraction, exponent⟩, rest)

/-- The token at the front of a text that does not start with a blank, and what follows it. -/
def first? : List Char → Option (Token × List Char)
  | '"' :: rest => do
    let (points, rest) ← Quoted.points? rest
    some (.string ((Quoted.join? points).map String.ofList), rest)
  | 'n' :: 'u' :: 'l' :: 'l' :: rest => some (.null, rest)
  | 't' :: 'r' :: 'u' :: 'e' :: rest => some (.bool true, rest)
  | 'f' :: 'a' :: 'l' :: 's' :: 'e' :: rest => some (.bool false, rest)
  | '-' :: rest => unsigned? true rest
  | character :: rest =>
    if isMark character then some (.mark character, rest) else unsigned? false (character :: rest)
  | [] => none

def tokensWithin : Nat → List Char → Option (List Token)
  | 0, _ => none
  | steps + 1, characters =>
    match characters.dropWhile isBlank with
    | [] => some []
    | front => do
      let (token, rest) ← first? front
      let tokens ← tokensWithin steps rest
      some (token :: tokens)

/-- The tokens of a text, unless some part of it is no token. Each token takes a character, so the
length of the text bounds their number. -/
def ofText? (characters : List Char) : Option (List Token) :=
  tokensWithin (characters.length + 1) characters

def characters : Token → List Char
  | .mark character => [character]
  | .string text => '"' :: Quoted.close (text.getD "").toList
  | .number numeral => numeral.characters "+"
  | .null => ['n', 'u', 'l', 'l']
  | .bool true => ['t', 'r', 'u', 'e']
  | .bool false => ['f', 'a', 'l', 's', 'e']

end Token

end ChangeImpact.Json
