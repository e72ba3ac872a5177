/-
This file reads and writes timestamps.
-/

import ChangeImpact.Decimal.Numeral
import ChangeImpact.Decimal.Power
import ChangeImpact.Text.Blank
import ChangeImpact.Timestamp.Instant

namespace ChangeImpact.Timestamp

/-- The digits of a count, with zeros in front up to a width. -/
def padded (width count : Nat) : List Char :=
  let digits := Nat.toDigits 10 count
  List.replicate (width - digits.length) '0' ++ digits

/-- A year of more or fewer than four digits has a sign. -/
def yearCharacters (year : Int) : List Char :=
  if 0 ≤ year ∧ year ≤ 9999 then padded 4 year.toNat
  else (if year < 0 then '-' else '+') :: padded 4 year.natAbs

/-- The fewest of three, six or nine digits that are exact, and none for a whole second. -/
def fractionCharacters (nanosecond : Nat) : List Char :=
  if nanosecond = 0 then []
  else if nanosecond % 1000000 = 0 then '.' :: padded 3 (nanosecond / 1000000)
  else if nanosecond % 1000 = 0 then '.' :: padded 6 (nanosecond / 1000)
  else '.' :: padded 9 nanosecond

def characters (timestamp : Timestamp) : List Char :=
  yearCharacters timestamp.date.year ++ '-' :: padded 2 timestamp.date.month ++
    '-' :: padded 2 timestamp.date.day ++ 'T' :: padded 2 timestamp.hour ++
    ':' :: padded 2 timestamp.minute ++ ':' :: padded 2 timestamp.second ++
    fractionCharacters timestamp.nanosecond ++ ['Z']

def text (timestamp : Timestamp) : String :=
  String.ofList timestamp.characters

/-- At least one and at most `width` digits. -/
def digits? (width : Nat) (characters : List Char) : Option (List Char × List Char) :=
  let digits := (characters.take width).takeWhile Char.isDigit
  if digits.isEmpty then none else some (digits, characters.drop digits.length)

/-- A number of at most `width` digits, after blanks. -/
def number? (width : Nat) (characters : List Char) : Option (Nat × List Char) := do
  let (digits, rest) ← digits? width (characters.dropWhile Text.isBlank)
  some (Decimal.Numeral.digitsValue digits, rest)

/-- A year has up to four digits, or any number of digits after a sign. -/
def year? (characters : List Char) : Option (Int × List Char) :=
  match characters.dropWhile Text.isBlank with
  | '-' :: rest => do
    let (digits, rest) ← digits? rest.length rest
    some (-(Decimal.Numeral.digitsValue digits : Int), rest)
  | '+' :: rest => do
    let (digits, rest) ← digits? rest.length rest
    some (Decimal.Numeral.digitsValue digits, rest)
  | front => do
    let (digits, rest) ← digits? 4 front
    some (Decimal.Numeral.digitsValue digits, rest)

/-- The given mark, after blanks. -/
def mark? (mark : Char) (characters : List Char) : Option (List Char) :=
  match characters.dropWhile Text.isBlank with
  | character :: rest => if character = mark then some rest else none
  | [] => none

/-- Nanoseconds from the digits after a point; digits beyond the ninth are dropped. -/
def fraction? : List Char → Option (Nat × List Char)
  | '.' :: rest => do
    let (digits, rest) ← digits? 9 rest
    some (Decimal.Numeral.digitsValue digits * Decimal.tenTo (9 - digits.length),
      rest.dropWhile Char.isDigit)
  | characters => some (0, characters)

def twoDigits? : List Char → Option (Nat × List Char)
  | first :: second :: rest =>
    if first.isDigit ∧ second.isDigit then
      some (Decimal.Numeral.digitsValue [first, second], rest)
    else none
  | _ => none

/-- Hours and minutes, with any colons and blanks between them. -/
def offsetSize? (characters : List Char) : Option (Int × List Char) := do
  let (hours, rest) ← twoDigits? characters
  let (minutes, rest) ← twoDigits? (rest.dropWhile fun character =>
    character == ':' || Text.isBlank character)
  guard (minutes < 60)
  some ((60 * hours + minutes : Nat), rest)

/-- The minutes that an offset is ahead of universal time. -/
def offset? (characters : List Char) : Option (Int × List Char) :=
  match characters.dropWhile Text.isBlank with
  | 'Z' :: rest => some (0, rest)
  | 'z' :: rest => some (0, rest)
  | '+' :: rest => offsetSize? rest
  | '-' :: rest => (offsetSize? rest).map fun read => (-read.1, read.2)
  | '−' :: rest => (offsetSize? rest).map fun read => (-read.1, read.2)
  | first :: second :: third :: rest =>
    if [first, second, third].map Char.toLower = ['u', 't', 'c'] then some (0, rest) else none
  | _ => none

/-- A date, a `T` or a blank, a time and an offset. Blanks may stand between the parts. -/
def ofCharacters? (characters : List Char) : Option Timestamp := do
  let (year, rest) ← year? characters
  let (month, rest) ← number? 2 (← mark? '-' rest)
  let (day, rest) ← number? 2 (← mark? '-' rest)
  let date ← Date.of? year month day
  let rest ← match rest with
    | 'T' :: rest => some rest
    | 't' :: rest => some rest
    | ' ' :: rest => some rest
    | _ => none
  let (hour, rest) ← number? 2 rest
  let (minute, rest) ← number? 2 (← mark? ':' rest)
  let (second, rest) ← number? 2 (← mark? ':' rest)
  let (nanosecond, rest) ← fraction? rest
  let (offset, rest) ← offset? rest
  guard (rest.all Text.isBlank)
  ofLocal? date hour minute second nanosecond offset

def parse? (text : String) : Option Timestamp :=
  ofCharacters? text.toList

end ChangeImpact.Timestamp
