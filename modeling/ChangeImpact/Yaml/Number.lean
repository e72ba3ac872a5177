/-
This file reads plain scalars as numbers and truth values and writes them.
-/

import ChangeImpact.Decimal.Nearest
import ChangeImpact.Decimal.Scaled
import ChangeImpact.Decimal.Shortest

namespace ChangeImpact.Yaml

/-- The spellings of the two truth values. -/
def flag? : List Char → Option Bool
  | ['t', 'r', 'u', 'e'] => some true
  | ['T', 'r', 'u', 'e'] => some true
  | ['T', 'R', 'U', 'E'] => some true
  | ['f', 'a', 'l', 's', 'e'] => some false
  | ['F', 'a', 'l', 's', 'e'] => some false
  | ['F', 'A', 'L', 'S', 'E'] => some false
  | _ => none

def writeFlag (value : Bool) : List Char :=
  if value then ['t', 'r', 'u', 'e'] else ['f', 'a', 'l', 's', 'e']

/-- The value of a digit or, above nine, of a letter of either case. -/
def digitValue? (base : Nat) (digit : Char) : Option Nat :=
  let value :=
    if '0' ≤ digit ∧ digit ≤ '9' then digit.toNat - '0'.toNat
    else if 'a' ≤ digit ∧ digit ≤ 'z' then digit.toNat - 'a'.toNat + 10
    else if 'A' ≤ digit ∧ digit ≤ 'Z' then digit.toNat - 'A'.toNat + 10
    else base
  if value < base then some value else none

/-- The number that digits of a base stand for; there must be one. -/
def digits? (base : Nat) (digits : List Char) : Option Nat := do
  let values ← digits.mapM (digitValue? base)
  if values.isEmpty then none else some (values.foldl (fun number value => base * number + value) 0)

/-- Digits that do not stand for a number, because the first is a needless zero. -/
def hasNeedlessZero : List Char → Bool
  | '0' :: next :: rest => (next :: rest).all Char.isDigit
  | _ => false

/-- A number without a sign, in base ten or in the base that its first two characters name. -/
def unsigned? : List Char → Option Nat
  | '0' :: 'x' :: rest => digits? 16 rest
  | '0' :: 'o' :: rest => digits? 8 rest
  | '0' :: 'b' :: rest => digits? 2 rest
  | characters => if hasNeedlessZero characters then none else digits? 10 characters

def unsignedAfterPlus? : List Char → Option Nat
  | '+' :: rest => unsigned? rest
  | characters => unsigned? characters

/-- A count of the size of a machine word. -/
def count? (characters : List Char) : Option Nat := do
  let count ← unsignedAfterPlus? characters
  if count < Decimal.wordLimit then some count else none

def writeCount (count : Nat) : List Char :=
  Nat.toDigits 10 count

/-- A power of ten after the digits, if there is one. -/
def exponent? : List Char → Option (Option Int)
  | [] => some none
  | letter :: characters =>
    if letter = 'e' ∨ letter = 'E' then
      let (negative, digits) := match characters with
        | '-' :: digits => (true, digits)
        | '+' :: digits => (false, digits)
        | digits => (false, digits)
      if digits.isEmpty || !digits.all Char.isDigit then none
      else
        let size : Int := Decimal.Numeral.digitsValue digits
        some (some (if negative then -size else size))
    else none

/-- A decimal number with an optional sign. Digits may be missing on one side of the point. -/
def numeral? (characters : List Char) : Option Decimal.Numeral := do
  let (negative, characters) := match characters with
    | '-' :: rest => (true, rest)
    | '+' :: rest => (false, rest)
    | rest => (false, rest)
  let whole := characters.takeWhile Char.isDigit
  let (fraction, rest) := match characters.dropWhile Char.isDigit with
    | '.' :: rest => (rest.takeWhile Char.isDigit, rest.dropWhile Char.isDigit)
    | rest => ([], rest)
  if whole.isEmpty && fraction.isEmpty then none
  else some ⟨negative, whole, fraction, ← exponent? rest⟩

/-- Numbers that YAML texts can hold. -/
class Numeric (α : Type) where
  write : α → List Char
  read? : List Char → Option α

/-- From `10 ^ -5` to below `10 ^ 16` numbers are written out, with at least one decimal place. -/
def floatStyle : Decimal.Style where
  positional leading := -5 ≤ leading && leading < 16
  keepsPoint := true
  plus := ""
  infinity := ".inf"
  notANumber := ".nan"

def isInfinity (characters : List Char) : Bool :=
  [".inf", ".Inf", ".INF"].contains (String.ofList characters)

def isNotANumber (characters : List Char) : Bool :=
  [".nan", ".NaN", ".NAN"].contains (String.ofList characters)

/-- A number that may be infinite or not a number. -/
def float? (characters : List Char) : Option Float :=
  if isNotANumber characters then some (0.0 / 0.0)
  else
    let infinite := match characters with
      | '-' :: rest => if isInfinity rest then some (-1.0 / 0.0) else none
      | '+' :: rest => if isInfinity rest then some (1.0 / 0.0) else none
      | characters => if isInfinity characters then some (1.0 / 0.0) else none
    infinite.or (do (← numeral? characters).toNearest?)

instance : Numeric Float where
  write value := (floatStyle.write value).toList
  read? := float?

end ChangeImpact.Yaml
