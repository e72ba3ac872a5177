/-
This file defines decimal numerals as they are written.
-/

namespace ChangeImpact.Decimal

/-- A numeral: a sign, the digits before and after the point, and a power of ten if one is named.
Without digits after the point no point is written. -/
structure Numeral where
  negative : Bool
  whole : List Char
  fraction : List Char
  exponent : Option Int
deriving DecidableEq, Repr, Inhabited

namespace Numeral

def ofNat (count : Nat) : Numeral :=
  ⟨false, Nat.toDigits 10 count, [], none⟩

/-- Neither a point nor a power of ten is written. -/
def isWhole (numeral : Numeral) : Bool :=
  numeral.fraction.isEmpty && numeral.exponent.isNone

def digitValue (digit : Char) : Nat :=
  digit.toNat - '0'.toNat

/-- The number that a run of decimal digits stands for. -/
def digitsValue (digits : List Char) : Nat :=
  digits.foldl (fun value digit => 10 * value + digitValue digit) 0

def exponentText (plus : String) (exponent : Int) : List Char :=
  'e' :: if exponent < 0 then '-' :: Nat.toDigits 10 exponent.natAbs
    else plus.toList ++ Nat.toDigits 10 exponent.natAbs

/-- The characters of a numeral, with `plus` before a power of ten that is not negative. -/
def characters (plus : String) (numeral : Numeral) : List Char :=
  (if numeral.negative then ['-'] else []) ++ numeral.whole ++
    (if numeral.fraction.isEmpty then [] else '.' :: numeral.fraction) ++
    (numeral.exponent.map (exponentText plus)).getD []

def text (plus : String) (numeral : Numeral) : String :=
  String.ofList (numeral.characters plus)

end Numeral

end ChangeImpact.Decimal
