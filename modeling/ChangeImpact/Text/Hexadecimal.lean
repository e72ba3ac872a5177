/-
This file reads and writes hexadecimal digits.
-/

namespace ChangeImpact.Hexadecimal

/-- The value of a digit, whose letters may be of either case. -/
def value? (digit : Char) : Option Nat :=
  if '0' ≤ digit ∧ digit ≤ '9' then some (digit.toNat - '0'.toNat)
  else if 'a' ≤ digit ∧ digit ≤ 'f' then some (digit.toNat - 'a'.toNat + 10)
  else if 'A' ≤ digit ∧ digit ≤ 'F' then some (digit.toNat - 'A'.toNat + 10)
  else none

/-- The number that a sequence of digits stands for. -/
def number? (digits : List Char) : Option Nat := do
  let values ← digits.mapM value?
  return values.foldl (fun number value => 16 * number + value) 0

/-- The digit of a value below sixteen, in lower case. -/
def digit (value : Nat) : Char :=
  Nat.digitChar value

/-- At least `size` digits, in upper case. -/
def upperDigits (size number : Nat) : List Char :=
  let digits := (Nat.toDigits 16 number).map Char.toUpper
  List.replicate (size - digits.length) '0' ++ digits

end ChangeImpact.Hexadecimal
