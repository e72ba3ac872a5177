/-
This file finds the shortest decimal that reads back as a given double.
-/

import ChangeImpact.Decimal.Binary64
import ChangeImpact.Decimal.Numeral

namespace ChangeImpact.Decimal

/-- The reals that round to one double: its neighbourhood, with numerators over a common
denominator. The ends belong to it when `closed`. -/
structure Interval where
  low : Nat
  middle : Nat
  high : Nat
  denominator : Nat
  closed : Bool
deriving DecidableEq, Repr

namespace Interval

/-- The interval reaches halfway to both neighbours. Below a power of two the neighbour is half as
far, and the smallest exponent has no such place. -/
def ofBinary64 (value : Binary64) : Interval :=
  let scale := twoTo (value.exponent - 2).toNat
  let gap := if value.significand = Binary64.fractionSize ∧ value.exponent ≠ -1074 then 1 else 2
  { low := (4 * value.significand - gap) * scale
    middle := 4 * value.significand * scale
    high := (4 * value.significand + 2) * scale
    denominator := twoTo (2 - value.exponent).toNat
    closed := value.significand % 2 = 0 }

/-- Whether `coefficient * 10 ^ exponent` lies in the interval. -/
def holds (interval : Interval) (exponent : Int) (coefficient : Nat) : Bool :=
  let point := coefficient * tenTo exponent.toNat * interval.denominator
  let scale := tenTo (-exponent).toNat
  if interval.closed then
    decide (interval.low * scale ≤ point ∧ point ≤ interval.high * scale)
  else
    decide (interval.low * scale < point ∧ point < interval.high * scale)

/-- The multiple of `10 ^ exponent` in the interval that is nearest to the middle. Only the two
multiples next to the middle can be it. -/
def nearestMultiple? (interval : Interval) (exponent : Int) : Option Nat :=
  let numerator := interval.middle * tenTo (-exponent).toNat
  let denominator := interval.denominator * tenTo exponent.toNat
  let below := numerator / denominator
  let remainder := numerator % denominator
  let belowHolds := interval.holds exponent below
  let aboveHolds := interval.holds exponent (below + 1)
  let belowNearer :=
    decide (2 * remainder < denominator ∨ 2 * remainder = denominator ∧ below % 2 = 0)
  if belowHolds && (belowNearer || !aboveHolds) then some below
  else if aboveHolds then some (below + 1)
  else none

/-- The first power of ten, going down from `exponent`, with a multiple in the interval. -/
def firstMultiple : Nat → Interval → Int → Nat × Int
  | 0, interval, exponent =>
    (interval.middle * tenTo (-exponent).toNat / (interval.denominator * tenTo exponent.toNat),
      exponent)
  | steps + 1, interval, exponent =>
    match interval.nearestMultiple? exponent with
    | some coefficient => (coefficient, exponent)
    | none => firstMultiple steps interval (exponent - 1)

end Interval

/-- A power of ten that is not below the value. -/
def Binary64.powerAbove (value : Binary64) : Int :=
  ((value.significand.log2 : Int) + value.exponent + 1) * 30103 / 100000 + 1

/-- The digits and the power of ten of the shortest decimal that reads back as the value, and of
those the nearest. Seventeen digits always suffice, and the search starts at most two powers above
the leading digit. -/
def Binary64.shortest (value : Binary64) : Nat × Int :=
  if value.significand = 0 then (0, 0)
  else Interval.firstMultiple 20 (.ofBinary64 value) value.powerAbove

/-- How a double is laid out in decimal. -/
structure Style where
  /-- Whether a number whose leading digit stands at this power of ten is written without one. -/
  positional : Int → Bool
  /-- Whether whole numbers without a power of ten keep a point and a zero. -/
  keepsPoint : Bool
  /-- What stands before a power of ten that is not negative. -/
  plus : String
  infinity : String
  notANumber : String

namespace Style

def layout (style : Style) (value : Binary64) : Numeral :=
  let shortest := value.shortest
  let digits := Nat.toDigits 10 shortest.1
  let leading : Int := digits.length + shortest.2 - 1
  if style.positional leading then
    if 0 ≤ shortest.2 then
      ⟨value.negative, digits ++ List.replicate shortest.2.toNat '0',
        if style.keepsPoint then ['0'] else [], none⟩
    else if 0 ≤ leading then
      ⟨value.negative, digits.take (leading.toNat + 1), digits.drop (leading.toNat + 1), none⟩
    else
      ⟨value.negative, ['0'], List.replicate (-leading - 1).toNat '0' ++ digits, none⟩
  else
    ⟨value.negative, digits.take 1, digits.drop 1, some leading⟩

def write (style : Style) (value : Float) : String :=
  match Binary64.ofFloat? value with
  | some parts => (style.layout parts).text style.plus
  | none =>
    if value.isNaN then style.notANumber
    else if value < 0.0 then "-" ++ style.infinity
    else style.infinity

end Style

/-- Plain positional notation without a trailing point, for messages. -/
def plainStyle : Style where
  positional _ := true
  keepsPoint := false
  plus := ""
  infinity := "inf"
  notANumber := "NaN"

def plainText (value : Float) : String :=
  plainStyle.write value

end ChangeImpact.Decimal
