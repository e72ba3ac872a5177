/-
This file reads plain values, lists, maps and records from JSON.
-/

import ChangeImpact.Decimal.Scaled
import ChangeImpact.Decimal.Shortest
import ChangeImpact.Json.Value
import ChangeImpact.Record
import ChangeImpact.Table

namespace ChangeImpact

namespace Json

variable {α : Type}

def text? : Json → Option String
  | .string text => text
  | _ => none

def flag? : Json → Option Bool
  | .bool value => some value
  | _ => none

def countBelow? (limit : Nat) : Json → Option Nat
  | .number numeral => numeral.toCount? limit
  | _ => none

/-- A count of the size of a machine word. -/
def count? : Json → Option Nat :=
  countBelow? Decimal.wordLimit

def list? (item? : Json → Option α) : Json → Option (List α)
  | .array items => items.mapM item?
  | _ => none

/-- A map whose keys are texts; of a repeated key the last value is kept, but all must be sound. -/
def table? (item? : Json → Option α) : Json → Option (Table String α)
  | .object members => do
    let entries ← members.mapM fun member => do return (← member.1, ← item? member.2)
    return .ofList entries
  | _ => none

/-- A count as the name of a member: plain digits without needless zeros. -/
def countName? (name : String) : Option Nat :=
  match name.toList with
  | [] => none
  | first :: rest =>
    let value := Decimal.Numeral.digitsValue (first :: rest)
    if (first :: rest).all Char.isDigit ∧ (first ≠ '0' ∨ rest = []) ∧ value < Decimal.wordLimit
    then some value else none

/-- A map whose keys are counts. -/
def countTable? (item? : Json → Option α) : Json → Option (Table Nat α)
  | .object members => do
    let entries ← members.mapM fun member => do
      return (← countName? (← member.1), ← item? member.2)
    return .ofList entries
  | _ => none

def ofTable (item : α → Json) (table : Table String α) : Json :=
  .record (table.entries.map fun entry => (entry.1, item entry.2))

def ofCountTable (item : α → Json) (table : Table Nat α) : Json :=
  .record (table.entries.map fun entry => (toString entry.1, item entry.2))

def optional? (item? : Json → Option α) : Json → Option (Option α)
  | .null => some none
  | value => (item? value).map some

/-- The name of a choice: a text, or an object that binds only that name, to null. -/
def choice? : Json → Option String
  | .string text => text
  | .object [(name, .null)] => name
  | _ => none

def ofOption (item : α → Json) : Option α → Json
  | none => .null
  | some value => item value

/-- A record is given as an object, where unknown members are ignored and known ones occur once,
or as an array of its first fields in order. -/
def record? (names : List String) : Json → Option (Record Json)
  | .object members => do
    let fields ← members.mapM fun member => member.1.map (·, member.2)
    Record.ofFields? names fields
  | .array items =>
    if items.length ≤ names.length then some ⟨names.zip items⟩ else none
  | _ => none

/-- Numbers that JSON texts can hold. A number without a numeral is written as null. -/
class Numeric (α : Type) where
  numeral? : α → Option Decimal.Numeral
  ofNumeral? : Decimal.Numeral → Option α

/-- From `10 ^ -5` to below `10 ^ 16` numbers are written out, with at least one decimal place. -/
def floatStyle : Decimal.Style where
  positional leading := -5 ≤ leading && leading < 16
  keepsPoint := true
  plus := "+"
  infinity := "inf"
  notANumber := "nan"

instance : Numeric Float where
  numeral? value := (Decimal.Binary64.ofFloat? value).map floatStyle.layout
  ofNumeral? numeral := numeral.toFloat?

def ofNumeric [Numeric α] (value : α) : Json :=
  ofOption .number (Numeric.numeral? value)

def numeric? [Numeric α] : Json → Option α
  | .number numeral => Numeric.ofNumeral? numeral
  | _ => none

end Json

/-- A field that may be absent or null. -/
def Record.optional {α : Type} (record : Record Json) (name : String)
    (field? : Json → Option α) : Option (Option α) :=
  record.withDefault name none (Json.optional? field?)

end ChangeImpact
