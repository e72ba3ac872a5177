/-
This file defines JSON values.
-/

import ChangeImpact.Decimal.Numeral

namespace ChangeImpact

/-- A JSON value. A string is absent when its escapes leave one half of a surrogate pair alone, so
that it denotes no text. Members keep their order and may repeat a name. -/
inductive Json where
  | null
  | bool (value : Bool)
  | number (numeral : Decimal.Numeral)
  | string (text : Option String)
  | array (items : List Json)
  | object (members : List (Option String × Json))
deriving Repr, Inhabited

namespace Json

def text (value : String) : Json :=
  .string (some value)

def texts (values : List String) : Json :=
  .array (values.map text)

def count (value : Nat) : Json :=
  .number (.ofNat value)

def record (members : List (String × Json)) : Json :=
  .object (members.map fun member => (some member.1, member.2))

end Json

end ChangeImpact
