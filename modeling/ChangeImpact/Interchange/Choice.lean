/-
This file reads and writes named values as JSON.
-/

import ChangeImpact.Choice
import ChangeImpact.Json.Record

namespace ChangeImpact.Choice

variable {α : Type} [Choice α]

def ofJson? (json : Json) : Option α :=
  json.choice?.bind ofName?

def toJson (choice : α) : Json :=
  .text (name choice)

end ChangeImpact.Choice
