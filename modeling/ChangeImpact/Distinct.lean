/-
This file removes repeated items from a list and keeps each first occurrence in its place.
-/

import Std.Data.HashSet

namespace ChangeImpact

variable {α : Type} [BEq α] [Hashable α]

def distinctBeyond (seen : Std.HashSet α) : List α → List α
  | [] => []
  | item :: rest =>
    if seen.contains item then distinctBeyond seen rest
    else item :: distinctBeyond (seen.insert item) rest

def distinct (items : List α) : List α :=
  distinctBeyond {} items

end ChangeImpact
