/-
This file defines the modules that a change affects and the order in which they are reported.
-/

import ChangeImpact.Impact.Tag
import ChangeImpact.Risk.Level

namespace ChangeImpact

structure AffectedModule (α : Type) where
  path : String
  language : String
  /-- The number of steps from the nearest changed module. -/
  distance : Nat
  strength : Strength
  /-- The kind of the dependency that reached the module; a changed module has none. -/
  kind : Option DependencyKind
  coverage : α
  score : α
  risk : RiskLevel
  tags : List ImpactTag
  reason : String
  features : List String
deriving DecidableEq, Repr

namespace AffectedModule

variable {α : Type}

/-- The module was changed itself. -/
def isDirect (affected : AffectedModule α) : Bool :=
  affected.distance == 0

variable [Scalar α]

/-- High scores come first, then short distances; paths decide the rest. -/
def order (left right : AffectedModule α) : Ordering :=
  (Scalar.order right.score left.score).then
    ((compare left.distance right.distance).then (compare left.path right.path))

def sort (affected : List (AffectedModule α)) : List (AffectedModule α) :=
  affected.mergeSort fun left right => (order left right).isLE

end AffectedModule

end ChangeImpact
