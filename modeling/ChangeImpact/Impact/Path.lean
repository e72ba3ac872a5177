/-
This file defines the paths along which a change reaches a module.
-/

import ChangeImpact.Graph.Path

namespace ChangeImpact

inductive PathShape where
  /-- A single dependency. -/
  | direct
  | transitive
  /-- The ends depend on each other, or a module occurs twice. -/
  | circular
deriving DecidableEq, Repr, Inhabited

namespace PathShape

instance : Choice PathShape where
  all := [direct, transitive, circular]
  name
    | direct => "direct"
    | transitive => "transitive"
    | circular => "circular"

def ofPath (path : List String) (inCycle : Bool) : PathShape :=
  if inCycle ∨ ¬ path.Nodup then circular
  else if path.length = 2 then direct
  else transitive

end PathShape

structure ImpactPath (α : Type) where
  id : String
  source : String
  target : String
  /-- The modules from the source to the target, both included. -/
  path : List String
  /-- The number of dependencies. -/
  length : Nat
  weight : α
  risk : α
  shape : PathShape
  direction : Direction
  criticalEdges : List String
  breakingPoints : List String
deriving DecidableEq, Repr

namespace ImpactPath

variable {α : Type} [Scalar α]

/-- Heavy paths to modules of high scores are dangerous, long ones less so, and circular ones half
as much again. -/
def riskScore (weight : α) (length : Nat) (targetScore : α) (shape : PathShape) : α :=
  let score := weight - 0.5 * Scalar.ofNat length + 0.3 * targetScore
  Scalar.clamp (if shape = .circular then score * 1.5 else score) 0.0 10.0

/-- Dangerous paths come first; paths of equal risk keep their order. -/
def sort (paths : List (ImpactPath α)) : List (ImpactPath α) :=
  paths.mergeSort fun left right => (Scalar.order right.risk left.risk).isLE

end ImpactPath

end ChangeImpact
