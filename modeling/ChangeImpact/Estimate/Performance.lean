/-
This file estimates where a change may cost performance.
-/

import ChangeImpact.Graph.Basic
import ChangeImpact.Impact.Module
import ChangeImpact.Text.Casing

namespace ChangeImpact

structure PerformanceImpact where
  components : List String
  risk : Effort
  benchmarks : List String
  bottlenecks : List String
deriving DecidableEq, Repr

namespace PerformanceImpact

/-- Words in the paths of components that are sensitive to performance. -/
def keywords : List String :=
  ["cache", "database", "network", "query", "index", "memory", "algorithm"]

def isSensitive (path : String) : Bool :=
  let lowered := path.toList.flatMap Text.lowerCaseAscii
  keywords.any fun keyword => Text.containsWord lowered keyword.toList

/-- A module is on a hot path if many modules depend on it. -/
def hotFanIn : Nat := 3

variable {α : Type}

/-- Hot modules next to the change may become bottlenecks, and so may modules at high risk near
it. -/
def isBottleneck (graph : Graph) (affected : AffectedModule α) : Bool :=
  (affected.distance ≤ 1 && hotFanIn ≤ graph.fanIn affected.path) ||
    (affected.risk == .high && affected.distance ≤ 2)

def riskOf (components bottlenecks : Nat) : Effort :=
  if 5 < components ∨ 3 < bottlenecks then .high
  else if 2 < components ∨ 1 < bottlenecks then .medium
  else .low

def ofAffected (graph : Graph) (affected : List (AffectedModule α)) : PerformanceImpact :=
  let sensitive := (affected.map AffectedModule.path).filter isSensitive
  let components := distinct sensitive
  let bottlenecks := distinct ((affected.filter (isBottleneck graph)).map AffectedModule.path)
  { components := components
    risk := riskOf components.length bottlenecks.length
    benchmarks := distinct (sensitive.map fun path => s!"Benchmark {path} performance")
    bottlenecks := bottlenecks }

end PerformanceImpact

end ChangeImpact
