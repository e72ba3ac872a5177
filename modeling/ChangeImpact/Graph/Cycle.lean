/-
This file finds the dependency cycles among some modules of a graph.
-/

import ChangeImpact.Graph.Reach
import Std.Data.HashSet

namespace ChangeImpact.Graph

def sortPaths (paths : List String) : List String :=
  paths.mergeSort fun left right => decide (left ≤ right)

/-- The modules that a module depends on through modules of the given set, itself included. -/
def closure (graph : Graph) (members : Std.HashSet String) (path : String) :
    Std.HashSet String :=
  .ofList ((graph.reachable [path] .dependencies members.size
    fun other => !members.contains other).map Reach.path)

/-- For each module of a set those modules that it depends on and that depend on it, all through
modules of the set. -/
def components (graph : Graph) (members : List String) : List (List String) :=
  let memberSet := Std.HashSet.ofList members
  let closures := members.map fun path => (path, graph.closure memberSet path)
  closures.map fun (path, closure) =>
    (closures.filter fun (other, otherClosure) =>
      closure.contains other && otherClosure.contains path).map Prod.fst

/-- Whether some dependency of a module leads back to it. -/
def dependsOnItself (graph : Graph) (path : String) : Bool :=
  (graph.neighbors path .dependencies).contains path

/-- Modules that depend on each other form a cycle if there are several of them or one depends on
itself. Each cycle is sorted and listed once, at its first module. -/
def cycles (graph : Graph) (modules : List String) : List (List String) :=
  let members := sortPaths (distinct modules)
  (members.zip (graph.components members)).filterMap fun (path, component) =>
    if component.head? = some path ∧ (1 < component.length ∨ graph.dependsOnItself path) then
      some component
    else none

def shareCycle (cycles : List (List String)) (first second : String) : Bool :=
  cycles.any fun cycle => cycle.contains first && cycle.contains second

end ChangeImpact.Graph
