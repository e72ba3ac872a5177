/-
This file finds shortest paths in a graph and weighs them.
-/

import ChangeImpact.Graph.Basic

namespace ChangeImpact

/-- What a search for a path keeps to: where it starts, which way it goes, and what it avoids. -/
structure PathSearch where
  graph : Graph
  direction : Direction
  source : String
  avoided : String → Bool

namespace PathSearch

/-- The modules found so far, of which those from `next` on still wait to be expanded, and the
module before each of them. -/
structure State where
  order : Array String
  previous : Std.HashMap String String
  next : Nat

def initial (search : PathSearch) : State :=
  ⟨#[search.source], {}, 0⟩

/-- Takes a step from `current` to a module that is new and not avoided. -/
def visit (search : PathSearch) (current : String) (state : State) (found : String) : State :=
  if search.avoided found || found == search.source || state.previous.contains found then state
  else { state with
    order := state.order.push found
    previous := state.previous.insert found current }

/-- Expands the module that has waited longest; nothing is left to do when none waits. -/
def step? (search : PathSearch) (state : State) : Option State :=
  state.order[state.next]?.map fun current =>
    (search.graph.neighbors current search.direction).foldl (search.visit current)
      { state with next := state.next + 1 }

/-- Searches until the target is found or no module waits. -/
def run (search : PathSearch) (target : String) : Nat → State → State
  | 0, state => state
  | steps + 1, state =>
    if state.previous.contains target then state
    else
      match search.step? state with
      | none => state
      | some state => search.run target steps state

/-- Every module but the source is found over a dependency of its own. -/
def final (search : PathSearch) (target : String) : State :=
  search.run target (search.graph.size + 1) search.initial

/-- The modules from the source to `current`, followed by `path`. -/
def trace (source : String) (previous : Std.HashMap String String) :
    Nat → String → List String → List String
  | 0, current, path => current :: path
  | steps + 1, current, path =>
    if current = source then current :: path
    else
      match previous[current]? with
      | none => current :: path
      | some earlier => trace source previous steps earlier (current :: path)

end PathSearch

namespace Graph

/-- A shortest path from one module to another, both included, that steps onto no avoided module. -/
def pathAvoiding? (graph : Graph) (source target : String) (direction : Direction)
    (avoided : String → Bool) : Option (List String) :=
  if source = target then some [source]
  else
    let search : PathSearch := ⟨graph, direction, source, avoided⟩
    let state := search.final target
    if state.previous.contains target then
      some (PathSearch.trace source state.previous state.previous.size target [])
    else none

def path? (graph : Graph) (source target : String) (direction : Direction) :
    Option (List String) :=
  graph.pathAvoiding? source target direction fun _ => false

/-- The pairs of modules that follow one another on a path. -/
def steps (path : List String) : List (String × String) :=
  path.zip path.tail

/-- Two modules that follow one another on a path without a dependency between them. -/
structure MissingEdge where
  source : String
  target : String
deriving DecidableEq, Repr

variable {α : Type} [Scalar α]

/-- The weights of the strongest dependencies along a path, summed up. -/
def pathWeight (graph : Graph) (path : List String) (direction : Direction) :
    Except MissingEdge α :=
  (steps path).foldlM (fun total (source, target) =>
    match graph.edgeBetween source target direction with
    | some edge => .ok (total + edge.strength.weight)
    | none => .error ⟨source, target⟩) 0.0

def arrow (step : String × String) : String :=
  s!"{step.1} -> {step.2}"

/-- The steps of a path whose strongest dependency is to be kept. -/
def stepsWhere (keep : Dependency → Bool) (graph : Graph) (path : List String)
    (direction : Direction) : List (String × String) :=
  (steps path).filter fun (source, target) =>
    (graph.edgeBetween source target direction).any keep

def isCritical (edge : Dependency) : Bool :=
  edge.strength == .strong || edge.kind == .inherits

def isBreakable (edge : Dependency) : Bool :=
  edge.strength != .strong

/-- The steps that pass a failure on for certain. -/
def criticalEdges (graph : Graph) (path : List String) (direction : Direction) : List String :=
  (graph.stepsWhere isCritical path direction).map arrow

/-- The steps where a path could be cut. -/
def breakingPoints (graph : Graph) (path : List String) (direction : Direction) : List String :=
  (graph.stepsWhere isBreakable path direction).map arrow

end Graph

end ChangeImpact
