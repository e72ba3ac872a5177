/-
This file defines the dependency graph and the dependencies that leave a module.
-/

import ChangeImpact.Dependency
import ChangeImpact.Distinct
import Std.Data.HashMap

namespace ChangeImpact

/-- Which way dependencies are followed: to the modules that depend on a module, or to the modules
it depends on. -/
inductive Direction where
  | dependents
  | dependencies
deriving DecidableEq, Repr, Inhabited

namespace Direction

instance : Choice Direction where
  all := [dependents, dependencies]
  name
    | dependents => "dependents"
    | dependencies => "dependencies"

def opposite : Direction → Direction
  | dependents => dependencies
  | dependencies => dependents

/-- The module from which a dependency is followed. -/
def start : Direction → Dependency → String
  | dependents => Dependency.provider
  | dependencies => Dependency.dependent

/-- The module to which a dependency leads. -/
def finish : Direction → Dependency → String
  | dependents => Dependency.dependent
  | dependencies => Dependency.provider

end Direction

/-- The dependencies in their given order, with the places of those that leave each module in
either direction. -/
structure Graph where
  edges : Array Dependency
  outgoing : Std.HashMap String (Array Nat)
  incoming : Std.HashMap String (Array Nat)

namespace Graph

def empty : Graph :=
  ⟨#[], {}, {}⟩

/-- Notes one more place for a module. -/
def note (places : Std.HashMap String (Array Nat)) (path : String) (place : Nat) :
    Std.HashMap String (Array Nat) :=
  places.alter path fun noted => some ((noted.getD #[]).push place)

def add (graph : Graph) (edge : Dependency) : Graph where
  edges := graph.edges.push edge
  outgoing := note graph.outgoing edge.dependent graph.edges.size
  incoming := note graph.incoming edge.provider graph.edges.size

def ofDependencies (dependencies : List Dependency) : Graph :=
  dependencies.foldl add empty

def size (graph : Graph) : Nat :=
  graph.edges.size

/-- Whether a module is an end of some dependency. -/
def contains (graph : Graph) (path : String) : Bool :=
  graph.outgoing.contains path || graph.incoming.contains path

def places (graph : Graph) : Direction → Std.HashMap String (Array Nat)
  | .dependents => graph.incoming
  | .dependencies => graph.outgoing

/-- The dependencies that can be followed from a module, in their given order. -/
def edgesFrom (graph : Graph) (path : String) (direction : Direction) : List Dependency :=
  ((graph.places direction).getD path #[]).toList.filterMap (graph.edges[·]?)

/-- The modules next to a module, once for each dependency. -/
def neighbors (graph : Graph) (path : String) (direction : Direction) : List String :=
  (graph.edgesFrom path direction).map direction.finish

/-- Of several dependencies of the greatest strength the last is taken. -/
def strongest (edges : List Dependency) : Option Dependency :=
  edges.foldl (fun best edge =>
    match best with
    | none => some edge
    | some kept => if edge.strength < kept.strength then some kept else some edge) none

/-- The strongest dependency that leads from one module to another. -/
def edgeBetween (graph : Graph) (source target : String) (direction : Direction) :
    Option Dependency :=
  strongest ((graph.edgesFrom source direction).filter fun edge =>
    direction.finish edge == target)

/-- The number of modules that depend on a module. -/
def fanIn (graph : Graph) (path : String) : Nat :=
  (distinct (graph.neighbors path .dependents)).length

end Graph

end ChangeImpact
