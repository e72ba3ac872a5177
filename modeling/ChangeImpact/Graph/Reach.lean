/-
This file explores a graph from several modules at once, up to a number of steps.
-/

import ChangeImpact.Graph.Basic

namespace ChangeImpact

/-- How a module was reached: in how many steps, and over which dependency last. The modules that
an exploration starts from have no such dependency. -/
structure Reach where
  path : String
  distance : Nat
  edge : Option Dependency
deriving DecidableEq, Repr, Inhabited

namespace Reach

def start (path : String) : Reach :=
  ⟨path, 0, none⟩

def strength (reach : Reach) : Strength :=
  match reach.edge with
  | none => .strong
  | some edge => edge.strength

/-- A module is better reached in fewer steps, or in as many steps by a stronger dependency. -/
def isImprovedBy (reach other : Reach) : Bool :=
  other.distance < reach.distance ||
    (other.distance == reach.distance && decide (reach.strength < other.strength))

end Reach

/-- The best known way to reach each module, in the order in which the modules were found. -/
structure Reaches where
  records : Array Reach
  slots : Std.HashMap String Nat

namespace Reaches

def empty : Reaches :=
  ⟨#[], {}⟩

def contains (reaches : Reaches) (path : String) : Bool :=
  reaches.slots.contains path

def append (reaches : Reaches) (reach : Reach) : Reaches where
  records := reaches.records.push reach
  slots := reaches.slots.insert reach.path reaches.records.size

/-- Replaces the record at a place by a better one. -/
def improve (reaches : Reaches) (slot : Nat) (reach : Reach) : Reaches where
  records := reaches.records.modify slot fun record =>
    if record.isImprovedBy reach then reach else record
  slots := reaches.slots

/-- Takes a record into account unless its module is new and refused. -/
def meet (refused : String → Bool) (reaches : Reaches) (reach : Reach) : Reaches :=
  match reaches.slots[reach.path]? with
  | some slot => reaches.improve slot reach
  | none => if refused reach.path then reaches else reaches.append reach

def meetAll (reaches : Reaches) (reachList : List Reach) : Reaches :=
  reachList.foldl (meet fun _ => false) reaches

/-- The best record of each module that some exploration reached. -/
def merge (explorations : List (List Reach)) : List Reach :=
  (empty.meetAll explorations.flatten).records.toList

end Reaches

/-- What an exploration keeps to: where it goes, how far, and which modules it leaves out. -/
structure Exploration where
  graph : Graph
  direction : Direction
  maxDepth : Nat
  excluded : String → Bool

namespace Exploration

/-- The modules found so far, of which those from `next` on still wait to be expanded. -/
structure State where
  reaches : Reaches
  next : Nat

def initial (seeds : List String) : State :=
  ⟨Reaches.empty.meetAll (seeds.map Reach.start), 0⟩

/-- The ways to go one step further from a module. -/
def candidates (exploration : Exploration) (record : Reach) : List Reach :=
  if exploration.maxDepth ≤ record.distance then []
  else (exploration.graph.edgesFrom record.path exploration.direction).map fun edge =>
    ⟨exploration.direction.finish edge, record.distance + 1, some edge⟩

/-- Expands the module that has waited longest; nothing is left to do when none waits. -/
def step? (exploration : Exploration) (state : State) : Option State :=
  state.reaches.records[state.next]?.map fun record =>
    ⟨(exploration.candidates record).foldl (.meet exploration.excluded) state.reaches,
      state.next + 1⟩

def run (exploration : Exploration) : Nat → State → State
  | 0, state => state
  | steps + 1, state =>
    match exploration.step? state with
    | none => state
    | some state => exploration.run steps state

/-- Each module waits once, and it is a seed or an end of a dependency. -/
def steps (exploration : Exploration) (seeds : List String) : Nat :=
  seeds.length + exploration.graph.size

def final (exploration : Exploration) (seeds : List String) : State :=
  exploration.run (exploration.steps seeds) (initial seeds)

end Exploration

namespace Graph

/-- The modules within `maxDepth` steps of the seeds, in the order of discovery, with the fewest
steps and the strongest dependency that completes them. Excluded modules are left out unless they
are seeds. -/
def reachable (graph : Graph) (seeds : List String) (direction : Direction) (maxDepth : Nat)
    (excluded : String → Bool) : List Reach :=
  ((Exploration.mk graph direction maxDepth excluded).final seeds).reaches.records.toList

end Graph

end ChangeImpact
