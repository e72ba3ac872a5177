/-
This file shows which dependencies a graph lets one follow from a module.
-/

import ChangeImpact.Graph.Basic
import Mathlib.Data.List.Basic
import Mathlib.Data.List.Induction

namespace ChangeImpact.Graph

/-- These are the places of the dependencies that are followed from a module. -/
def placesFrom (dependencies : List Dependency) (path : String) (direction : Direction) :
    List Nat :=
  (dependencies.zipIdx.filter fun item => direction.start item.1 == path).map Prod.snd

/-- A further dependency adds its place to those of the module from which it is followed. -/
theorem placesFrom_concat (dependencies : List Dependency) (edge : Dependency) (path : String)
    (direction : Direction) :
    placesFrom (dependencies ++ [edge]) path direction =
      placesFrom dependencies path direction ++
        if direction.start edge == path then [dependencies.length] else [] := by
  simp only [placesFrom, List.zipIdx_append, List.filter_append, List.map_append, Nat.zero_add,
    List.zipIdx_singleton, List.filter_cons, List.filter_nil]
  cases direction.start edge == path <;> rfl

theorem getD_note (places : Std.HashMap String (Array Nat)) (path other : String) (place : Nat) :
    (note places path place).getD other #[] =
      if path == other then (places.getD path #[]).push place else places.getD other #[] := by
  rw [note, Std.HashMap.getD_alter]
  simp [Std.HashMap.getD_eq_getD_getElem?]

@[simp] theorem places_add (graph : Graph) (edge : Dependency) (direction : Direction) :
    (graph.add edge).places direction =
      note (graph.places direction) (direction.start edge) graph.edges.size := by
  cases direction <;> rfl

theorem ofDependencies_concat (dependencies : List Dependency) (edge : Dependency) :
    ofDependencies (dependencies ++ [edge]) = (ofDependencies dependencies).add edge := by
  simp [ofDependencies, List.foldl_append]

/-- The graph holds the dependencies in their given order. -/
@[simp] theorem edges_ofDependencies (dependencies : List Dependency) :
    (ofDependencies dependencies).edges = dependencies.toArray := by
  induction dependencies using List.reverseRecOn with
  | nil => rfl
  | append_singleton dependencies edge ih => simp [ofDependencies_concat, add, ih]

/-- In either direction the graph notes for a module exactly the places of its dependencies. -/
theorem places_ofDependencies (dependencies : List Dependency) (path : String)
    (direction : Direction) :
    ((ofDependencies dependencies).places direction).getD path #[] =
      (placesFrom dependencies path direction).toArray := by
  induction dependencies using List.reverseRecOn with
  | nil => cases direction <;> simp [ofDependencies, empty, places, placesFrom]
  | append_singleton dependencies edge ih =>
      rw [ofDependencies_concat, places_add, getD_note, placesFrom_concat]
      by_cases here : direction.start edge == path
      · rw [if_pos here, if_pos here, eq_of_beq here, ih]
        simp
      · rw [if_neg here, if_neg here, ih]
        simp

/-- From a module one can follow exactly the dependencies that start there, in their order. -/
theorem edgesFrom_ofDependencies (dependencies : List Dependency) (path : String)
    (direction : Direction) :
    (ofDependencies dependencies).edgesFrom path direction =
      dependencies.filter fun edge => direction.start edge == path := by
  have look (items : List (Dependency × Nat))
      (placed : ∀ item ∈ items, dependencies[item.2]? = some item.1) :
      (items.map Prod.snd).filterMap (dependencies[·]?) = items.map Prod.fst := by
    rw [List.filterMap_map, ← List.filterMap_eq_map]
    exact List.filterMap_congr placed
  rw [edgesFrom, places_ofDependencies, edges_ofDependencies, placesFrom]
  simp only [List.getElem?_toArray]
  rw [look _ fun item member => List.mem_zipIdx_iff_getElem?.mp (List.mem_of_mem_filter member)]
  conv_rhs => rw [← List.zipIdx_map_fst 0 dependencies, List.filter_map]
  rfl

theorem mem_edgesFrom_ofDependencies {dependencies : List Dependency} {path : String}
    {direction : Direction} {edge : Dependency} :
    edge ∈ (ofDependencies dependencies).edgesFrom path direction ↔
      edge ∈ dependencies ∧ direction.start edge = path := by
  simp [edgesFrom_ofDependencies]

/-- Every dependency that can be followed is one of the graph. -/
theorem mem_edges_of_mem_edgesFrom {graph : Graph} {path : String} {direction : Direction}
    {edge : Dependency} (member : edge ∈ graph.edgesFrom path direction) :
    edge ∈ graph.edges.toList := by
  obtain ⟨place, _, found⟩ := List.mem_filterMap.mp member
  exact Array.mem_toList_iff.mpr (Array.mem_of_getElem? found)

end ChangeImpact.Graph
