/-
This file shows which places a graph notes for its modules, and what the graph tells by them: which
modules are ends of dependencies, and how many modules depend on a module.
-/

import ChangeImpact.Proofs.Distinct
import ChangeImpact.Proofs.Graph.Adjacency
import Mathlib.Data.List.Sort
import Mathlib.Data.Set.Card

namespace ChangeImpact.Graph

/-- For every module these are, in ascending order, the places of the dependencies of which it is
the given end. All together they are the places of the dependencies, each once. -/
structure Indexes (noted : Std.HashMap String (Array Nat)) (endOf : Dependency → String)
    (dependencies : List Dependency) : Prop where
  ascending : ∀ path, (noted.getD path #[]).toList.SortedLT
  mem_iff : ∀ path place, place ∈ noted.getD path #[] ↔
    ∃ edge, dependencies[place]? = some edge ∧ endOf edge = path
  inBounds : ∀ (path : String) (places : Array Nat), noted[path]? = some places →
    ∀ place ∈ places, place < dependencies.length
  once : (noted.toList.flatMap fun entry => entry.2.toList).Perm (List.range dependencies.length)

variable {dependencies : List Dependency} {path other : String} {direction : Direction}
  {place : Nat} {places : Array Nat} {edge : Dependency}

section PlacesFrom

theorem mem_placesFrom_iff :
    place ∈ placesFrom dependencies path direction ↔
      ∃ edge, dependencies[place]? = some edge ∧ direction.start edge = path := by
  simp [placesFrom, List.mem_zipIdx_iff_getElem?]

theorem lt_length_of_mem_placesFrom (member : place ∈ placesFrom dependencies path direction) :
    place < dependencies.length := by
  obtain ⟨edge, found, _⟩ := mem_placesFrom_iff.mp member
  exact (List.getElem?_eq_some_iff.mp found).1

/-- In one direction a dependency is followed from one module only. -/
theorem eq_of_mem_placesFrom (here : place ∈ placesFrom dependencies path direction)
    (there : place ∈ placesFrom dependencies other direction) : path = other := by
  obtain ⟨edge, found, fromHere⟩ := mem_placesFrom_iff.mp here
  obtain ⟨_, again, fromThere⟩ := mem_placesFrom_iff.mp there
  obtain rfl := Option.some.inj (found.symm.trans again)
  exact fromHere.symm.trans fromThere

theorem sortedLT_placesFrom (dependencies : List Dependency) (path : String)
    (direction : Direction) : (placesFrom dependencies path direction).SortedLT := by
  have sublist : (placesFrom dependencies path direction).Sublist
      (List.range dependencies.length) := by
    rw [List.range_eq_range', ← List.zipIdx_map_snd 0 dependencies]
    exact List.filter_sublist.map Prod.snd
  exact ((List.sortedLT_range _).pairwise.sublist sublist).sortedLT

end PlacesFrom

section Noted

theorem contains_note (places : Std.HashMap String (Array Nat)) (path other : String)
    (place : Nat) :
    (note places path place).contains other = (path == other || places.contains other) := by
  rw [note, Std.HashMap.contains_alter]
  cases path == other <;> rfl

/-- Places are noted for exactly those modules from which a dependency is followed. -/
theorem contains_places_ofDependencies (dependencies : List Dependency) (path : String)
    (direction : Direction) :
    ((ofDependencies dependencies).places direction).contains path =
      dependencies.any (direction.start · == path) := by
  induction dependencies using List.reverseRecOn with
  | nil => cases direction <;> simp [ofDependencies, empty, places]
  | append_singleton dependencies edge ih =>
      rw [ofDependencies_concat, places_add, contains_note, ih, List.any_append, Bool.or_comm,
        List.any_cons, List.any_nil, Bool.or_false]

theorem exists_noted (member : edge ∈ dependencies) (direction : Direction) :
    ∃ places, ((ofDependencies dependencies).places direction)[direction.start edge]? =
      some places := by
  rw [← Option.isSome_iff_exists, ← Std.HashMap.contains_eq_isSome_getElem?,
    contains_places_ofDependencies, List.any_eq_true]
  exact ⟨edge, member, beq_self_eq_true _⟩

theorem toList_of_noted
    (noted : ((ofDependencies dependencies).places direction)[path]? = some places) :
    places.toList = placesFrom dependencies path direction := by
  have same := places_ofDependencies dependencies path direction
  rw [Std.HashMap.getD_eq_getD_getElem?, noted, Option.getD_some] at same
  rw [same]

theorem toList_of_mem_toList {entry : String × Array Nat}
    (member : entry ∈ ((ofDependencies dependencies).places direction).toList) :
    entry.2.toList = placesFrom dependencies entry.1 direction :=
  toList_of_noted (Std.HashMap.mem_toList_iff_getElem?_eq_some.mp member)

/-- No place is noted twice, be it for one module or for two. -/
theorem nodup_noted (dependencies : List Dependency) (direction : Direction) :
    (((ofDependencies dependencies).places direction).toList.flatMap
      fun entry => entry.2.toList).Nodup := by
  rw [List.nodup_flatMap]
  constructor
  · intro entry member
    rw [toList_of_mem_toList member]
    exact (sortedLT_placesFrom dependencies entry.1 direction).nodup
  · refine Std.HashMap.distinct_keys_toList.imp_of_mem fun {entry other} isEntry isOther apart => ?_
    rw [Function.onFun, toList_of_mem_toList isEntry, toList_of_mem_toList isOther]
    intro place here there
    exact ne_of_beq_false apart (eq_of_mem_placesFrom here there)

theorem mem_noted_iff :
    place ∈ ((ofDependencies dependencies).places direction).toList.flatMap
        (fun entry => entry.2.toList) ↔ place < dependencies.length := by
  rw [List.mem_flatMap]
  constructor
  · rintro ⟨entry, isEntry, member⟩
    rw [toList_of_mem_toList isEntry] at member
    exact lt_length_of_mem_placesFrom member
  · intro inBounds
    obtain ⟨places, noted⟩ := exists_noted (List.getElem_mem inBounds) direction
    refine ⟨(_, places), Std.HashMap.mem_toList_iff_getElem?_eq_some.mpr noted, ?_⟩
    rw [toList_of_noted noted]
    exact mem_placesFrom_iff.mpr ⟨_, List.getElem?_eq_getElem inBounds, rfl⟩

theorem indexes_places (dependencies : List Dependency) (direction : Direction) :
    Indexes ((ofDependencies dependencies).places direction) direction.start dependencies where
  ascending := by
    intro path
    rw [places_ofDependencies]
    exact sortedLT_placesFrom dependencies path direction
  mem_iff := by
    intro path place
    rw [places_ofDependencies, List.mem_toArray, mem_placesFrom_iff]
  inBounds := by
    intro path places noted place member
    rw [← Array.mem_toList_iff, toList_of_noted noted] at member
    exact lt_length_of_mem_placesFrom member
  once := by
    refine (List.perm_ext_iff_of_nodup (nodup_noted dependencies direction)
      List.nodup_range).mpr fun place => ?_
    rw [mem_noted_iff, List.mem_range]

end Noted

theorem neighbors_ofDependencies (dependencies : List Dependency) (path : String)
    (direction : Direction) :
    (ofDependencies dependencies).neighbors path direction =
      (dependencies.filter fun edge => direction.start edge == path).map direction.finish := by
  rw [neighbors, edgesFrom_ofDependencies]

theorem contains_ofDependencies_iff :
    (ofDependencies dependencies).contains path = true ↔
      ∃ edge ∈ dependencies, edge.dependent = path ∨ edge.provider = path := by
  have leaves := contains_places_ofDependencies dependencies path .dependencies
  have enters := contains_places_ofDependencies dependencies path .dependents
  simp only [places, Direction.start] at leaves enters
  rw [contains, leaves, enters]
  simp only [Bool.or_eq_true, List.any_eq_true, beq_iff_eq, ← exists_or, ← and_or_left]

/-- These modules depend on a module. -/
def dependentsOf (dependencies : List Dependency) (path : String) : Set String :=
  {dependent | ∃ edge ∈ dependencies, edge.dependent = dependent ∧ edge.provider = path}

theorem mem_neighbors_dependents_iff :
    other ∈ (ofDependencies dependencies).neighbors path .dependents ↔
      other ∈ dependentsOf dependencies path := by
  simp [neighbors_ofDependencies, dependentsOf, Direction.start, Direction.finish, and_assoc,
    and_comm]

theorem fanIn_ofDependencies (dependencies : List Dependency) (path : String) :
    (ofDependencies dependencies).fanIn path = (dependentsOf dependencies path).ncard := by
  have same : (distinct ((ofDependencies dependencies).neighbors path .dependents)).toFinset =
      dependentsOf dependencies path := by
    ext other
    rw [Finset.mem_coe, List.mem_toFinset, mem_distinct, mem_neighbors_dependents_iff]
  rw [fanIn, ← List.toFinset_card_of_nodup (distinct_nodup _), ← Set.ncard_coe_finset, same]

/-- Neither the order of the dependencies nor their repetition matters. -/
theorem fanIn_congr {others : List Dependency}
    (same : ∀ edge, edge ∈ others ↔ edge ∈ dependencies) (path : String) :
    (ofDependencies others).fanIn path = (ofDependencies dependencies).fanIn path := by
  have sameDependents : dependentsOf others path = dependentsOf dependencies path := by
    simp only [dependentsOf, same]
  rw [fanIn_ofDependencies, fanIn_ofDependencies, sameDependents]

/-- A graph holds the dependencies in their given order, and it notes for every module the places of
those that leave it and of those that enter it. From a module one follows exactly its dependencies,
in their order and each as often as it is given. The graph contains exactly the ends of
dependencies. As its dependents it counts each module with a dependency on a module once, wherever
and however often the dependencies are given. -/
theorem ofDependencies_indexed (dependencies : List Dependency) :
    let graph := ofDependencies dependencies
    graph.edges.toList = dependencies ∧
      Indexes graph.outgoing Dependency.dependent dependencies ∧
      Indexes graph.incoming Dependency.provider dependencies ∧
      (∀ path direction,
        graph.edgesFrom path direction =
            dependencies.filter (fun edge => direction.start edge == path) ∧
          graph.neighbors path direction =
            (dependencies.filter fun edge => direction.start edge == path).map direction.finish) ∧
      (∀ path, graph.contains path = true ↔
        ∃ edge ∈ dependencies, edge.dependent = path ∨ edge.provider = path) ∧
      (∀ path, graph.fanIn path = (dependentsOf dependencies path).ncard) ∧
      ∀ others, (∀ edge, edge ∈ others ↔ edge ∈ dependencies) →
        ∀ path, (ofDependencies others).fanIn path = graph.fanIn path := by
  intro graph
  have held : graph.edges.toList = dependencies := by
    rw [edges_ofDependencies]
  refine ⟨held, indexes_places dependencies .dependencies, indexes_places dependencies .dependents,
    ?_, fun path => contains_ofDependencies_iff, fanIn_ofDependencies dependencies,
    fun others same => fanIn_congr same⟩
  intro path direction
  exact ⟨edgesFrom_ofDependencies dependencies path direction,
    neighbors_ofDependencies dependencies path direction⟩

/-- Here a module depends on itself and in two ways on another one. -/
def selfUsing : List Dependency :=
  [⟨"a", "a", .calls, "", .weak, false⟩, ⟨"a", "b", .calls, "", .strong, false⟩,
    ⟨"a", "b", .imports, "", .weak, false⟩]

/-- Its three dependencies are followed in their order. Giving them once more, in reverse, does not
change how many modules depend on it. -/
theorem ofDependencies_indexed_selfUsing :
    (∀ edge, edge ∈ selfUsing.reverse ++ selfUsing ↔ edge ∈ selfUsing) ∧
      (ofDependencies selfUsing).neighbors "a" .dependencies = ["a", "b", "b"] ∧
      (ofDependencies (selfUsing.reverse ++ selfUsing)).fanIn "a" =
        (ofDependencies selfUsing).fanIn "a" := by
  have same : ∀ edge, edge ∈ selfUsing.reverse ++ selfUsing ↔ edge ∈ selfUsing := by
    intro edge
    rw [List.mem_append, List.mem_reverse, or_self]
  obtain ⟨_, _, _, followed, _, _, unaffected⟩ := ofDependencies_indexed selfUsing
  refine ⟨same, ?_, unaffected _ same "a"⟩
  rw [(followed "a" .dependencies).2]
  decide

end ChangeImpact.Graph
