/-
This file states what the modules reachable from some seeds are, and how they are reached.
-/

import ChangeImpact.Proofs.Graph.Exploration

namespace ChangeImpact

/-- What is discovered from some seeds within a depth: the seeds first, then each module that a walk
leads to over modules that are seeds or not excluded, at its distance and over the strongest
dependency that ends a shortest walk. -/
structure IsDiscovery (dependencies : List Dependency) (seeds : List String) (direction : Direction)
    (maxDepth : Nat) (excluded : String → Bool) (found : List Reach) : Prop where
  nodup : (found.map Reach.path).Nodup
  starts : seeds.eraseDups.map Reach.start <+: found
  ascending : found.Pairwise fun earlier later => earlier.distance ≤ later.distance
  complete : ∀ target, target ∉ seeds → (target ∈ found.map Reach.path ↔
    excluded target = false ∧ ∃ length ≤ maxDepth, ∃ seed ∈ seeds,
      Walk (Follows dependencies direction fun path => path ∈ seeds ∨ excluded path = false)
        length seed target)
  nearest : ∀ reach ∈ found, IsDistance
    (Follows dependencies direction fun path => path ∈ seeds ∨ excluded path = false)
    seeds reach.path reach.distance
  carried : ∀ reach ∈ found, reach.path ∉ seeds → ∃ edge, reach.edge = some edge ∧
    edge ∈ dependencies ∧ direction.finish edge = reach.path ∧
    ∃ source ∈ found, source.path = direction.start edge ∧ reach.distance = source.distance + 1
  strongest : ∀ reach ∈ found, ∀ edge, reach.edge = some edge →
    ∀ other ∈ dependencies, direction.finish other = reach.path →
      ∀ source ∈ found, source.path = direction.start other →
        reach.distance = source.distance + 1 → other.strength ≤ edge.strength

namespace Graph

variable {graph : Graph} {seeds : List String} {direction : Direction} {maxDepth : Nat}
  {excluded : String → Bool} {record : Reach}

/-- No module is listed twice. -/
theorem reachable_nodup (graph : Graph) (seeds : List String) (direction : Direction)
    (maxDepth : Nat) (excluded : String → Bool) :
    ((graph.reachable seeds direction maxDepth excluded).map Reach.path).Nodup :=
  (Exploration.explored_final ⟨graph, direction, maxDepth, excluded⟩ seeds).1.gathered.nodup

/-- Exactly the modules within the depth are listed, each at its distance from the seeds. -/
theorem mem_layers_reachable_iff {target : String} {distance : Nat} :
    (target, distance) ∈ (graph.reachable seeds direction maxDepth excluded).map Reach.layer ↔
      distance ≤ maxDepth ∧ IsDistance
        (graph.Leads direction fun path => path ∈ seeds ∨ excluded path = false)
        seeds target distance := by
  obtain ⟨explored, done⟩ :=
    Exploration.explored_final ⟨graph, direction, maxDepth, excluded⟩ seeds
  rw [reachable, explored.layers.mem_found_iff (by simpa using done), Nat.cast_le]
  rfl

theorem mem_layers_of_mem (member : record ∈ graph.reachable seeds direction maxDepth excluded) :
    (record.path, record.distance) ∈
      (graph.reachable seeds direction maxDepth excluded).map Reach.layer :=
  List.mem_map_of_mem member

/-- If the depth leaves room for all modules that are listed, no walk is cut off. -/
theorem mem_reachable_of_walk
    (room : (graph.reachable seeds direction maxDepth excluded).length ≤ maxDepth)
    {seed target : String} {length : Nat} (isSeed : seed ∈ seeds)
    (walk : Walk (graph.Leads direction fun path => path ∈ seeds ∨ excluded path = false)
      length seed target) :
    target ∈ (graph.reachable seeds direction maxDepth excluded).map Reach.path := by
  obtain ⟨explored, done⟩ :=
    Exploration.explored_final ⟨graph, direction, maxDepth, excluded⟩ seeds
  have found := explored.layers.mem_found_of_walk (by simpa using done)
    (by simpa [reachable] using room) isSeed walk
  rwa [Exploration.map_fst_layer] at found

/-- What an exploration lists was met on the way: a seed, or the end of a dependency of a listed
module one step nearer. -/
theorem met_of_reachable (member : record ∈ graph.reachable seeds direction maxDepth excluded) :
    (∃ seed ∈ seeds, record = Reach.start seed) ∨
      ∃ source ∈ graph.reachable seeds direction maxDepth excluded,
        ∃ edge ∈ graph.edgesFrom source.path direction,
          record = ⟨direction.finish edge, source.distance + 1, some edge⟩ := by
  have explored := (Exploration.explored_final ⟨graph, direction, maxDepth, excluded⟩ seeds).1
  rcases List.mem_append.mp (explored.gathered.among record member).1 with isStart | isCandidate
  · obtain ⟨seed, isSeed, same⟩ := List.mem_map.mp isStart
    exact .inl ⟨seed, isSeed, same.symm⟩
  · obtain ⟨source, expanded, candidate⟩ := List.mem_flatMap.mp isCandidate
    obtain ⟨_, edge, isEdge, same⟩ := Exploration.mem_candidates_iff.mp candidate
    exact .inr ⟨source, List.mem_of_mem_take expanded, edge, isEdge, same⟩

/-- No seed and no dependency of a listed module gives a better way to a listed module. -/
theorem best_of_reachable (member : record ∈ graph.reachable seeds direction maxDepth excluded)
    {source : Reach} (isSource : source ∈ graph.reachable seeds direction maxDepth excluded)
    {edge : Dependency} (isEdge : edge ∈ graph.edgesFrom source.path direction)
    (finish : direction.finish edge = record.path) (inDepth : source.distance < maxDepth) :
    record.isImprovedBy ⟨record.path, source.distance + 1, some edge⟩ = false := by
  obtain ⟨explored, done⟩ :=
    Exploration.explored_final ⟨graph, direction, maxDepth, excluded⟩ seeds
  refine explored.gathered.best record member _ (List.mem_append_right _ ?_) rfl
  rw [List.take_of_length_le (by simpa using done)]
  exact List.mem_flatMap.mpr
    ⟨source, isSource, Exploration.mem_candidates_iff.mpr ⟨inDepth, edge, isEdge, by rw [finish]⟩⟩

/-- A seed is reached in no steps and over no dependency. -/
theorem start_of_reachable (member : record ∈ graph.reachable seeds direction maxDepth excluded)
    (isSeed : record.path ∈ seeds) : record = Reach.start record.path := by
  have least := (mem_layers_reachable_iff.mp (mem_layers_of_mem member)).2.2
  have near : record.distance ≤ 0 := least ⟨_, isSeed, .here _⟩
  rcases met_of_reachable member with ⟨seed, _, rfl⟩ | ⟨source, _, edge, _, rfl⟩
  · rfl
  · simp at near

/-- Every other module is reached over a dependency of a module one step nearer. -/
theorem edge_of_reachable (member : record ∈ graph.reachable seeds direction maxDepth excluded)
    (notSeed : record.path ∉ seeds) :
    ∃ source ∈ graph.reachable seeds direction maxDepth excluded,
      ∃ edge ∈ graph.edgesFrom source.path direction, direction.finish edge = record.path ∧
        record.distance = source.distance + 1 ∧ record.edge = some edge := by
  rcases met_of_reachable member with ⟨seed, isSeed, rfl⟩ | ⟨source, isSource, edge, isEdge, rfl⟩
  · exact absurd isSeed notSeed
  · exact ⟨source, isSource, edge, isEdge, rfl, rfl, rfl⟩

/-- No dependency of a module one step nearer is stronger than the one over which a module is
reached. -/
theorem strength_le_of_reachable
    (member : record ∈ graph.reachable seeds direction maxDepth excluded) {source : Reach}
    (isSource : source ∈ graph.reachable seeds direction maxDepth excluded) {edge : Dependency}
    (isEdge : edge ∈ graph.edgesFrom source.path direction)
    (finish : direction.finish edge = record.path)
    (next : record.distance = source.distance + 1) : edge.strength ≤ record.strength := by
  have inDepth := (mem_layers_reachable_iff.mp (mem_layers_of_mem member)).1
  have best := best_of_reachable member isSource isEdge finish (by omega)
  rw [← Bool.not_eq_true, Reach.isImprovedBy_iff, not_or, not_and] at best
  exact Nat.not_lt.mp (best.2 next.symm)

/-- The seeds stand in front, each where it is listed first. -/
theorem starts_prefix_reachable (graph : Graph) (seeds : List String) (direction : Direction)
    (maxDepth : Nat) (excluded : String → Bool) :
    seeds.eraseDups.map Reach.start <+: graph.reachable seeds direction maxDepth excluded := by
  have layers := (Exploration.explored_initial ⟨graph, direction, maxDepth, excluded⟩
    seeds).layers_prefix_run (Exploration.steps ⟨graph, direction, maxDepth, excluded⟩ seeds)
  have paths : seeds.eraseDups <+:
      (graph.reachable seeds direction maxDepth excluded).map Reach.path := by
    have inside := layers.map Prod.fst
    rwa [Exploration.records_initial, Exploration.map_fst_layer, Exploration.map_fst_layer,
      List.map_map, show Reach.path ∘ Reach.start = id from rfl, List.map_id] at inside
  have front := List.prefix_iff_eq_take.mp paths
  rw [← List.map_take] at front
  -- What stands in place of the seeds is a seed, and so it is its own start.
  have starts : ((graph.reachable seeds direction maxDepth excluded).take
      seeds.eraseDups.length).map (Reach.start ∘ Reach.path) =
      (graph.reachable seeds direction maxDepth excluded).take seeds.eraseDups.length := by
    refine (List.map_congr_left fun record member => ?_).trans (List.map_id _)
    have isSeed : record.path ∈ seeds.eraseDups := front ▸ List.mem_map_of_mem member
    exact (start_of_reachable (List.mem_of_mem_take member) (List.mem_eraseDups.mp isSeed)).symm
  rw [List.prefix_iff_eq_take, List.length_map, ← starts, ← List.map_map, ← front]

/-- The modules are listed in the order of their distances. -/
theorem reachable_ascending (graph : Graph) (seeds : List String) (direction : Direction)
    (maxDepth : Nat) (excluded : String → Bool) :
    (graph.reachable seeds direction maxDepth excluded).Pairwise
      fun earlier later => earlier.distance ≤ later.distance := by
  have ascending :=
    (Exploration.explored_final ⟨graph, direction, maxDepth, excluded⟩ seeds).1.layers.ascending
  rwa [List.pairwise_map] at ascending

/-- A module is listed exactly if a walk within the depth leads to it. -/
theorem mem_paths_reachable_iff {target : String} :
    target ∈ (graph.reachable seeds direction maxDepth excluded).map Reach.path ↔
      ∃ length ≤ maxDepth, ∃ seed ∈ seeds, Walk
        (graph.Leads direction fun path => path ∈ seeds ∨ excluded path = false)
        length seed target := by
  constructor
  · intro member
    obtain ⟨record, isRecord, rfl⟩ := List.mem_map.mp member
    obtain ⟨inDepth, ⟨seed, isSeed, walk⟩, _⟩ :=
      mem_layers_reachable_iff.mp (mem_layers_of_mem isRecord)
    exact ⟨record.distance, inDepth, seed, isSeed, walk⟩
  · rintro ⟨length, inDepth, seed, isSeed, walk⟩
    obtain ⟨distance, near, least⟩ := exists_isDistance_of_walk isSeed walk
    obtain ⟨record, isRecord, layer⟩ :=
      List.mem_map.mp (mem_layers_reachable_iff.mpr ⟨near.trans inDepth, least⟩)
    exact List.mem_map.mpr ⟨record, isRecord, congrArg Prod.fst layer⟩

/-- An exploration of a graph discovers what can be discovered from its dependencies. -/
theorem reachable_isDiscovery (dependencies : List Dependency) (seeds : List String)
    (direction : Direction) (maxDepth : Nat) (excluded : String → Bool) :
    IsDiscovery dependencies seeds direction maxDepth excluded
      ((ofDependencies dependencies).reachable seeds direction maxDepth excluded) where
  nodup := reachable_nodup _ _ _ _ _
  starts := starts_prefix_reachable _ _ _ _ _
  ascending := reachable_ascending _ _ _ _ _
  complete := by
    intro target notSeed
    rw [mem_paths_reachable_iff, leads_ofDependencies]
    refine ⟨?_, And.right⟩
    rintro ⟨length, inDepth, seed, isSeed, walk⟩
    refine ⟨?_, length, inDepth, seed, isSeed, walk⟩
    -- Only a walk of no steps could end at a module that must not be entered.
    cases walk with
    | here => exact absurd isSeed notSeed
    | onward _ last => exact last.1.resolve_left notSeed
  nearest := by
    intro record member
    rw [← leads_ofDependencies]
    exact (mem_layers_reachable_iff.mp (mem_layers_of_mem member)).2
  carried := by
    intro record member notSeed
    obtain ⟨source, isSource, edge, isEdge, finish, next, carries⟩ :=
      edge_of_reachable member notSeed
    obtain ⟨isDependency, start⟩ := mem_edgesFrom_ofDependencies.mp isEdge
    exact ⟨edge, carries, isDependency, finish, source, isSource, start.symm, next⟩
  strongest := by
    intro record member edge carries other isDependency finish source isSource start next
    have isEdge := mem_edgesFrom_ofDependencies.mpr ⟨isDependency, start.symm⟩
    have bound := strength_le_of_reachable member isSource isEdge finish next
    rwa [Reach.strength, carries] at bound

end Graph

end ChangeImpact
