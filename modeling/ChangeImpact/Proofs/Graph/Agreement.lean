/-
This file shows that an exploration from several seeds and the searches for paths from each of them
agree on the distance of every module.
-/

import ChangeImpact.Proofs.Graph.PathSearch
import ChangeImpact.Proofs.Graph.Reachable

namespace ChangeImpact.Graph

/-- These are the numbers of steps of the paths that searches from the seeds find. -/
def pathLengths (graph : Graph) (seeds : List String) (target : String) (direction : Direction)
    (excluded : String → Bool) : Set Nat :=
  {length | ∃ seed ∈ seeds, ∃ path,
    graph.pathAvoiding? seed target direction excluded = some path ∧ path.length = length + 1}

variable {graph : Graph} {seeds : List String} {direction : Direction} {maxDepth : Nat}
  {excluded : String → Bool} {seed target : String} {distance length : Nat}

/-- A search from a seed takes no step that an exploration from the seeds would not take. -/
theorem exists_walk_of_mem_pathLengths
    (member : length ∈ graph.pathLengths seeds target direction excluded) :
    ∃ seed ∈ seeds,
      Walk (graph.Leads direction fun path => path ∈ seeds ∨ excluded path = false)
        length seed target := by
  obtain ⟨seed, isSeed, path, found, size⟩ := member
  obtain ⟨steps, again, walk⟩ := (shortestRoute_of_pathAvoiding? found).toRoute.walk
  obtain rfl : steps = length := by omega
  exact ⟨seed, isSeed, walk.mono fun _ _ step => ⟨.inr step.1, step.2⟩⟩

/-- The search from the last seed on a walk finds a path that is no longer than the walk. -/
theorem exists_mem_pathLengths_of_walk (isSeed : seed ∈ seeds)
    (walk : Walk (graph.Leads direction fun path => path ∈ seeds ∨ excluded path = false)
      length seed target) :
    ∃ shorter ≤ length, shorter ∈ graph.pathLengths seeds target direction excluded := by
  obtain ⟨start, isStart, steps, le, rest⟩ :
      ∃ start ∈ seeds, ∃ steps ≤ length,
        Walk (graph.Leads direction fun path => excluded path = false) steps start target :=
    walk.exists_afterLast (fun _ _ step => step.1.imp_right fun isOpen => ⟨isOpen, step.2⟩) isSeed
  obtain ⟨path, found⟩ := Option.isSome_iff_exists.mp (isSome_pathAvoiding?_iff.mpr ⟨steps, rest⟩)
  have route := shortestRoute_of_pathAvoiding? found
  obtain ⟨shorter, size, _⟩ := route.toRoute.walk
  have bound := route.shortest steps rest
  exact ⟨shorter, by omega, start, isStart, path, found, size⟩

/-- The distance of a module from the seeds is the least number of steps that a search finds. -/
theorem isDistance_iff_isLeast_pathLengths :
    IsDistance (graph.Leads direction fun path => path ∈ seeds ∨ excluded path = false)
      seeds target distance ↔
      IsLeast (graph.pathLengths seeds target direction excluded) distance := by
  constructor
  · rintro ⟨⟨seed, isSeed, walk⟩, least⟩
    obtain ⟨shorter, le, member⟩ := exists_mem_pathLengths_of_walk isSeed walk
    have same : shorter = distance :=
      le.antisymm (least (exists_walk_of_mem_pathLengths member))
    exact ⟨same ▸ member, fun _ other => least (exists_walk_of_mem_pathLengths other)⟩
  · rintro ⟨member, least⟩
    refine ⟨exists_walk_of_mem_pathLengths member, ?_⟩
    rintro length ⟨seed, isSeed, walk⟩
    obtain ⟨shorter, le, other⟩ := exists_mem_pathLengths_of_walk isSeed walk
    exact (least other).trans le

/-- A module is reported exactly if a search from some seed finds a path to it within the depth. -/
theorem mem_reachable_iff_exists_path :
    target ∈ (graph.reachable seeds direction maxDepth excluded).map Reach.path ↔
      ∃ length ∈ graph.pathLengths seeds target direction excluded, length ≤ maxDepth := by
  constructor
  · intro member
    obtain ⟨record, isRecord, rfl⟩ := List.mem_map.mp member
    obtain ⟨inDepth, isDistance⟩ := mem_layers_reachable_iff.mp (mem_layers_of_mem isRecord)
    exact ⟨record.distance, (isDistance_iff_isLeast_pathLengths.mp isDistance).1, inDepth⟩
  · rintro ⟨length, member, inDepth⟩
    obtain ⟨seed, isSeed, walk⟩ := exists_walk_of_mem_pathLengths member
    obtain ⟨distance, near, isDistance⟩ := exists_isDistance_of_walk isSeed walk
    have found := mem_layers_reachable_iff.mpr ⟨near.trans inDepth, isDistance⟩
    obtain ⟨record, isRecord, same⟩ := List.mem_map.mp found
    exact List.mem_map.mpr ⟨record, isRecord, congrArg Prod.fst same⟩

/-- An exploration reports a module at a distance exactly if the distance is within the depth and
the least number of steps on a path that a search from some seed finds. It does not report a module
exactly if every path that such a search finds has more steps than the depth allows. -/
theorem reachable_agrees_pathAvoiding? (graph : Graph) (seeds : List String)
    (direction : Direction) (maxDepth : Nat) (excluded : String → Bool) (target : String) :
    (∀ distance,
      (∃ record ∈ graph.reachable seeds direction maxDepth excluded,
        record.path = target ∧ record.distance = distance) ↔
        distance ≤ maxDepth ∧
          IsLeast (graph.pathLengths seeds target direction excluded) distance) ∧
    ((∀ record ∈ graph.reachable seeds direction maxDepth excluded, record.path ≠ target) ↔
      ∀ length ∈ graph.pathLengths seeds target direction excluded, maxDepth < length) := by
  constructor
  · intro distance
    rw [← isDistance_iff_isLeast_pathLengths, ← mem_layers_reachable_iff]
    simp [Reach.layer]
  · have reported : target ∈ (graph.reachable seeds direction maxDepth excluded).map Reach.path ↔
        _ := mem_reachable_iff_exists_path
    rw [List.mem_map, ← not_iff_not] at reported
    simpa using reported

end ChangeImpact.Graph
