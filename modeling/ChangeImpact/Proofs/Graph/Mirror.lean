/-
This file shows that what leads from one module to another leads back in the opposite direction:
the strongest dependencies, the shortest paths and their weights are the same both ways.
-/

import ChangeImpact.Proofs.Graph.PathSearch
import ChangeImpact.Proofs.Graph.PathWeight

namespace ChangeImpact

@[simp] theorem Direction.start_opposite (direction : Direction) :
    direction.opposite.start = direction.finish := by
  cases direction <;> rfl

@[simp] theorem Direction.finish_opposite (direction : Direction) :
    direction.opposite.finish = direction.start := by
  cases direction <;> rfl

/-- A shortest route is no longer than a route whose steps can be taken back. -/
theorem ShortestRoute.length_le_of_back {step reverse : String → String → Prop}
    {source target : String} {path other : List String}
    (route : ShortestRoute step source target path) (back : Route reverse target source other)
    (each : ∀ before after, reverse before after → step after before) :
    path.length ≤ other.length := by
  obtain ⟨length, size, walk⟩ := back.walk
  have bound := route.shortest length (walk.back each)
  omega

namespace Graph

/-- This relation takes a step over some dependency, whichever module it leads to. -/
def FollowsAny (dependencies : List Dependency) (direction : Direction) :
    String → String → Prop :=
  Follows dependencies direction fun _ => True

variable {dependencies : List Dependency} {direction : Direction} {source target : String}
  {path : List String}

section Path

/-- A path is found exactly if some walk leads to the target. -/
theorem isSome_path?_iff : ((ofDependencies dependencies).path? source target direction).isSome ↔
    ∃ length, Walk (FollowsAny dependencies direction) length source target := by
  simp [path?, isSome_pathAvoiding?_iff, leads_ofDependencies, FollowsAny]

theorem shortestRoute_of_path?
    (found : (ofDependencies dependencies).path? source target direction = some path) :
    ShortestRoute (FollowsAny dependencies direction) source target path := by
  have route := shortestRoute_of_pathAvoiding? found
  simpa [leads_ofDependencies, FollowsAny] using route

/-- Each step can be taken back in the opposite direction. -/
theorem followsAny_opposite_iff : FollowsAny dependencies direction.opposite target source ↔
    FollowsAny dependencies direction source target := by
  simp [FollowsAny, Follows, and_comm]

theorem walk_opposite_iff {length : Nat} :
    Walk (FollowsAny dependencies direction.opposite) length target source ↔
      Walk (FollowsAny dependencies direction) length source target := by
  constructor
  · intro walk
    exact walk.back fun _ _ => followsAny_opposite_iff.mp
  · intro walk
    exact walk.back fun _ _ => followsAny_opposite_iff.mpr

/-- Both ways a path is found or none is, and the paths take the same number of steps. -/
theorem length_path?_opposite (dependencies : List Dependency) (source target : String)
    (direction : Direction) :
    ((ofDependencies dependencies).path? target source direction.opposite).map List.length =
      ((ofDependencies dependencies).path? source target direction).map List.length := by
  have either : ((ofDependencies dependencies).path? target source direction.opposite).isSome ↔
      ((ofDependencies dependencies).path? source target direction).isSome := by
    simp only [isSome_path?_iff, walk_opposite_iff]
  cases found : (ofDependencies dependencies).path? source target direction with
  | none =>
      rw [found, ← not_iff_not, Option.not_isSome_iff_eq_none] at either
      rw [either.mpr Bool.false_ne_true]
  | some path =>
      rw [found] at either
      obtain ⟨other, another⟩ := Option.isSome_iff_exists.mp (either.mpr rfl)
      have forth := shortestRoute_of_path? found
      have back := shortestRoute_of_path? another
      have above := forth.length_le_of_back back.toRoute fun _ _ => followsAny_opposite_iff.mp
      have below := back.length_le_of_back forth.toRoute fun _ _ => followsAny_opposite_iff.mpr
      rw [another, Option.map_some, Option.map_some, below.antisymm above]

end Path

section Weight

/-- The same dependencies lead back in the opposite direction, in the same order. -/
theorem between_opposite (dependencies : List Dependency) (direction : Direction)
    (source target : String) :
    between dependencies direction.opposite target source =
      between dependencies direction source target := by
  simp only [between, Direction.start_opposite, Direction.finish_opposite, Bool.and_comm]

theorem edgeBetween_opposite (dependencies : List Dependency) (source target : String)
    (direction : Direction) :
    (ofDependencies dependencies).edgeBetween target source direction.opposite =
      (ofDependencies dependencies).edgeBetween source target direction := by
  rw [edgeBetween_ofDependencies, edgeBetween_ofDependencies, between_opposite]

theorem exists_pathWeight_reverse_iff {α : Type} [Scalar α] :
    (∃ weight : α,
      (ofDependencies dependencies).pathWeight path.reverse direction.opposite = .ok weight) ↔
      ∃ weight : α, (ofDependencies dependencies).pathWeight path direction = .ok weight := by
  rw [exists_pathWeight_iff, exists_pathWeight_iff, steps_reverse]
  simp only [List.mem_reverse, List.forall_mem_map, Prod.fst_swap, Prod.snd_swap,
    edgeBetween_opposite]

theorem pathWeight_reverse_iff {weight : Rat} :
    (ofDependencies dependencies).pathWeight path.reverse direction.opposite = .ok weight ↔
      (ofDependencies dependencies).pathWeight path direction = .ok weight := by
  have each (step : String × String) :
      (ofDependencies dependencies).stepWeight direction.opposite step.swap =
        ((ofDependencies dependencies).stepWeight direction step : Rat) := by
    simp only [stepWeight, Prod.fst_swap, Prod.snd_swap, edgeBetween_opposite]
  rw [pathWeight_eq_ok_iff, pathWeight_eq_ok_iff, steps_reverse, List.map_reverse,
    List.sum_reverse, List.map_map]
  simp only [List.mem_reverse, List.forall_mem_map, Prod.fst_swap, Prod.snd_swap,
    edgeBetween_opposite, Function.comp_def, each]

/-- From one module to another and back in the opposite direction the strongest dependency is the
same, and a path is found both ways or neither, with the same number of steps. A path can be weighed
exactly if it can be the other way round, and exact weights are the same. -/
theorem opposite_direction_mirrors (α : Type) [Scalar α] (dependencies : List Dependency)
    (direction : Direction) (source target : String) :
    (ofDependencies dependencies).edgeBetween target source direction.opposite =
        (ofDependencies dependencies).edgeBetween source target direction ∧
      ((ofDependencies dependencies).path? target source direction.opposite).map List.length =
        ((ofDependencies dependencies).path? source target direction).map List.length ∧
      ∀ path : List String,
        ((∃ weight : α,
          (ofDependencies dependencies).pathWeight path.reverse direction.opposite = .ok weight) ↔
          ∃ weight : α, (ofDependencies dependencies).pathWeight path direction = .ok weight) ∧
        ∀ weight : Rat,
          (ofDependencies dependencies).pathWeight path.reverse direction.opposite = .ok weight ↔
            (ofDependencies dependencies).pathWeight path direction = .ok weight := by
  refine ⟨edgeBetween_opposite dependencies source target direction,
    length_path?_opposite dependencies source target direction, ?_⟩
  intro path
  constructor
  · exact exists_pathWeight_reverse_iff
  · intro weight
    exact pathWeight_reverse_iff

end Weight

end Graph

end ChangeImpact
