/-
This file shows which dependency is taken for the strongest one between two modules: none of the
others is stronger, and those that are listed after it are weaker.
-/

import ChangeImpact.Proofs.Graph.Adjacency

namespace ChangeImpact

theorem Strength.eq_of_le_of_le {left right : Strength} (below : left ≤ right)
    (above : right ≤ left) : left = right := by
  revert below above
  cases left <;> cases right <;> decide

/-- None of the dependencies is stronger than this one of them. -/
def IsStrongest (edges : List Dependency) (edge : Dependency) : Prop :=
  edge ∈ edges ∧ ∀ other ∈ edges, other.strength ≤ edge.strength

/-- These dependencies lead from one module to another, in their given order. -/
def between (dependencies : List Dependency) (direction : Direction) (source target : String) :
    List Dependency :=
  dependencies.filter fun edge =>
    direction.start edge == source && direction.finish edge == target

section Strongest

variable {edges first second : List Dependency} {edge other : Dependency}

theorem IsStrongest.strength_eq (isStrongest : IsStrongest edges edge)
    (another : IsStrongest edges other) : edge.strength = other.strength :=
  Strength.eq_of_le_of_le (another.2 edge isStrongest.1) (isStrongest.2 other another.1)

/-- The order of the dependencies does not matter for this. -/
theorem isStrongest_congr (same : ∀ edge, edge ∈ first ↔ edge ∈ second) :
    IsStrongest first edge ↔ IsStrongest second edge := by
  simp only [IsStrongest, same]

end Strongest

namespace Graph

section Strongest

variable {edges first second : List Dependency} {edge : Dependency}

/-- Something is the strongest of any dependencies unless there are none. -/
theorem isSome_strongest_iff (edges : List Dependency) :
    (strongest edges).isSome ↔ edges ≠ [] := by
  cases edges with
  | nil => simp [strongest]
  | cons first rest =>
      refine iff_of_true ?_ (List.cons_ne_nil _ _)
      simp only [strongest, List.foldl_cons]
      induction rest generalizing first with
      | nil => rfl
      | cons edge rest ih =>
          simp only [List.foldl_cons]
          split_ifs
          · exact ih first
          · exact ih edge

theorem strongest_eq_none_iff : strongest edges = none ↔ edges = [] := by
  rw [← Option.not_isSome_iff_eq_none, isSome_strongest_iff, not_not]

theorem isNone_strongest (edges : List Dependency) :
    (strongest edges).isNone = edges.isEmpty := by
  rw [Bool.eq_iff_iff, Option.isNone_iff_eq_none, strongest_eq_none_iff, List.isEmpty_iff]

theorem strongest_concat (edges : List Dependency) (edge : Dependency) :
    strongest (edges ++ [edge]) =
      match strongest edges with
      | none => some edge
      | some kept => if edge.strength < kept.strength then some kept else some edge := by
  rw [strongest, List.foldl_append]
  rfl

/-- No dependency before the strongest one is stronger, and those after it are weaker. -/
theorem exists_split_of_strongest (found : strongest edges = some edge) :
    ∃ before after, edges = before ++ edge :: after ∧
      (∀ other ∈ before, other.strength ≤ edge.strength) ∧
      ∀ other ∈ after, other.strength < edge.strength := by
  induction edges using List.reverseRecOn generalizing edge with
  | nil => cases found
  | append_singleton edges last ih =>
      rw [strongest_concat] at found
      cases earlier : strongest edges with
      | none =>
          rw [earlier] at found
          obtain rfl : last = edge := Option.some.inj found
          exact ⟨[], [], by simp [strongest_eq_none_iff.mp earlier], by simp, by simp⟩
      | some kept =>
          obtain ⟨before, after, same, atMost, weaker⟩ := ih earlier
          rw [earlier] at found
          dsimp only at found
          split_ifs at found with below
          · obtain rfl : kept = edge := Option.some.inj found
            refine ⟨before, after ++ [last], by simp [same], atMost, ?_⟩
            intro other member
            rcases List.mem_append.mp member with isAfter | isLast
            · exact weaker other isAfter
            · rw [List.mem_singleton.mp isLast]
              exact below
          · obtain rfl : last = edge := Option.some.inj found
            have above : kept.strength ≤ last.strength := Nat.le_of_not_lt below
            refine ⟨edges, [], rfl, ?_, by simp⟩
            intro other member
            rw [same, List.mem_append, List.mem_cons] at member
            rcases member with isBefore | rfl | isAfter
            · exact Nat.le_trans (atMost other isBefore) above
            · exact above
            · exact Nat.le_trans (Nat.le_of_lt (weaker other isAfter)) above

theorem isStrongest_of_strongest (found : strongest edges = some edge) :
    IsStrongest edges edge := by
  obtain ⟨before, after, rfl, atMost, weaker⟩ := exists_split_of_strongest found
  constructor
  · exact List.mem_append_right _ List.mem_cons_self
  · intro other member
    rcases List.mem_append.mp member with isBefore | later
    · exact atMost other isBefore
    · rcases List.mem_cons.mp later with rfl | isAfter
      · exact Nat.le_refl _
      · exact Nat.le_of_lt (weaker other isAfter)

theorem exists_strongest (nonempty : edges ≠ []) :
    ∃ edge, strongest edges = some edge ∧ IsStrongest edges edge := by
  obtain ⟨edge, found⟩ := Option.isSome_iff_exists.mp ((isSome_strongest_iff edges).mpr nonempty)
  exact ⟨edge, found, isStrongest_of_strongest found⟩

/-- If one of the greatest strength is in the later part, then such a one is taken from there. -/
theorem exists_strongest_append (isStrongest : IsStrongest (first ++ second) edge)
    (late : edge ∈ second) : ∃ last ∈ second, strongest (first ++ second) = some last := by
  obtain ⟨last, found, _⟩ := exists_strongest (List.ne_nil_of_mem isStrongest.1)
  obtain ⟨before, after, same, _, weaker⟩ := exists_split_of_strongest found
  refine ⟨last, ?_, found⟩
  rcases List.append_eq_append_iff.mp same with ⟨middle, _, later⟩ | ⟨middle, _, later⟩
  · rw [later]
    exact List.mem_append_right _ List.mem_cons_self
  · cases middle with
    | nil =>
        rw [List.nil_append] at later
        rw [← later]
        exact List.mem_cons_self
    | cons head rest =>
        -- The later part would hold weaker ones only.
        obtain ⟨rfl, rfl⟩ := List.cons.inj later
        have below := weaker edge (List.mem_append_right _ late)
        have above := isStrongest.2 last (isStrongest_of_strongest found).1
        exact absurd below (Nat.not_lt.mpr above)

/-- Another order may give another dependency, but none of another strength. -/
theorem map_strength_strongest_congr (same : ∀ edge, edge ∈ first ↔ edge ∈ second) :
    (strongest first).map Dependency.strength = (strongest second).map Dependency.strength := by
  by_cases none : first = []
  · have gone : second = [] := by
      apply List.eq_nil_iff_forall_not_mem.mpr
      intro edge member
      rw [← same, none] at member
      exact List.not_mem_nil member
    rw [none, gone]
  · obtain ⟨edge, found, isStrongest⟩ := exists_strongest none
    have isOther := (isStrongest_congr same).mp isStrongest
    obtain ⟨other, another, isAnother⟩ := exists_strongest (List.ne_nil_of_mem isOther.1)
    rw [found, another, Option.map_some, Option.map_some, isOther.strength_eq isAnother]

end Strongest

variable {graph : Graph} {source target : String} {direction : Direction}

/-- A dependency is found between two modules exactly if the graph leads from one to the other. -/
theorem isSome_edgeBetween_iff : (graph.edgeBetween source target direction).isSome ↔
    ∃ edge ∈ graph.edgesFrom source direction, direction.finish edge = target := by
  simp [edgeBetween, isSome_strongest_iff, List.filter_eq_nil_iff]

variable {dependencies : List Dependency}

@[simp] theorem mem_between {edge : Dependency} :
    edge ∈ between dependencies direction source target ↔
      edge ∈ dependencies ∧ direction.start edge = source ∧ direction.finish edge = target := by
  simp [between]

/-- The strongest dependency between two modules is chosen among all that lead that way. -/
theorem edgeBetween_ofDependencies (dependencies : List Dependency) (source target : String)
    (direction : Direction) :
    (ofDependencies dependencies).edgeBetween source target direction =
      strongest (between dependencies direction source target) := by
  rw [edgeBetween, edgesFrom_ofDependencies, List.filter_filter, between]
  simp only [Bool.and_comm]

theorem isSome_edgeBetween_ofDependencies_iff :
    ((ofDependencies dependencies).edgeBetween source target direction).isSome ↔
      between dependencies direction source target ≠ [] := by
  rw [edgeBetween_ofDependencies, isSome_strongest_iff]

end Graph

end ChangeImpact
