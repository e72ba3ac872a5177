/-
This file shows which paths can be weighed, and how heavy they are.
-/

import ChangeImpact.Graph.Path
import ChangeImpact.Proofs.Graph.Strongest
import ChangeImpact.Proofs.Graph.Walk
import ChangeImpact.Proofs.Scalar

namespace ChangeImpact.Graph

section Steps

variable {path : List String}

@[simp] theorem steps_cons_cons (first second : String) (rest : List String) :
    steps (first :: second :: rest) = (first, second) :: steps (second :: rest) := rfl

theorem length_steps (path : List String) : (steps path).length = path.length - 1 := by
  rw [steps, List.length_zip, List.length_tail]
  omega

/-- A relation joins the modules of a path in turn exactly if it holds along all of its steps. -/
theorem forall_steps_iff {joins : String → String → Prop} :
    (∀ step ∈ steps path, joins step.1 step.2) ↔ path.IsChain joins := by
  induction path with
  | nil => simp [steps]
  | cons first rest ih =>
      cases rest with
      | nil => simp [steps]
      | cons second rest =>
          rw [List.isChain_cons_cons, ← ih]
          simp

/-- Both ends of a step are on the path. -/
theorem mem_of_mem_steps {step : String × String} (member : step ∈ steps path) :
    step.1 ∈ path ∧ step.2 ∈ path :=
  (List.of_mem_zip member).imp_right List.mem_of_mem_tail

/-- A path that is joined to another one where it ends takes the steps of both. -/
theorem steps_append_cons (first : List String) (shared : String) (rest : List String) :
    steps (first ++ shared :: rest) = steps (first ++ [shared]) ++ steps (shared :: rest) := by
  induction first with
  | nil => rfl
  | cons head tail ih =>
      cases tail with
      | nil => rfl
      | cons next later =>
          simp only [List.cons_append, steps_cons_cons] at ih ⊢
          rw [ih]

/-- The other way round a path takes its steps back, the last one first. -/
theorem steps_reverse (path : List String) :
    steps path.reverse = ((steps path).map Prod.swap).reverse := by
  induction path with
  | nil => rfl
  | cons first rest ih =>
      cases rest with
      | nil => rfl
      | cons second rest =>
          calc steps (first :: second :: rest).reverse
              = steps (rest.reverse ++ second :: [first]) := by simp
            _ = steps (second :: rest).reverse ++ [(second, first)] := by
                rw [steps_append_cons, List.reverse_cons]
                rfl
            _ = ((steps (first :: second :: rest)).map Prod.swap).reverse := by
                rw [ih, steps_cons_cons, List.map_cons, List.reverse_cons]
                rfl

end Steps

variable {graph another : Graph} {source target : String} {direction : Direction}
  {path : List String}

/-- Every choice among the steps of a path depends on nothing but the strongest dependencies along
it. -/
theorem stepsWhere_congr (same : ∀ step ∈ steps path,
    another.edgeBetween step.1 step.2 direction = graph.edgeBetween step.1 step.2 direction)
    (keep : Dependency → Bool) :
    another.stepsWhere keep path direction = graph.stepsWhere keep path direction :=
  List.filter_congr fun step member => congrArg (Option.any keep) (same step member)

section Weight

variable {α : Type} [Scalar α]

/-- The weight of a path depends on nothing but the strengths of these dependencies. -/
theorem pathWeight_congr (same : ∀ step ∈ steps path,
    (another.edgeBetween step.1 step.2 direction).map Dependency.strength =
      (graph.edgeBetween step.1 step.2 direction).map Dependency.strength) :
    another.pathWeight path direction = (graph.pathWeight path direction : Except _ α) := by
  rw [pathWeight, pathWeight]
  generalize (0.0 : α) = total
  generalize steps path = passed at same ⊢
  induction passed generalizing total with
  | nil => rfl
  | cons step rest ih =>
      have here := same step List.mem_cons_self
      have later (total : α) :=
        ih total fun next member => same next (List.mem_cons_of_mem _ member)
      cases found : graph.edgeBetween step.1 step.2 direction with
      | none =>
          rw [found, Option.map_none, Option.map_eq_none_iff] at here
          simp only [List.foldlM_cons, found, here, later]
      | some edge =>
          rw [found, Option.map_some, Option.map_eq_some_iff] at here
          obtain ⟨other, isOther, equal⟩ := here
          simp only [List.foldlM_cons, found, isOther, equal, later]

/-- What a step adds to the weight of a path, which is nothing without a dependency along it. -/
def stepWeight (graph : Graph) (direction : Direction) (step : String × String) : α :=
  match graph.edgeBetween step.1 step.2 direction with
  | some edge => edge.strength.weight
  | none => 0.0

/-- If each step of a path is taken over some dependency, the weights of the steps are summed up. -/
theorem pathWeight_eq_sum
    (joined : ∀ step ∈ steps path, (graph.edgeBetween step.1 step.2 direction).isSome) :
    graph.pathWeight path direction =
      .ok (Scalar.sum ((steps path).map (graph.stepWeight direction)) : α) := by
  rw [pathWeight, Scalar.sum, List.foldl_map]
  generalize (0.0 : α) = total
  generalize steps path = passed at joined ⊢
  induction passed generalizing total with
  | nil => rfl
  | cons step rest ih =>
      obtain ⟨edge, found⟩ := Option.isSome_iff_exists.mp (joined step List.mem_cons_self)
      have later (total : α) :=
        ih total fun next member => joined next (List.mem_cons_of_mem _ member)
      rw [List.foldlM_cons, List.foldl_cons, ← later]
      simp only [stepWeight, found]
      rfl

/-- Otherwise the first step without a dependency is told. -/
theorem pathWeight_eq_error_iff {missing : MissingEdge} :
    graph.pathWeight path direction = (.error missing : Except _ α) ↔
      (steps path).find? (fun step => (graph.edgeBetween step.1 step.2 direction).isNone) =
        some (missing.source, missing.target) := by
  rw [pathWeight]
  generalize (0.0 : α) = total
  induction steps path generalizing total with
  | nil => simp [pure, Except.pure]
  | cons step rest ih =>
      rw [List.foldlM_cons, List.find?_cons]
      cases found : graph.edgeBetween step.1 step.2 direction with
      | none =>
          obtain ⟨source, target⟩ := missing
          simp [found, bind, Except.bind, Prod.ext_iff]
      | some edge =>
          simpa [found, bind, Except.bind] using ih (total + edge.strength.weight)

/-- A path can be weighed exactly if each of its steps is taken over some dependency. -/
theorem exists_pathWeight_iff :
    (∃ weight : α, graph.pathWeight path direction = .ok weight) ↔
      ∀ step ∈ steps path, (graph.edgeBetween step.1 step.2 direction).isSome := by
  constructor
  · rintro ⟨weight, weighed⟩
    by_contra apart
    -- The first step that lacks a dependency would have been told.
    cases missing : (steps path).find? fun step =>
        (graph.edgeBetween step.1 step.2 direction).isNone with
    | none =>
        apply apart
        intro step member
        have isJoined := List.find?_eq_none.mp missing step member
        simpa [Option.isSome_iff_ne_none] using isJoined
    | some step =>
        have failed : graph.pathWeight path direction =
            (.error ⟨step.1, step.2⟩ : Except _ α) := pathWeight_eq_error_iff.mpr missing
        rw [weighed] at failed
        cases failed
  · intro joined
    exact ⟨_, pathWeight_eq_sum joined⟩

/-- A route of a graph can be weighed. -/
theorem exists_pathWeight {enters : String → Prop}
    (route : Route (graph.Leads direction enters) source target path) :
    ∃ weight : α, graph.pathWeight path direction = .ok weight := by
  apply exists_pathWeight_iff.mpr
  exact forall_steps_iff.mpr
    (route.chained.imp fun _ _ leads => isSome_edgeBetween_iff.mpr leads.2)

end Weight

/-- Exact weights are sums without rounding. -/
theorem pathWeight_eq_ok_iff {weight : Rat} :
    graph.pathWeight path direction = .ok weight ↔
      (∀ step ∈ steps path, (graph.edgeBetween step.1 step.2 direction).isSome) ∧
        ((steps path).map (graph.stepWeight direction)).sum = weight := by
  rw [← Scalar.sum_eq_sum]
  constructor
  · intro weighed
    have joined := exists_pathWeight_iff.mp ⟨weight, weighed⟩
    rw [pathWeight_eq_sum joined] at weighed
    exact ⟨joined, Except.ok.inj weighed⟩
  · rintro ⟨joined, rfl⟩
    exact pathWeight_eq_sum joined

/-- Each dependency weighs at least as much as an optional one and at most as much as a strong
one. -/
theorem weight_mem_Icc (strength : Strength) : (strength.weight : Rat) ∈ Set.Icc (3 / 10) 3 := by
  rw [Set.mem_Icc]
  cases strength <;> norm_num [Strength.weight]

/-- A stronger dependency weighs more. -/
theorem weight_mono {left right : Strength} (below : left ≤ right) :
    (left.weight : Rat) ≤ right.weight := by
  revert below
  cases left <;> cases right <;> decide +kernel

theorem stepWeight_mem_Icc {step : String × String}
    (joined : (graph.edgeBetween step.1 step.2 direction).isSome) :
    (graph.stepWeight direction step : Rat) ∈ Set.Icc (3 / 10) 3 := by
  obtain ⟨edge, found⟩ := Option.isSome_iff_exists.mp joined
  simp only [stepWeight, found]
  exact weight_mem_Icc edge.strength

/-- So does each step of a path. -/
theorem pathWeight_mem_Icc {weight : Rat} (weighed : graph.pathWeight path direction = .ok weight) :
    weight ∈ Set.Icc (3 / 10 * (path.length - 1 : Nat) : Rat) (3 * (path.length - 1 : Nat)) := by
  obtain ⟨joined, rfl⟩ := pathWeight_eq_ok_iff.mp weighed
  have bounds : ∀ added ∈ (steps path).map (graph.stepWeight direction),
      added ∈ Set.Icc (3 / 10 : Rat) 3 := by
    intro added member
    obtain ⟨step, isStep, rfl⟩ := List.mem_map.mp member
    exact stepWeight_mem_Icc (joined step isStep)
  have above := List.card_nsmul_le_sum _ _ fun added member => (bounds added member).1
  have below := List.sum_le_card_nsmul _ _ fun added member => (bounds added member).2
  rw [List.length_map, length_steps, nsmul_eq_mul, mul_comm] at above below
  exact ⟨above, below⟩

section Dependencies

variable {dependencies : List Dependency}

theorem stepWeight_ofDependencies {α : Type} [Scalar α] (dependencies : List Dependency)
    (direction : Direction) :
    (ofDependencies dependencies).stepWeight direction = fun step =>
      match strongest (between dependencies direction step.1 step.2) with
      | some edge => (edge.strength.weight : α)
      | none => 0.0 := by
  funext step
  rw [stepWeight, edgeBetween_ofDependencies]

/-- Of several dependencies along a step the one that weighs most counts. -/
theorem isGreatest_stepWeight {step : String × String}
    (joined : between dependencies direction step.1 step.2 ≠ []) :
    IsGreatest {weight : Rat | ∃ edge ∈ between dependencies direction step.1 step.2,
      edge.strength.weight = weight} ((ofDependencies dependencies).stepWeight direction step) := by
  obtain ⟨edge, found, isStrongest⟩ := exists_strongest joined
  simp only [stepWeight_ofDependencies, found]
  constructor
  · exact ⟨edge, isStrongest.1, rfl⟩
  · rintro weight ⟨other, member, rfl⟩
    exact weight_mono (isStrongest.2 other member)

/-- A path can be weighed exactly if dependencies lead along each of its steps; otherwise the first
step without one is told. An exact weight is the sum of what the heaviest dependencies along the
steps weigh, and where a path ends another one can be joined to it, whose weight is added. -/
theorem pathWeight_sums_greatest (α : Type) [Scalar α] (dependencies : List Dependency)
    (path : List String) (direction : Direction) :
    ((∃ weight : α, (ofDependencies dependencies).pathWeight path direction = .ok weight) ↔
      ∀ step ∈ steps path, between dependencies direction step.1 step.2 ≠ []) ∧
    (∀ missing,
      (ofDependencies dependencies).pathWeight path direction = (.error missing : Except _ α) ↔
        (steps path).find? (fun step =>
          (between dependencies direction step.1 step.2).isEmpty) =
            some (missing.source, missing.target)) ∧
    (∀ weight : Rat, (ofDependencies dependencies).pathWeight path direction = .ok weight →
      ∃ added, List.Forall₂ (fun step greatest =>
        IsGreatest {weight : Rat | ∃ edge ∈ between dependencies direction step.1 step.2,
          edge.strength.weight = weight} greatest) (steps path) added ∧ added.sum = weight) ∧
    ∀ (first rest : List String) (shared : String) (before after : Rat),
      (ofDependencies dependencies).pathWeight (first ++ [shared]) direction = .ok before →
      (ofDependencies dependencies).pathWeight (shared :: rest) direction = .ok after →
      (ofDependencies dependencies).pathWeight (first ++ shared :: rest) direction =
        .ok (before + after) := by
  refine ⟨?_, ?_, ?_, ?_⟩
  · rw [exists_pathWeight_iff]
    simp only [isSome_edgeBetween_ofDependencies_iff]
  · intro missing
    rw [pathWeight_eq_error_iff]
    simp only [edgeBetween_ofDependencies, isNone_strongest]
  · intro weight weighed
    obtain ⟨joined, total⟩ := pathWeight_eq_ok_iff.mp weighed
    refine ⟨_, ?_, total⟩
    rw [List.forall₂_map_right_iff, List.forall₂_same]
    intro step member
    exact isGreatest_stepWeight (isSome_edgeBetween_ofDependencies_iff.mp (joined step member))
  · intro first rest shared before after left right
    obtain ⟨joined, rfl⟩ := pathWeight_eq_ok_iff.mp left
    obtain ⟨alsoJoined, rfl⟩ := pathWeight_eq_ok_iff.mp right
    rw [pathWeight_eq_ok_iff, steps_append_cons, List.forall_mem_append, List.map_append,
      List.sum_append]
    exact ⟨⟨joined, alsoJoined⟩, rfl⟩

/-- In this chain two dependencies lead along the first step, and the second step is a weak
inheritance. -/
def mixedChain : List Dependency :=
  [⟨"a", "b", .calls, "", .weak, false⟩, ⟨"a", "b", .imports, "", .strong, false⟩,
    ⟨"b", "c", .inherits, "", .weak, false⟩, ⟨"c", "d", .calls, "", .optional, false⟩]

/-- The weights of its two parts add up to that of the chain. -/
theorem pathWeight_sums_greatest_chain :
    (ofDependencies mixedChain).pathWeight ["a", "b"] .dependencies = .ok (3 : Rat) ∧
      (ofDependencies mixedChain).pathWeight ["b", "c", "d"] .dependencies = .ok (1.3 : Rat) ∧
      (ofDependencies mixedChain).pathWeight ["a", "b", "c", "d"] .dependencies =
        .ok (3 + 1.3 : Rat) := by
  have left : (ofDependencies mixedChain).pathWeight ["a", "b"] .dependencies = .ok (3 : Rat) := by
    rw [pathWeight_eq_ok_iff]
    simp only [stepWeight_ofDependencies, isSome_edgeBetween_ofDependencies_iff]
    decide +kernel
  have right : (ofDependencies mixedChain).pathWeight ["b", "c", "d"] .dependencies =
      .ok (1.3 : Rat) := by
    rw [pathWeight_eq_ok_iff]
    simp only [stepWeight_ofDependencies, isSome_edgeBetween_ofDependencies_iff]
    decide +kernel
  obtain ⟨_, _, _, joined⟩ := pathWeight_sums_greatest Rat mixedChain [] .dependencies
  exact ⟨left, right, joined ["a"] ["c", "d"] "b" 3 1.3 left right⟩

end Dependencies

end ChangeImpact.Graph
