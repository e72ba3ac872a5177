/-
This file shows which steps of a path are critical, where the path can be cut, and how far that
depends on the order of the dependencies.
-/

import ChangeImpact.Proofs.Graph.PathWeight

namespace ChangeImpact.Graph

/-- Whether the strongest dependency along a step is one to be kept. -/
def keeps (graph : Graph) (direction : Direction) (keep : Dependency → Bool)
    (step : String × String) : Bool :=
  (graph.edgeBetween step.1 step.2 direction).any keep

/-- The same dependencies, but those to be kept are listed last. -/
def favouring (keep : Dependency → Bool) (dependencies : List Dependency) : List Dependency :=
  dependencies.filter (! keep ·) ++ dependencies.filter keep

/-- Of the strongest dependencies along a step either all are to be kept or none is. -/
def Agree (dependencies : List Dependency) (direction : Direction) (keep : Dependency → Bool)
    (step : String × String) : Prop :=
  ∀ edge other, IsStrongest (between dependencies direction step.1 step.2) edge →
    IsStrongest (between dependencies direction step.1 step.2) other → keep edge = keep other

variable {dependencies reordered : List Dependency} {direction : Direction}
  {keep : Dependency → Bool} {step : String × String} {path : List String} {edge : Dependency}

theorem stepsWhere_eq_filter (graph : Graph) (keep : Dependency → Bool) (path : List String)
    (direction : Direction) :
    graph.stepsWhere keep path direction = (steps path).filter (graph.keeps direction keep) := rfl

theorem keeps_ofDependencies (dependencies : List Dependency) (direction : Direction)
    (keep : Dependency → Bool) :
    (ofDependencies dependencies).keeps direction keep =
      fun step => (strongest (between dependencies direction step.1 step.2)).any keep := by
  funext step
  rw [keeps, edgeBetween_ofDependencies]

section Order

theorem mem_between_of_perm (reorders : reordered.Perm dependencies) (edge : Dependency) :
    edge ∈ between reordered direction step.1 step.2 ↔
      edge ∈ between dependencies direction step.1 step.2 := by
  rw [mem_between, mem_between, reorders.mem_iff]

theorem favouring_perm (keep : Dependency → Bool) (dependencies : List Dependency) :
    (favouring keep dependencies).Perm dependencies := by
  simpa [favouring] using List.filter_append_perm (fun edge => ! keep edge) dependencies

/-- A step is kept because of one of the strongest dependencies along it. -/
theorem exists_of_keeps (reorders : reordered.Perm dependencies)
    (kept : (ofDependencies reordered).keeps direction keep step = true) :
    ∃ edge, IsStrongest (between dependencies direction step.1 step.2) edge ∧
      keep edge = true := by
  rw [keeps_ofDependencies, Option.any_eq_true] at kept
  obtain ⟨edge, found, isKept⟩ := kept
  have isStrongest := isStrongest_of_strongest found
  exact ⟨edge, (isStrongest_congr (mem_between_of_perm reorders)).mp isStrongest, isKept⟩

/-- The favoured ones among the strongest dependencies decide. -/
theorem keeps_favouring
    (isStrongest : IsStrongest (between dependencies direction step.1 step.2) edge)
    (isKept : keep edge = true) :
    (ofDependencies (favouring keep dependencies)).keeps direction keep step = true := by
  have split : between (favouring keep dependencies) direction step.1 step.2 =
      between (dependencies.filter (! keep ·)) direction step.1 step.2 ++
        between (dependencies.filter keep) direction step.1 step.2 := List.filter_append _ _
  have among : IsStrongest (between (favouring keep dependencies) direction step.1 step.2) edge :=
    (isStrongest_congr (mem_between_of_perm (favouring_perm keep dependencies))).mpr isStrongest
  have isFavoured : edge ∈ between (dependencies.filter keep) direction step.1 step.2 := by
    have member := mem_between.mp isStrongest.1
    exact mem_between.mpr ⟨List.mem_filter.mpr ⟨member.1, isKept⟩, member.2⟩
  rw [split] at among
  obtain ⟨last, isLast, found⟩ := exists_strongest_append among isFavoured
  simp only [keeps_ofDependencies, split, found]
  exact (List.mem_filter.mp (mem_between.mp isLast).1).2

/-- Where the strongest dependencies agree, their order does not matter. -/
theorem keeps_of_perm (reorders : reordered.Perm dependencies)
    (agree : Agree dependencies direction keep step) :
    (ofDependencies reordered).keeps direction keep step =
      (ofDependencies dependencies).keeps direction keep step := by
  have members : ∀ edge, edge ∈ between reordered direction step.1 step.2 ↔
      edge ∈ between dependencies direction step.1 step.2 := mem_between_of_perm reorders
  simp only [keeps_ofDependencies]
  have strengths := map_strength_strongest_congr members
  cases found : strongest (between dependencies direction step.1 step.2) with
  | none =>
      rw [found, Option.map_none, Option.map_eq_none_iff] at strengths
      rw [strengths]
  | some edge =>
      rw [found, Option.map_some, Option.map_eq_some_iff] at strengths
      obtain ⟨other, another, _⟩ := strengths
      rw [another]
      exact agree other edge ((isStrongest_congr members).mp (isStrongest_of_strongest another))
        (isStrongest_of_strongest found)

/-- If the strongest dependencies do not agree, then one order keeps fewer steps than another. -/
theorem length_stepsWhere_favouring_lt (member : step ∈ steps path) {other : Dependency}
    (isStrongest : IsStrongest (between dependencies direction step.1 step.2) edge)
    (isOther : IsStrongest (between dependencies direction step.1 step.2) other)
    (isKept : keep edge = true) (isDropped : keep other = false) :
    ((ofDependencies (favouring (! keep ·) dependencies)).stepsWhere keep path direction).length <
      ((ofDependencies (favouring keep dependencies)).stepsWhere keep path direction).length := by
  let fewer := (ofDependencies (favouring (! keep ·) dependencies)).keeps direction keep
  let more := (ofDependencies (favouring keep dependencies)).keeps direction keep
  have sublist : ((steps path).filter fewer).Sublist ((steps path).filter more) := by
    apply List.monotone_filter_right
    intro step kept
    obtain ⟨edge, isStrongest, isKept⟩ := exists_of_keeps (favouring_perm _ _) kept
    exact keeps_favouring isStrongest isKept
  apply lt_of_le_of_ne sublist.length_le
  intro same
  have lasting : step ∈ (steps path).filter more :=
    List.mem_filter.mpr ⟨member, keeps_favouring isStrongest isKept⟩
  rw [← sublist.eq_of_length same] at lasting
  have kept : fewer step = true := (List.mem_filter.mp lasting).2
  have dropped : (ofDependencies (favouring (! keep ·) dependencies)).keeps direction (! keep ·)
      step = true := keeps_favouring isOther (by simp [isDropped])
  rw [keeps, Option.any_eq_true] at dropped
  obtain ⟨last, found, isLast⟩ := dropped
  simp [fewer, keeps, found] at kept
  simp [kept] at isLast

/-- Which steps are told is independent of the order of the dependencies exactly if the strongest
ones along each step agree. -/
theorem arrows_reordered_iff :
    (∀ reordered, reordered.Perm dependencies →
      ((ofDependencies reordered).stepsWhere keep path direction).map arrow =
        ((ofDependencies dependencies).stepsWhere keep path direction).map arrow) ↔
      ∀ step ∈ steps path, Agree dependencies direction keep step := by
  constructor
  · intro same step member edge other isStrongest isOther
    have counts : ∀ reordered, reordered.Perm dependencies →
        ((ofDependencies reordered).stepsWhere keep path direction).length =
          ((ofDependencies dependencies).stepsWhere keep path direction).length := by
      intro reordered reorders
      simpa using congrArg List.length (same reordered reorders)
    have fewer := counts _ (favouring_perm (! keep ·) dependencies)
    have more := counts _ (favouring_perm keep dependencies)
    cases isKept : keep edge <;> cases isAlso : keep other
    · rfl
    · have apart := length_stepsWhere_favouring_lt member isOther isStrongest isAlso isKept
      omega
    · have apart := length_stepsWhere_favouring_lt member isStrongest isOther isKept isAlso
      omega
    · rfl
  · intro agree reordered reorders
    rw [stepsWhere_eq_filter, stepsWhere_eq_filter]
    apply congrArg (List.map arrow)
    apply List.filter_congr
    intro step member
    exact keeps_of_perm reorders (agree step member)

/-- Only weaker dependencies than strong ones can disagree on whether a step is critical, for strong
ones always are. -/
theorem agree_isCritical_iff : Agree dependencies direction isCritical step ↔
    ∀ edge other, IsStrongest (between dependencies direction step.1 step.2) edge →
      IsStrongest (between dependencies direction step.1 step.2) other →
      edge.strength = .strong ∨ (edge.kind = .inherits ↔ other.kind = .inherits) := by
  apply forall₂_congr
  intro edge other
  apply forall₂_congr
  intro isStrongest isOther
  rw [isCritical, isCritical, isOther.strength_eq isStrongest, Bool.eq_iff_iff]
  by_cases strong : edge.strength = .strong
  · simp [strong]
  · simp [strong]

/-- Whether a path can be cut at a step depends on the strength alone. -/
theorem agree_isBreakable (dependencies : List Dependency) (direction : Direction)
    (step : String × String) : Agree dependencies direction isBreakable step := by
  intro edge other isStrongest isOther
  rw [isBreakable, isBreakable, isStrongest.strength_eq isOther]

/-- The order of the dependencies matters neither for the weight of a path nor for where it can be
cut. It does not matter for the critical steps exactly if along each step the strongest dependencies
are strong, or all of them are inheritances, or none is. -/
theorem criticalEdges_reordered_iff (α : Type) [Scalar α] (dependencies : List Dependency)
    (path : List String) (direction : Direction) :
    (∀ reordered, reordered.Perm dependencies →
      (ofDependencies reordered).pathWeight path direction =
          ((ofDependencies dependencies).pathWeight path direction : Except _ α) ∧
        (ofDependencies reordered).breakingPoints path direction =
          (ofDependencies dependencies).breakingPoints path direction) ∧
    ((∀ reordered, reordered.Perm dependencies →
        (ofDependencies reordered).criticalEdges path direction =
          (ofDependencies dependencies).criticalEdges path direction) ↔
      ∀ step ∈ steps path, ∀ edge other,
        IsStrongest (between dependencies direction step.1 step.2) edge →
        IsStrongest (between dependencies direction step.1 step.2) other →
        edge.strength = .strong ∨ (edge.kind = .inherits ↔ other.kind = .inherits)) := by
  constructor
  · intro reordered reorders
    constructor
    · apply pathWeight_congr
      intro step _
      rw [edgeBetween_ofDependencies, edgeBetween_ofDependencies]
      exact map_strength_strongest_congr (mem_between_of_perm reorders)
    · apply arrows_reordered_iff.mpr ?_ reordered reorders
      intro step _
      exact agree_isBreakable dependencies direction step
  · simp only [← agree_isCritical_iff]
    exact arrows_reordered_iff

/-- These two dependencies are equally strong, but only the first one is an inheritance. -/
def equallyStrong : List Dependency :=
  [⟨"a", "b", .inherits, "", .weak, false⟩, ⟨"a", "b", .imports, "", .weak, false⟩]

/-- Whether the step from `a` to `b` is critical depends on which of them is listed last. -/
theorem criticalEdges_reverse_equallyStrong :
    equallyStrong.reverse.Perm equallyStrong ∧
      (ofDependencies equallyStrong).criticalEdges ["a", "b"] .dependencies = [] ∧
      (ofDependencies equallyStrong.reverse).criticalEdges ["a", "b"] .dependencies =
        ["a -> b"] := by
  refine ⟨equallyStrong.reverse_perm, ?_, ?_⟩
  · rw [criticalEdges, stepsWhere_eq_filter, keeps_ofDependencies]
    decide
  · rw [criticalEdges, stepsWhere_eq_filter, keeps_ofDependencies]
    decide

end Order

section Cover

variable {β : Type} {items : List β} {first second : β → Bool}

/-- Two selections that leave no item out hold together each item once, and those of both twice. -/
theorem length_filter_add_length_filter (cover : ∀ item ∈ items, first item ∨ second item) :
    (items.filter first).length + (items.filter second).length =
      items.length + (items.filter fun item => first item && second item).length := by
  induction items with
  | nil => rfl
  | cons item rest ih =>
      have later := ih fun next member => cover next (List.mem_cons_of_mem _ member)
      have here := cover item List.mem_cons_self
      simp only [List.filter_cons, List.length_cons]
      cases isFirst : first item <;> cases isSecond : second item
      · simp [isFirst, isSecond] at here
      all_goals
        simp
        omega

/-- A sum of values up to a limit reaches its bound exactly if each of them reaches the limit. -/
theorem sum_eq_mul_length_iff {values : List Rat} {limit : Rat}
    (atMost : ∀ value ∈ values, value ≤ limit) :
    values.sum = limit * values.length ↔ ∀ value ∈ values, value = limit := by
  induction values with
  | nil => simp
  | cons value rest ih =>
      rw [List.forall_mem_cons] at atMost ⊢
      have bound := List.sum_le_card_nsmul rest limit atMost.2
      rw [nsmul_eq_mul, mul_comm] at bound
      rw [← ih atMost.2, List.sum_cons, List.length_cons, Nat.cast_add_one, mul_add, mul_one,
        add_comm (limit * _), add_eq_add_iff_eq_and_eq atMost.1 bound]

/-- A step weighs most exactly if it cannot be cut. -/
theorem stepWeight_eq_iff {graph : Graph}
    (found : graph.edgeBetween step.1 step.2 direction = some edge) :
    graph.stepWeight direction step = (3 : Rat) ↔ isBreakable edge = false := by
  simp only [stepWeight, found, isBreakable]
  cases edge.strength <;> decide +kernel

/-- A path can be cut nowhere exactly if it is as heavy as its length allows. -/
theorem breakingPoints_eq_nil_iff {graph : Graph}
    (joined : ∀ step ∈ steps path, (graph.edgeBetween step.1 step.2 direction).isSome) :
    graph.breakingPoints path direction = [] ↔
      graph.pathWeight path direction = .ok (3 * (path.length - 1 : Nat) : Rat) := by
  have atMost : ∀ added ∈ (steps path).map (graph.stepWeight direction), added ≤ (3 : Rat) := by
    intro added member
    obtain ⟨step, isStep, rfl⟩ := List.mem_map.mp member
    exact (stepWeight_mem_Icc (joined step isStep)).2
  have full := sum_eq_mul_length_iff atMost
  rw [List.length_map, length_steps, List.forall_mem_map] at full
  rw [pathWeight_eq_ok_iff, full, and_iff_right joined, breakingPoints, List.map_eq_nil_iff,
    stepsWhere_eq_filter, List.filter_eq_nil_iff]
  apply forall₂_congr
  intro step member
  obtain ⟨edge, found⟩ := Option.isSome_iff_exists.mp (joined step member)
  rw [stepWeight_eq_iff found, keeps, found, Option.any_some, Bool.not_eq_true]

/-- Along a path that can be weighed each step is critical, or the path can be cut there, or both;
both for inheritances that are not strong. The path can be cut nowhere exactly if it is as heavy as
its length allows. -/
theorem criticalEdges_breakingPoints_cover
    (joined : ∀ step ∈ steps path, between dependencies direction step.1 step.2 ≠ []) :
    ∃ critical breakable : String × String → Bool,
      (ofDependencies dependencies).criticalEdges path direction =
        ((steps path).filter critical).map arrow ∧
      (ofDependencies dependencies).breakingPoints path direction =
        ((steps path).filter breakable).map arrow ∧
      (∀ step ∈ steps path, ∃ edge,
        (ofDependencies dependencies).edgeBetween step.1 step.2 direction = some edge ∧
        IsStrongest (between dependencies direction step.1 step.2) edge ∧
        (critical step = true ↔ edge.strength = .strong ∨ edge.kind = .inherits) ∧
        (breakable step = true ↔ edge.strength ≠ .strong) ∧
        (critical step = true ∨ breakable step = true) ∧
        (critical step = true ∧ breakable step = true ↔
          edge.strength ≠ .strong ∧ edge.kind = .inherits)) ∧
      ((ofDependencies dependencies).criticalEdges path direction).length +
          ((ofDependencies dependencies).breakingPoints path direction).length =
        (path.length - 1) +
          ((steps path).filter fun step => critical step && breakable step).length ∧
      ((ofDependencies dependencies).breakingPoints path direction = [] ↔
        (ofDependencies dependencies).pathWeight path direction =
          .ok (3 * (path.length - 1 : Nat) : Rat)) := by
  let critical := (ofDependencies dependencies).keeps direction isCritical
  let breakable := (ofDependencies dependencies).keeps direction isBreakable
  have each : ∀ step ∈ steps path, ∃ edge,
      (ofDependencies dependencies).edgeBetween step.1 step.2 direction = some edge ∧
      IsStrongest (between dependencies direction step.1 step.2) edge ∧
      (critical step = true ↔ edge.strength = .strong ∨ edge.kind = .inherits) ∧
      (breakable step = true ↔ edge.strength ≠ .strong) := by
    intro step member
    obtain ⟨edge, found, isStrongest⟩ := exists_strongest (joined step member)
    rw [← edgeBetween_ofDependencies] at found
    refine ⟨edge, found, isStrongest, ?_, ?_⟩
    · simp [critical, keeps, found, isCritical]
    · simp [breakable, keeps, found, isBreakable]
  have cover : ∀ step ∈ steps path, critical step = true ∨ breakable step = true := by
    intro step member
    obtain ⟨edge, _, _, critical_iff, breakable_iff⟩ := each step member
    rw [critical_iff, breakable_iff]
    exact (em (edge.strength = .strong)).imp_left .inl
  refine ⟨critical, breakable, rfl, rfl, ?_, ?_, ?_⟩
  · intro step member
    obtain ⟨edge, found, isStrongest, critical_iff, breakable_iff⟩ := each step member
    refine ⟨edge, found, isStrongest, critical_iff, breakable_iff, cover step member, ?_⟩
    rw [critical_iff, breakable_iff, and_comm, and_congr_right_iff]
    exact or_iff_right
  · rw [criticalEdges, breakingPoints, List.length_map, List.length_map, ← length_steps]
    exact length_filter_add_length_filter cover
  · apply breakingPoints_eq_nil_iff
    intro step member
    exact isSome_edgeBetween_ofDependencies_iff.mpr (joined step member)

/-- In the chain the weak inheritance is critical and yet a place to cut. -/
theorem criticalEdges_breakingPoints_cover_chain :
    (∀ step ∈ steps ["a", "b", "c", "d"],
      between mixedChain .dependencies step.1 step.2 ≠ []) ∧
    ∃ critical breakable : String × String → Bool,
      (ofDependencies mixedChain).criticalEdges ["a", "b", "c", "d"] .dependencies =
        ((steps ["a", "b", "c", "d"]).filter critical).map arrow ∧
      (ofDependencies mixedChain).breakingPoints ["a", "b", "c", "d"] .dependencies =
        ((steps ["a", "b", "c", "d"]).filter breakable).map arrow ∧
      critical ("b", "c") = true ∧ breakable ("b", "c") = true := by
  have joined : ∀ step ∈ steps ["a", "b", "c", "d"],
      between mixedChain .dependencies step.1 step.2 ≠ [] := by decide
  obtain ⟨critical, breakable, areCritical, areBreakable, each, _⟩ :=
    criticalEdges_breakingPoints_cover joined
  obtain ⟨edge, found, _, _, _, _, both⟩ := each ("b", "c") (by decide)
  rw [edgeBetween_ofDependencies] at found
  obtain rfl : ⟨"b", "c", .inherits, "", .weak, false⟩ = edge := Option.some.inj found
  exact ⟨joined, critical, breakable, areCritical, areBreakable, both.mpr (by decide)⟩

end Cover

end ChangeImpact.Graph
