/-
This file shows that a smaller depth cuts an exploration off and changes nothing else.
-/

import ChangeImpact.Proofs.Graph.Exploration

namespace ChangeImpact

namespace Reaches

variable {refused : String → Bool} {depth : Nat} {records reachList : List Reach} {reach : Reach}

/-- A record beyond a depth takes the place of none within it. -/
theorem filter_gather_of_far (far : depth < reach.distance) :
    (gather refused records reach).filter (·.distance ≤ depth) =
      records.filter (·.distance ≤ depth) := by
  have beyond : decide (reach.distance ≤ depth) = false := decide_eq_false (Nat.not_le.mpr far)
  unfold gather
  split
  · rw [← List.filterMap_eq_filter, List.filterMap_map]
    refine List.filterMap_congr fun record _ => ?_
    simp only [Function.comp_apply]
    split
    next better =>
      have worse := (Reach.isImprovedBy_iff record reach).mp better.2
      have farther : ¬ record.distance ≤ depth := by omega
      simp [Option.guard, beyond, farther]
    next => rfl
  · split
    · rfl
    · simp [beyond]

theorem filter_foldl_gather_of_far (far : ∀ reach ∈ reachList, depth < reach.distance) :
    (reachList.foldl (gather refused) records).filter (·.distance ≤ depth) =
      records.filter (·.distance ≤ depth) := by
  induction reachList generalizing records with
  | nil => rfl
  | cons reach rest ih =>
      rw [List.foldl_cons, ih fun later member => far later (List.mem_cons_of_mem _ member),
        filter_gather_of_far (far reach List.mem_cons_self)]

end Reaches

namespace Exploration

variable {exploration : Exploration} {seeds : List String} {state : State} {record : Reach}
  {depth : Nat}

/-- If no waiting module is nearer than a depth, then neither is one that comes to wait. -/
theorem Explored.far_expand (explored : Explored exploration seeds state)
    (here : state.reaches.records.toList[state.next]? = some record)
    (far : ∀ item ∈ (state.reaches.records.toList.map Reach.layer).drop state.next,
      depth ≤ item.2) :
    ∀ item ∈ ((exploration.expand state record).reaches.records.toList.map Reach.layer).drop
      (exploration.expand state record).next, depth ≤ item.2 := by
  have place := getElem?_layer here
  have inside : state.next < (state.reaches.records.toList.map Reach.layer).length :=
    (List.getElem?_eq_some_iff.mp place).1
  obtain ⟨fresh, layers, _⟩ := explored.layers_expand here
  intro item waits
  rw [layers, show (exploration.expand state record).next = state.next + 1 from rfl,
    List.drop_append_of_le_length inside] at waits
  rcases List.mem_append.mp waits with old | new
  · exact far item (List.drop_subset_drop_left _ (Nat.le_succ _) old)
  · obtain ⟨target, _, rfl⟩ := List.mem_map.mp new
    have bound : depth ≤ record.distance := far _ (Layers.mem_drop_next place)
    exact bound.trans (Nat.le_succ _)

/-- Once no waiting module is nearer than a depth, a run changes nothing within that depth. -/
theorem Explored.filter_run_of_far (explored : Explored exploration seeds state)
    (far : ∀ item ∈ (state.reaches.records.toList.map Reach.layer).drop state.next,
      depth ≤ item.2) (steps : Nat) :
    (exploration.run steps state).reaches.records.toList.filter (·.distance ≤ depth) =
      state.reaches.records.toList.filter (·.distance ≤ depth) := by
  induction steps generalizing state with
  | zero => rfl
  | succ steps ih =>
      unfold Exploration.run
      rw [step?_eq]
      cases here : state.reaches.records.toList[state.next]? with
      | none => rfl
      | some record =>
          have records := (Reaches.toList_foldl_meet explored.indexed exploration.excluded
            (exploration.candidates record)).2
          have waits := Layers.mem_drop_next (getElem?_layer here)
          have beyond : ∀ reach ∈ exploration.candidates record, depth < reach.distance := by
            intro reach member
            obtain ⟨_, edge, _, rfl⟩ := mem_candidates_iff.mp member
            exact Nat.lt_succ_of_le (far _ waits)
          refine (ih (explored.expand here) (explored.far_expand here far)).trans ?_
          rw [Exploration.expand, records, Reaches.filter_foldl_gather_of_far beyond]

/-- Before the smaller depth is reached both depths let the same modules be found next. -/
theorem candidates_of_lt (below : depth ≤ exploration.maxDepth) (near : record.distance < depth) :
    Exploration.candidates { exploration with maxDepth := depth } record =
      exploration.candidates record := by
  have nearer : record.distance < exploration.maxDepth := near.trans_le below
  rw [candidates, candidates, if_neg (Nat.not_le.mpr near), if_neg (Nat.not_le.mpr nearer)]

/-- Within its own depth an exploration holds all of its records. -/
theorem Explored.filter_maxDepth (explored : Explored exploration seeds state) :
    state.reaches.records.toList.filter (·.distance ≤ exploration.maxDepth) =
      state.reaches.records.toList := by
  refine List.filter_eq_self.mpr fun record member => ?_
  exact decide_eq_true
    (Nat.cast_le.mp (explored.layers.within record.layer (List.mem_map_of_mem member)))

/-- A run that may go deeper finds the same within the smaller depth, in the same order. -/
theorem filter_run (below : depth ≤ exploration.maxDepth)
    (deep : Explored exploration seeds state)
    (shallow : Explored { exploration with maxDepth := depth } seeds state) (steps : Nat) :
    (exploration.run steps state).reaches.records.toList.filter (·.distance ≤ depth) =
      (Exploration.run { exploration with maxDepth := depth } steps
        state).reaches.records.toList := by
  -- The runs go through the same states until the next module is as far away as the smaller depth;
  -- from then on neither changes anything within it.
  induction steps generalizing state with
  | zero => exact shallow.filter_maxDepth
  | succ steps ih =>
      cases here : state.reaches.records.toList[state.next]? with
      | none =>
          simp only [Exploration.run, step?_eq, here, Option.map_none]
          exact shallow.filter_maxDepth
      | some record =>
          by_cases near : record.distance < depth
          · have same : Exploration.expand { exploration with maxDepth := depth } state record =
                exploration.expand state record := by
              simp only [Exploration.expand, candidates_of_lt below near]
            have next := shallow.expand here
            rw [same] at next
            simp only [Exploration.run, step?_eq, here, Option.map_some, same]
            exact ih (deep.expand here) next
          · have place := getElem?_layer here
            have inside := (List.getElem?_eq_some_iff.mp place).1
            have far : ∀ item ∈ (state.reaches.records.toList.map Reach.layer).drop state.next,
                depth ≤ item.2 := by
              intro item waits
              rw [List.drop_eq_getElem_cons inside,
                (List.getElem?_eq_some_iff.mp place).2] at waits
              rcases List.mem_cons.mp waits with rfl | later
              · exact Nat.not_lt.mp near
              · exact (Nat.not_lt.mp near).trans (deep.layers.next_le place item later)
            rw [deep.filter_run_of_far far, ← shallow.filter_run_of_far far]
            exact (shallow.run (steps + 1)).1.filter_maxDepth

end Exploration

/-- What is reachable within a smaller depth is what is reachable and no farther away. -/
theorem Graph.filter_reachable (graph : Graph) (seeds : List String) (direction : Direction)
    {depth maxDepth : Nat} (below : depth ≤ maxDepth) (excluded : String → Bool) :
    (graph.reachable seeds direction maxDepth excluded).filter (·.distance ≤ depth) =
      graph.reachable seeds direction depth excluded :=
  Exploration.filter_run below
    (Exploration.explored_initial ⟨graph, direction, maxDepth, excluded⟩ seeds)
    (Exploration.explored_initial ⟨graph, direction, depth, excluded⟩ seeds) _

end ChangeImpact
