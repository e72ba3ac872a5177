/-
This file shows that a graph can lose the dependencies of hidden modules unnoticed: by explorations
and searches that refuse those modules, and by what is asked about the others.
-/

import ChangeImpact.Proofs.Graph.Cycle
import ChangeImpact.Proofs.Graph.PathSearch
import ChangeImpact.Proofs.Graph.PathWeight

namespace ChangeImpact

/-- These are the dependencies without those that have a hidden end. -/
def shown (hidden : String → Bool) (dependencies : List Dependency) : List Dependency :=
  dependencies.filter fun edge => !(hidden edge.dependent || hidden edge.provider)

/-- A graph is pruned if a module that is not hidden has lost exactly its dependencies on hidden
ones, in either direction. -/
structure Graph.Prunes (hidden : String → Bool) (graph pruned : Graph) : Prop where
  size_le : pruned.size ≤ graph.size
  edgesFrom : ∀ path, hidden path = false → ∀ direction,
    pruned.edgesFrom path direction =
      (graph.edgesFrom path direction).filter fun edge => !hidden (direction.finish edge)

variable {hidden : String → Bool} {pruned : Graph}

/-- The graph of the dependencies without hidden ends is pruned. -/
theorem Graph.prunes_ofDependencies (hidden : String → Bool) (dependencies : List Dependency) :
    Prunes hidden (ofDependencies dependencies) (ofDependencies (shown hidden dependencies)) where
  size_le := by
    simp only [size, edges_ofDependencies, List.size_toArray]
    exact List.length_filter_le _ _
  edgesFrom := by
    intro path isShown direction
    rw [edgesFrom_ofDependencies, edgesFrom_ofDependencies, shown, List.filter_filter,
      List.filter_filter]
    refine List.filter_congr fun edge _ => ?_
    by_cases here : direction.start edge = path
    · subst here
      cases direction <;> simp_all [Direction.start, Direction.finish]
    · simp [beq_eq_false_iff_ne.mpr here]

namespace Reaches

variable {refused : String → Bool} {reaches : Reaches}

theorem meet_of_refused {reach : Reach} (absent : reaches.slots[reach.path]? = none)
    (closed : refused reach.path = true) : reaches.meet refused reach = reaches := by
  simp [meet, absent, closed]

/-- No record is ever taken for a module that is refused. -/
theorem getElem?_slots_meet {path : String} (absent : reaches.slots[path]? = none)
    (closed : refused path = true) (reach : Reach) :
    (reaches.meet refused reach).slots[path]? = none := by
  unfold meet
  split
  · exact absent
  · split
    · exact absent
    · rename_i isOpen
      have other : reach.path ≠ path := fun same => isOpen (same ▸ closed)
      simpa [append, Std.HashMap.getElem?_insert, other] using absent

/-- Records of modules that are refused may be left out. -/
theorem foldl_meet_filter (closed : ∀ path, hidden path = true → refused path = true)
    (absent : ∀ path, hidden path = true → reaches.slots[path]? = none) (reachList : List Reach) :
    (reachList.filter fun reach => !hidden reach.path).foldl (meet refused) reaches =
      reachList.foldl (meet refused) reaches := by
  induction reachList generalizing reaches with
  | nil => rfl
  | cons reach rest ih =>
      rw [List.foldl_cons, List.filter_cons]
      cases isHidden : hidden reach.path with
      | true =>
          rw [meet_of_refused (absent _ isHidden) (closed _ isHidden)]
          exact ih absent
      | false =>
          exact ih fun path isHidden => getElem?_slots_meet (absent path isHidden)
            (closed path isHidden) reach

end Reaches

namespace Exploration

variable {exploration : Exploration} {seeds : List String} {state : State} {record : Reach}

/-- On a pruned graph the same modules come next, but for the hidden ones. -/
theorem candidates_of_prunes (prunes : exploration.graph.Prunes hidden pruned)
    (isShown : hidden record.path = false) :
    Exploration.candidates { exploration with graph := pruned } record =
      (exploration.candidates record).filter fun reach => !hidden reach.path := by
  unfold candidates
  split
  · rfl
  · rw [prunes.edgesFrom _ isShown, List.filter_map]
    rfl

/-- A module that is refused has no record. -/
theorem Explored.not_mem_paths (explored : Explored exploration seeds state) {path : String}
    (isRefused : exploration.refuses seeds path = true) :
    path ∉ state.reaches.records.toList.map Reach.path := by
  intro member
  obtain ⟨record, isRecord, rfl⟩ := List.mem_map.mp member
  simpa [isRefused] using (explored.gathered.among record isRecord).2

section Prunes

variable (prunes : exploration.graph.Prunes hidden pruned)
  (closed : ∀ path, hidden path = true → exploration.refuses seeds path = true)

include prunes closed

/-- Expanding a module finds the same on the pruned graph. -/
theorem Explored.expand_of_prunes (explored : Explored exploration seeds state)
    (here : state.reaches.records.toList[state.next]? = some record) :
    Exploration.expand { exploration with graph := pruned } state record =
      exploration.expand state record := by
  have isShown : hidden record.path = false := by
    by_contra isHidden
    exact explored.not_mem_paths (closed _ (by simpa using isHidden))
      (List.mem_map_of_mem (List.mem_of_getElem? here))
  have isExcluded : ∀ path, hidden path = true → exploration.excluded path = true :=
    fun path isHidden => (Bool.and_eq_true_iff.mp (closed path isHidden)).2
  have absent : ∀ path, hidden path = true → state.reaches.slots[path]? = none := by
    intro path isHidden
    have missing := explored.not_mem_paths (closed path isHidden)
    rw [Reaches.mem_paths_iff explored.indexed] at missing
    exact Option.eq_none_iff_forall_ne_some.mpr fun slot found => missing ⟨slot, found⟩
  rw [Exploration.expand, Exploration.expand, candidates_of_prunes prunes isShown]
  congr 1
  exact Reaches.foldl_meet_filter isExcluded absent _

/-- A run takes the same course on the pruned graph. -/
theorem Explored.run_of_prunes (explored : Explored exploration seeds state) (steps : Nat) :
    Exploration.run { exploration with graph := pruned } steps state =
      exploration.run steps state := by
  induction steps generalizing state with
  | zero => rfl
  | succ steps ih =>
      rw [Exploration.run, Exploration.run, step?_eq, step?_eq]
      cases here : state.reaches.records.toList[state.next]? with
      | none => rfl
      | some record =>
          rw [Option.map_some, Option.map_some, explored.expand_of_prunes prunes closed here]
          exact ih (explored.expand here)

variable (exploration) in
/-- An exploration ends with the same on the pruned graph. -/
theorem final_of_prunes :
    Exploration.final { exploration with graph := pruned } seeds = exploration.final seeds := by
  have enough : Exploration.steps { exploration with graph := pruned } seeds ≤
      exploration.steps seeds := Nat.add_le_add_left prunes.size_le _
  rw [← run_of_steps_le enough]
  exact (explored_initial exploration seeds).run_of_prunes prunes closed _

end Prunes

end Exploration

namespace PathSearch

variable {search : PathSearch} {state : State} {found : List (String × Nat)}
  {current target : String}

section Prunes

variable (prunes : search.graph.Prunes hidden pruned)
  (closed : ∀ path, hidden path = true → search.avoided path = true)
  (start : hidden search.source = false)

include prunes closed

/-- Expanding a module finds the same on the pruned graph. -/
theorem expand_of_prunes (isShown : hidden current = false) :
    PathSearch.expand { search with graph := pruned } state current =
      search.expand state current := by
  have near : pruned.neighbors current search.direction =
      (search.graph.neighbors current search.direction).filter fun path => !hidden path := by
    rw [Graph.neighbors, Graph.neighbors, prunes.edgesFrom _ isShown, List.filter_map]
    rfl
  unfold PathSearch.expand
  rw [near, List.foldl_filter]
  congr 1
  funext state found
  cases isHidden : hidden found with
  | true => simp [visit, closed found isHidden]
  | false => rfl

include start

omit prunes in
/-- A search finds no hidden module. -/
theorem Searched.shown (searched : search.Searched state found)
    (member : current ∈ state.order.toList) : hidden current = false := by
  by_cases isSource : current = search.source
  · rw [isSource, start]
  · have linked := (searched.linked.mem_previous_iff current).mpr ⟨member, isSource⟩
    obtain ⟨leads, _⟩ := searched.links current _ (Std.HashMap.getElem?_eq_some_getElem linked)
    by_contra isHidden
    exact Bool.false_ne_true (leads.1.symm.trans (closed current (by simpa using isHidden)))

/-- A run takes the same course on the pruned graph. -/
theorem Searched.run_of_prunes (searched : search.Searched state found) (target : String)
    (steps : Nat) :
    PathSearch.run { search with graph := pruned } target steps state =
      search.run target steps state := by
  induction steps generalizing state found with
  | zero => rfl
  | succ steps ih =>
      rw [PathSearch.run, PathSearch.run, step?_eq, step?_eq]
      cases here : state.order[state.next]? with
      | none => rfl
      | some current =>
          have member : current ∈ state.order.toList :=
            Array.mem_toList_iff.mpr (Array.mem_of_getElem? here)
          have isShown := searched.shown closed start member
          obtain ⟨later, next⟩ := searched.expand here
          rw [Option.map_some, Option.map_some, expand_of_prunes prunes closed isShown]
          simp only [ih next]

variable (search) in
/-- A search ends with the same on the pruned graph. -/
theorem final_of_prunes (target : String) :
    PathSearch.final { search with graph := pruned } target = search.final target := by
  have enough : pruned.size < search.graph.size + 1 := Nat.lt_succ_of_le prunes.size_le
  rw [← run_of_size_lt enough]
  exact (searched_initial search).run_of_prunes prunes closed start target _

end Prunes

end PathSearch

namespace Graph

variable {graph : Graph} {source target : String} {direction : Direction} {path : List String}

section Prunes

variable (prunes : graph.Prunes hidden pruned)

include prunes

/-- An exploration that refuses the hidden modules reaches the same on the pruned graph. -/
theorem reachable_of_prunes {seeds : List String} {excluded : String → Bool}
    (closed : ∀ path, hidden path = true → path ∉ seeds ∧ excluded path = true)
    (direction : Direction) (maxDepth : Nat) :
    pruned.reachable seeds direction maxDepth excluded =
      graph.reachable seeds direction maxDepth excluded := by
  let exploration : Exploration := ⟨graph, direction, maxDepth, excluded⟩
  have refused : ∀ path, hidden path = true → exploration.refuses seeds path = true := by
    intro path isHidden
    simpa [Exploration.refuses] using closed path isHidden
  have same := exploration.final_of_prunes prunes refused
  exact congrArg (fun state => state.reaches.records.toList) same

/-- A search that avoids the hidden modules finds the same path on the pruned graph. -/
theorem pathAvoiding?_of_prunes {avoided : String → Bool}
    (closed : ∀ path, hidden path = true → avoided path = true) (start : hidden source = false)
    (target : String) (direction : Direction) :
    pruned.pathAvoiding? source target direction avoided =
      graph.pathAvoiding? source target direction avoided := by
  have same := PathSearch.final_of_prunes ⟨graph, direction, source, avoided⟩ prunes closed start
    target
  simp only [pathAvoiding?, same]

/-- Among modules that are not hidden the pruned graph has the same cycles. -/
theorem cycles_of_prunes {modules : List String}
    (isShown : ∀ path ∈ modules, hidden path = false) :
    pruned.cycles modules = graph.cycles modules := by
  refine cycles_congr (fun _ => Iff.rfl) ?_
  funext path other
  refine propext (and_congr_right fun member => and_congr_right fun isOther => ?_)
  rw [prunes.edgesFrom path (isShown path member)]
  constructor
  · rintro ⟨edge, isEdge, finish⟩
    exact ⟨edge, List.mem_of_mem_filter isEdge, finish⟩
  · rintro ⟨edge, isEdge, rfl⟩
    exact ⟨edge, List.mem_filter.mpr ⟨isEdge, by simp [isShown _ isOther]⟩, rfl⟩

/-- Between modules that are not hidden the pruned graph has the same strongest dependency. -/
theorem edgeBetween_of_prunes (isSource : hidden source = false) (isTarget : hidden target = false)
    (direction : Direction) :
    pruned.edgeBetween source target direction = graph.edgeBetween source target direction := by
  rw [edgeBetween, edgeBetween, prunes.edgesFrom source isSource, List.filter_filter]
  congr 1
  refine List.filter_congr fun edge _ => ?_
  by_cases here : direction.finish edge = target
  · simp [here, isTarget]
  · simp [here]

/-- So it has along a path of such modules. -/
theorem edgeBetween_steps_of_prunes (isShown : ∀ passed ∈ path, hidden passed = false)
    (direction : Direction) : ∀ step ∈ steps path,
      pruned.edgeBetween step.1 step.2 direction = graph.edgeBetween step.1 step.2 direction := by
  intro step member
  obtain ⟨isSource, isTarget⟩ := mem_of_mem_steps member
  exact edgeBetween_of_prunes prunes (isShown _ isSource) (isShown _ isTarget) direction

end Prunes

end Graph

end ChangeImpact
