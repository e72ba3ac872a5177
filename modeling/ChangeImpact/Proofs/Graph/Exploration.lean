/-
This file shows what an exploration of a graph finds: the modules within its depth, each at its
distance and over the strongest dependency that completes a shortest walk.
-/

import ChangeImpact.Proofs.Distinct
import ChangeImpact.Proofs.Graph.Adjacency
import ChangeImpact.Proofs.Graph.Layers
import ChangeImpact.Proofs.Graph.Reaches

namespace ChangeImpact

/-- This pair places a module among the layers of a search. -/
def Reach.layer (reach : Reach) : String × Nat :=
  (reach.path, reach.distance)

namespace Exploration

/-- A step of an exploration leads to a seed or to a module that is not excluded. -/
def Leads (exploration : Exploration) (seeds : List String) : String → String → Prop :=
  exploration.graph.Leads exploration.direction fun path =>
    path ∈ seeds ∨ exploration.excluded path = false

/-- An exploration refuses the excluded modules other than its seeds. -/
def refuses (exploration : Exploration) (seeds : List String) (path : String) : Bool :=
  !decide (path ∈ seeds) && exploration.excluded path

/-- These are the records met so far: the seeds, and what was next to each expanded module. -/
def met (exploration : Exploration) (seeds : List String) (state : State) : List Reach :=
  seeds.map Reach.start ++
    (state.reaches.records.toList.take state.next).flatMap exploration.candidates

/-- The invariant of an exploration: its records are the best of those met so far, and they stand
in layers. -/
structure Explored (exploration : Exploration) (seeds : List String) (state : State) : Prop where
  indexed : state.reaches.Indexed
  gathered : Reaches.Gathered (exploration.refuses seeds) (exploration.met seeds state)
    state.reaches.records.toList
  layers : Layers (exploration.Leads seeds) seeds exploration.maxDepth
    (state.reaches.records.toList.map Reach.layer) state.next

variable {exploration : Exploration} {seeds : List String} {state : State}

theorem map_fst_layer (records : List Reach) :
    (records.map Reach.layer).map Prod.fst = records.map Reach.path := by
  simp [Reach.layer, Function.comp_def]

/-- What comes next to a module depends on its place among the layers alone. -/
theorem flatMap_candidates_congr (exploration : Exploration) {records others : List Reach}
    (same : records.map Reach.layer = others.map Reach.layer) :
    records.flatMap exploration.candidates = others.flatMap exploration.candidates := by
  have view (list : List Reach) : list.flatMap exploration.candidates =
      (list.map Reach.layer).flatMap fun item => exploration.candidates ⟨item.1, item.2, none⟩ := by
    rw [List.flatMap_map]
    rfl
  rw [view, view, same]

theorem mem_candidates_iff {record reach : Reach} : reach ∈ exploration.candidates record ↔
    record.distance < exploration.maxDepth ∧
      ∃ edge ∈ exploration.graph.edgesFrom record.path exploration.direction,
        reach = ⟨exploration.direction.finish edge, record.distance + 1, some edge⟩ := by
  unfold candidates
  split
  next deep => simp [Nat.not_lt.mpr deep]
  next shallow => simp [Nat.not_le.mp shallow, eq_comm]

/-- A record that is no nearer than those held adds at most itself to the layers. -/
theorem map_layer_gather (refused : String → Bool) {records : List Reach} {reach : Reach}
    (below : ∀ record ∈ records, record.distance ≤ reach.distance) :
    (Reaches.gather refused records reach).map Reach.layer =
      if reach.path ∈ records.map Reach.path ∨ refused reach.path = true
      then records.map Reach.layer else records.map Reach.layer ++ [reach.layer] := by
  apply Reaches.map_gather
  intro record member samePath improved
  have bound := below record member
  rw [Reach.isImprovedBy_iff] at improved
  exact Prod.ext samePath.symm (by simp only [Reach.layer]; omega)

/-- Records at one depth, none of them nearer than those held, add a part of one layer. -/
theorem foldl_gather_layers (refused : String → Bool) (depth : Nat) {records reachList : List Reach}
    (level : ∀ reach ∈ reachList, reach.distance = depth)
    (below : ∀ record ∈ records, record.distance ≤ depth) :
    ∃ fresh : List String,
      (reachList.foldl (Reaches.gather refused) records).map Reach.layer =
        records.map Reach.layer ++ fresh.map (·, depth) ∧
      ∀ target ∈ fresh, refused target = false ∧ ∃ reach ∈ reachList, reach.path = target := by
  induction reachList generalizing records with
  | nil => exact ⟨[], by simp, by simp⟩
  | cons reach rest ih =>
      have here : reach.distance = depth := level reach (by simp)
      have restLevel : ∀ later ∈ rest, later.distance = depth := fun later member =>
        level later (List.mem_cons_of_mem _ member)
      have bounded : ∀ record ∈ Reaches.gather refused records reach, record.distance ≤ depth := by
        intro record member
        rcases Reaches.mem_gather member with old | rfl
        · exact below record old
        · exact here.le
      obtain ⟨fresh, layers, origin⟩ := ih restLevel bounded
      have later : ∀ target ∈ fresh,
          refused target = false ∧ ∃ other ∈ reach :: rest, other.path = target := by
        intro target member
        obtain ⟨isOpen, other, isLater, path⟩ := origin target member
        exact ⟨isOpen, other, List.mem_cons_of_mem _ isLater, path⟩
      rw [List.foldl_cons, layers, map_layer_gather refused (here ▸ below)]
      split
      next => exact ⟨fresh, rfl, later⟩
      next added =>
        refine ⟨reach.path :: fresh, by simp [Reach.layer, here], ?_⟩
        intro target member
        rcases List.mem_cons.mp member with rfl | isLater
        · exact ⟨by simpa using (not_or.mp added).2, reach, by simp, rfl⟩
        · exact later target isLater

/-- A seed is held once, however often it is listed. -/
theorem gather_start (paths : List String) (seed : String) :
    Reaches.gather (fun _ => false) (paths.map Reach.start) (Reach.start seed) =
      if seed ∈ paths then paths.map Reach.start else paths.map Reach.start ++ [Reach.start seed] := by
  have known : (paths.map Reach.start).map Reach.path = paths := by
    simp [Reach.start, Function.comp_def]
  have kept : ∀ path, (Reach.start path).isImprovedBy (Reach.start seed) = false := fun _ => rfl
  rw [Reaches.gather, known, show (Reach.start seed).path = seed from rfl, if_neg Bool.false_ne_true]
  split
  · simp [kept]
  · rfl

/-- Before anything is expanded each seed has one record, in the order of first occurrences. -/
theorem records_initial (seeds : List String) :
    (initial seeds).reaches.records.toList = seeds.eraseDups.map Reach.start := by
  have gathered : (seeds.map Reach.start).foldl (Reaches.gather fun _ => false) [] =
      seeds.eraseDups.map Reach.start := by
    induction seeds using List.reverseRecOn with
    | nil => rfl
    | append_singleton earlier seed ih =>
        rw [List.map_append, List.foldl_append, ih, List.map_singleton, List.foldl_cons,
          List.foldl_nil, gather_start, eraseDups_concat]
        simp only [List.mem_eraseDups]
        split_ifs
        · rfl
        · rw [List.map_append, List.map_singleton]
  exact (Reaches.toList_foldl_meet Reaches.indexed_empty (fun _ => false)
    (seeds.map Reach.start)).2.trans gathered

/-- Before anything is expanded the seeds are held, and nothing else was met. -/
theorem gathered_initial (exploration : Exploration) (seeds : List String) :
    (initial seeds).reaches.Indexed ∧ Reaches.Gathered (exploration.refuses seeds)
      (seeds.map Reach.start) (initial seeds).reaches.records.toList := by
  obtain ⟨indexed, records⟩ :=
    Reaches.toList_foldl_meet Reaches.indexed_empty (fun _ => false) (seeds.map Reach.start)
  have same : (seeds.map Reach.start).foldl (Reaches.gather fun _ => false) [] =
      (seeds.map Reach.start).foldl (Reaches.gather (exploration.refuses seeds)) [] := by
    apply Reaches.foldl_gather_congr
    intro reach member
    obtain ⟨seed, isSeed, rfl⟩ := List.mem_map.mp member
    exact .inr (by simp [refuses, Reach.start, isSeed])
  refine ⟨indexed, ?_⟩
  change Reaches.Gathered _ _ ((seeds.map Reach.start).foldl (Reaches.meet fun _ => false)
    Reaches.empty).records.toList
  rw [records, show Reaches.empty.records.toList = [] from rfl, same]
  exact (Reaches.Gathered.nil _).foldl _

/-- Each seed has its record at distance zero before anything is expanded. -/
theorem explored_initial (exploration : Exploration) (seeds : List String) :
    Explored exploration seeds (initial seeds) := by
  obtain ⟨indexed, gathered⟩ := gathered_initial exploration seeds
  have layers : (initial seeds).reaches.records.toList.map Reach.layer =
      (distinct seeds).map (·, 0) := by
    rw [records_initial, List.map_map, distinct_eq_eraseDups]
    rfl
  refine ⟨indexed, by simpa [met, initial] using gathered, ?_⟩
  rw [layers]
  exact Layers.initial seeds _ (distinct_nodup seeds) fun _ => mem_distinct

/-- Seeds have records at any time. -/
theorem Explored.mem_paths (explored : Explored exploration seeds state) {seed : String}
    (isSeed : seed ∈ seeds) : seed ∈ state.reaches.records.toList.map Reach.path := by
  rw [← map_fst_layer]
  exact List.mem_map.mpr ⟨_, explored.layers.seeded seed isSeed, rfl⟩

/-- This is the state after a module is expanded. -/
def expand (exploration : Exploration) (state : State) (record : Reach) : State :=
  ⟨(exploration.candidates record).foldl (Reaches.meet exploration.excluded) state.reaches,
    state.next + 1⟩

theorem step?_eq (exploration : Exploration) (state : State) :
    exploration.step? state =
      state.reaches.records.toList[state.next]?.map (exploration.expand state) := by
  rw [Array.getElem?_toList]
  rfl

/-- Expanding a module takes its candidates into account. -/
theorem Explored.gathered_expand (explored : Explored exploration seeds state) (record : Reach) :
    (exploration.expand state record).reaches.Indexed ∧
      Reaches.Gathered (exploration.refuses seeds)
        (exploration.met seeds state ++ exploration.candidates record)
        (exploration.expand state record).reaches.records.toList := by
  obtain ⟨indexed, records⟩ := Reaches.toList_foldl_meet explored.indexed exploration.excluded
    (exploration.candidates record)
  have agree : ∀ reach ∈ exploration.candidates record,
      reach.path ∈ state.reaches.records.toList.map Reach.path ∨
        exploration.excluded reach.path = exploration.refuses seeds reach.path := by
    intro reach _
    by_cases isSeed : reach.path ∈ seeds
    · exact .inl (explored.mem_paths isSeed)
    · exact .inr (by simp [refuses, isSeed])
  rw [Reaches.foldl_gather_congr agree] at records
  refine ⟨indexed, ?_⟩
  rw [expand, records]
  exact explored.gathered.foldl _

theorem getElem?_layer {record : Reach}
    (here : state.reaches.records.toList[state.next]? = some record) :
    (state.reaches.records.toList.map Reach.layer)[state.next]? = some record.layer := by
  rw [List.getElem?_map, here]
  rfl

/-- Expanding the module that waited longest adds a part of the next layer. -/
theorem Explored.layers_expand (explored : Explored exploration seeds state) {record : Reach}
    (here : state.reaches.records.toList[state.next]? = some record) :
    ∃ fresh : List String,
      (exploration.expand state record).reaches.records.toList.map Reach.layer =
        state.reaches.records.toList.map Reach.layer ++ fresh.map (·, record.distance + 1) ∧
      ∀ target ∈ fresh, exploration.excluded target = false ∧
        ∃ reach ∈ exploration.candidates record, reach.path = target := by
  have place := getElem?_layer here
  -- No record is farther away than the candidates, so that none of them changes its layer.
  have below : ∀ old ∈ state.reaches.records.toList, old.distance ≤ record.distance + 1 :=
    fun old member => explored.layers.near old.layer (List.mem_map_of_mem member) _
      (Layers.mem_drop_next place)
  have level : ∀ reach ∈ exploration.candidates record, reach.distance = record.distance + 1 := by
    intro reach member
    obtain ⟨_, edge, _, rfl⟩ := mem_candidates_iff.mp member
    rfl
  have records := (Reaches.toList_foldl_meet explored.indexed exploration.excluded
    (exploration.candidates record)).2
  rw [expand, records]
  exact foldl_gather_layers exploration.excluded _ level below

/-- The records that were expanded before keep their layers and so their candidates. -/
theorem met_expand {record : Reach} {later : List (String × Nat)}
    (here : state.reaches.records.toList[state.next]? = some record)
    (layers : (exploration.expand state record).reaches.records.toList.map Reach.layer =
      state.reaches.records.toList.map Reach.layer ++ later) :
    exploration.met seeds (exploration.expand state record) =
      exploration.met seeds state ++ exploration.candidates record := by
  have inside : state.next < state.reaches.records.toList.length :=
    (List.getElem?_eq_some_iff.mp here).1
  have same : ((exploration.expand state record).reaches.records.toList.take
        (state.next + 1)).map Reach.layer =
      (state.reaches.records.toList.take (state.next + 1)).map Reach.layer := by
    rw [List.map_take, layers, List.take_append_of_le_length (by simpa using inside),
      List.map_take]
  rw [met, show (exploration.expand state record).next = state.next + 1 from rfl,
    flatMap_candidates_congr exploration same, List.take_add_one, here, List.flatMap_append,
    ← List.append_assoc]
  simp [met]

/-- Expanding the module that waited longest keeps the invariant. -/
theorem Explored.expand (explored : Explored exploration seeds state) {record : Reach}
    (here : state.reaches.records.toList[state.next]? = some record) :
    Explored exploration seeds (exploration.expand state record) := by
  obtain ⟨indexed, gathered⟩ := explored.gathered_expand record
  obtain ⟨fresh, layers, origin⟩ := explored.layers_expand here
  have paths := congrArg (List.map Prod.fst) layers
  rw [List.map_append, map_fst_layer, map_fst_layer, List.map_map, Function.comp_def,
    List.map_id'] at paths
  have place := getElem?_layer here
  refine ⟨indexed, met_expand here layers ▸ gathered, ?_⟩
  rw [layers]
  refine explored.layers.advance place ?_ ?_ ?_
  · rw [map_fst_layer, ← paths]
    exact gathered.nodup
  · intro target isFresh
    obtain ⟨isOpen, reach, member, rfl⟩ := origin target isFresh
    obtain ⟨inDepth, edge, isEdge, rfl⟩ := mem_candidates_iff.mp member
    exact ⟨Nat.cast_le.mpr inDepth, .inr isOpen, edge, isEdge, rfl⟩
  · rintro inLimit target ⟨enters, edge, isEdge, rfl⟩
    rw [map_fst_layer, ← List.mem_append, ← paths]
    have candidate := mem_candidates_iff.mpr ⟨Nat.cast_le.mp inLimit, edge, isEdge, rfl⟩
    refine gathered.complete _ (List.mem_append_right _ candidate) ?_
    rcases enters with isSeed | isOpen
    · simp [refuses, isSeed]
    · simp [refuses, isOpen]

/-- A run keeps the invariant, and it ends early only if no module waits. -/
theorem Explored.run (explored : Explored exploration seeds state) (steps : Nat) :
    Explored exploration seeds (exploration.run steps state) ∧
      ((exploration.run steps state).reaches.records.size ≤ (exploration.run steps state).next ∨
        (exploration.run steps state).next = state.next + steps) := by
  induction steps generalizing state with
  | zero => exact ⟨explored, .inr rfl⟩
  | succ steps ih =>
      unfold Exploration.run
      rw [step?_eq]
      cases here : state.reaches.records.toList[state.next]? with
      | none => exact ⟨explored, .inl (by simpa using here)⟩
      | some record =>
          obtain ⟨final, ended⟩ := ih (explored.expand here)
          refine ⟨final, ended.imp_right fun count => ?_⟩
          exact count.trans (by simp only [Exploration.expand]; omega)

/-- Every record belongs to a seed or to the end of a dependency of its own. -/
theorem Explored.size_le (explored : Explored exploration seeds state) :
    state.reaches.records.size ≤ exploration.steps seeds := by
  have within : state.reaches.records.toList.map Reach.path ⊆
      seeds ++ exploration.graph.edges.toList.map exploration.direction.finish := by
    intro path member
    obtain ⟨record, isRecord, rfl⟩ := List.mem_map.mp member
    rcases List.mem_append.mp (explored.gathered.among record isRecord).1 with isStart | isCandidate
    · obtain ⟨seed, isSeed, rfl⟩ := List.mem_map.mp isStart
      exact List.mem_append_left _ isSeed
    · obtain ⟨source, _, candidate⟩ := List.mem_flatMap.mp isCandidate
      obtain ⟨_, edge, isEdge, rfl⟩ := mem_candidates_iff.mp candidate
      exact List.mem_append_right _
        (List.mem_map_of_mem (Graph.mem_edges_of_mem_edgesFrom isEdge))
  have bound := List.Nodup.length_le_of_subset explored.gathered.nodup within
  simpa [steps, Graph.size] using bound

/-- A run adds layers and changes none of those that are there. -/
theorem Explored.layers_prefix_run (explored : Explored exploration seeds state) (steps : Nat) :
    state.reaches.records.toList.map Reach.layer <+:
      (exploration.run steps state).reaches.records.toList.map Reach.layer := by
  induction steps generalizing state with
  | zero => exact List.prefix_rfl
  | succ steps ih =>
      unfold Exploration.run
      rw [step?_eq]
      cases here : state.reaches.records.toList[state.next]? with
      | none => exact List.prefix_rfl
      | some record =>
          obtain ⟨fresh, layers, _⟩ := explored.layers_expand here
          exact (layers ▸ List.prefix_append _ _).trans (ih (explored.expand here))

/-- At the end every module that was found is expanded. -/
theorem explored_final (exploration : Exploration) (seeds : List String) :
    Explored exploration seeds (exploration.final seeds) ∧
      (exploration.final seeds).reaches.records.size ≤ (exploration.final seeds).next := by
  obtain ⟨final, ended⟩ := (explored_initial exploration seeds).run (exploration.steps seeds)
  refine ⟨final, ended.elim id fun count => ?_⟩
  have bound := final.size_le
  rw [Exploration.final, count]
  exact bound.trans (Nat.le_add_left _ _)

theorem run_add (exploration : Exploration) (steps more : Nat) (state : State) :
    exploration.run (steps + more) state = exploration.run more (exploration.run steps state) := by
  induction steps generalizing state with
  | zero => rw [Nat.zero_add, Exploration.run]
  | succ steps ih =>
      rw [Nat.succ_add, Exploration.run, Exploration.run]
      cases ended : exploration.step? state with
      | none => cases more <;> simp [Exploration.run, ended]
      | some next => exact ih next

theorem run_of_done (exploration : Exploration) (done : state.reaches.records.size ≤ state.next)
    (steps : Nat) : exploration.run steps state = state := by
  cases steps with
  | zero => rfl
  | succ steps => rw [Exploration.run, step?, Array.getElem?_eq_none done, Option.map_none]

/-- More steps than there are modules to expand change nothing. -/
theorem run_of_steps_le {steps : Nat} (enough : exploration.steps seeds ≤ steps) :
    exploration.run steps (initial seeds) = exploration.final seeds := by
  obtain ⟨more, rfl⟩ := Nat.exists_eq_add_of_le enough
  rw [run_add]
  exact run_of_done exploration (explored_final exploration seeds).2 more

end Exploration

end ChangeImpact
