/-
This file shows which paths an analysis traces: one for each of the first connected pairs of a
changed module and an affected one.
-/

import ChangeImpact.Proofs.Analysis.Affected

namespace ChangeImpact.Analyzer

variable {α : Type} [Scalar α]

/-- These are the connected pairs of a changed module and a module at some distance from the
change, in the order of the change and of the affected modules. -/
def connectedPairs (analyzer : Analyzer α) (change : ChangeSet) (snapshot : Snapshot)
    (affected : List (AffectedModule α)) : List (String × AffectedModule α) :=
  (change.modules.eraseDups.flatMap fun source =>
    (affected.filter fun target => 1 ≤ target.distance).map (source, ·)).filter fun pair =>
      analyzer.Connected snapshot pair.1 pair.2.path

/-- A path with the given number traces a connected pair: along a shortest route, which leads to
dependents if any route does and enters no excluded module. -/
structure Traces (analyzer : Analyzer α) (snapshot : Snapshot) (number : Nat)
    (pair : String × AffectedModule α) (traced : ImpactPath α) : Prop where
  id : traced.id = s!"path_{number}"
  source : traced.source = pair.1
  target : traced.target = pair.2.path
  direction : traced.direction = .dependents ↔
    analyzer.Joins snapshot .dependents pair.1 pair.2.path
  route : ShortestRoute (analyzer.Connects snapshot traced.direction) pair.1 pair.2.path
    traced.path
  entered : ∀ passed ∈ traced.path.tail, analyzer.exclusion.excludes passed = false
  length : traced.path.length = traced.length + 1
  near : pair.2.distance ≤ traced.length

variable {analyzer : Analyzer α} {change : ChangeSet} {snapshot : Snapshot}
  {coverage : CoverageSource α} {direction : Direction} {source target : String} {length : Nat}

/-- Of a walk from a changed module the part after the last changed one enters no excluded
module. -/
theorem exists_walk_connects (changed : source ∈ change.modules)
    (walk : Walk (analyzer.Spreads change snapshot direction) length source target) :
    ∃ start ∈ change.modules, ∃ shorter ≤ length,
      Walk (analyzer.Connects snapshot direction) shorter start target := by
  refine walk.exists_afterLast (fun _ _ step => ?_) changed
  -- A changed module on the way is a start of its own, excluded or not.
  exact step.1.imp_right fun isOpen => ⟨isOpen, step.2⟩

/-- Some connection of an affected module with a changed one is no longer than its distance. -/
theorem exists_near_connection {entry : AffectedModule α}
    (member : entry ∈ analyzer.affectedBy change snapshot coverage) :
    ∃ source ∈ change.modules, ∃ direction, ∃ length ≤ entry.distance,
      Walk (analyzer.Connects snapshot direction) length source entry.path := by
  obtain ⟨⟨_, direction, source, changed, walk⟩, _⟩ := isNearest_of_affectedBy member
  obtain ⟨start, isStart, shorter, near, connects⟩ := exists_walk_connects changed walk
  exact ⟨start, isStart, direction, shorter, near, connects⟩

/-- An affected module is connected with some changed one. -/
theorem exists_connected {entry : AffectedModule α}
    (member : entry ∈ analyzer.affectedBy change snapshot coverage) :
    ∃ source ∈ change.modules, analyzer.Connected snapshot source entry.path := by
  obtain ⟨source, changed, direction, length, _, connects⟩ := exists_near_connection member
  exact ⟨source, changed, direction, length, connects⟩

/-- No connection with a changed module is shorter than the distance of an affected module. -/
theorem distance_le_of_connects {entry : AffectedModule α}
    (member : entry ∈ analyzer.affectedBy change snapshot coverage)
    (changed : source ∈ change.modules)
    (walk : Walk (analyzer.Connects snapshot direction) length source entry.path) :
    entry.distance ≤ length := by
  obtain ⟨⟨inDepth, _⟩, least⟩ := isNearest_of_affectedBy member
  by_cases within : length ≤ analyzer.config.maxDepth
  · have spreads : Walk (analyzer.Spreads change snapshot direction) length source entry.path :=
      walk.mono fun _ _ step => ⟨.inr step.1, step.2⟩
    exact least ⟨within, direction, source, changed, spreads⟩
  · exact inDepth.trans (Nat.le_of_not_le within)

/-- The pairs with a connection are the connected ones among all pairs. -/
theorem map_ends_connections (analyzer : Analyzer α) (change : ChangeSet) (snapshot : Snapshot)
    (limit : Nat) (affected : List (AffectedModule α)) :
    (analyzer.connections (analyzer.graph snapshot) limit
      (pairs (distinct change.modules) affected)).map (fun item => (item.1, item.2.1)) =
      (analyzer.connectedPairs change snapshot affected).take limit := by
  have ends (list : List (String × AffectedModule α)) :
      (list.filterMap (analyzer.joined? (analyzer.graph snapshot))).map
        (fun item => (item.1, item.2.1)) =
        list.filter fun pair => analyzer.Connected snapshot pair.1 pair.2.path := by
    induction list with
    | nil => rfl
    | cons pair rest ih =>
        rw [List.filterMap_cons, List.filter_cons, ← ih]
        cases found : analyzer.connection? (analyzer.graph snapshot) pair.1 pair.2.path with
        | none =>
            have apart : ¬ analyzer.Connected snapshot pair.1 pair.2.path := by
              rw [← isSome_connection?_iff, found]
              simp
            simp [joined?, found, apart]
        | some connection =>
            have connected : analyzer.Connected snapshot pair.1 pair.2.path := by
              rw [← isSome_connection?_iff, found]
              rfl
            simp [joined?, found, connected]
  have far : (fun target : AffectedModule α => !target.isDirect) =
      fun target => decide (1 ≤ target.distance) := by
    funext target
    cases far : target.distance <;> simp [AffectedModule.isDirect, far]
  rw [connections_eq_take, List.map_take, ends, connectedPairs, pairs, distinct_eq_eraseDups, far]

theorem mem_connectedPairs_iff {affected : List (AffectedModule α)}
    {pair : String × AffectedModule α} :
    pair ∈ analyzer.connectedPairs change snapshot affected ↔
      pair.1 ∈ change.modules ∧ pair.2 ∈ affected ∧ 1 ≤ pair.2.distance ∧
        analyzer.Connected snapshot pair.1 pair.2.path := by
  obtain ⟨source, target⟩ := pair
  simp [connectedPairs, and_assoc]

/-- There are no more connected pairs than changed modules times affected ones. -/
theorem length_connectedPairs_le (analyzer : Analyzer α) (change : ChangeSet)
    (snapshot : Snapshot) (affected : List (AffectedModule α)) :
    (analyzer.connectedPairs change snapshot affected).length ≤
      change.modules.eraseDups.length * affected.length := by
  have far := List.length_filter_le (fun target => decide (1 ≤ target.distance)) affected
  calc (analyzer.connectedPairs change snapshot affected).length
      ≤ (change.modules.eraseDups.flatMap fun source =>
          (affected.filter fun target => 1 ≤ target.distance).map (source, ·)).length :=
        List.length_filter_le _ _
    _ = change.modules.eraseDups.length *
          (affected.filter fun target => 1 ≤ target.distance).length := by
        simp [List.length_flatMap]
    _ ≤ change.modules.eraseDups.length * affected.length := Nat.mul_le_mul_left _ far

/-- A connection that is listed was found between a changed module and an affected one at some
distance. -/
theorem of_mem_connections {limit : Nat}
    {connection : String × AffectedModule α × List String × Direction}
    (listed : connection ∈ analyzer.connections (analyzer.graph snapshot) limit
      (pairs (distinct change.modules) (analyzer.affectedBy change snapshot coverage))) :
    analyzer.connection? (analyzer.graph snapshot) connection.1 connection.2.1.path =
        some connection.2.2 ∧
      connection.1 ∈ change.modules ∧
      connection.2.1 ∈ analyzer.affectedBy change snapshot coverage ∧
      1 ≤ connection.2.1.distance := by
  have ends := mem_pairs_iff.mp (ends_mem_of_mem listed)
  exact ⟨connection?_of_mem listed, mem_distinct.mp ends.1, ends.2⟩

/-- A description of a connection between a changed module and an affected one traces them. -/
theorem traces_of_describes {cycles : List (List String)} {number : Nat}
    {connection : String × AffectedModule α × List String × Direction} {described : ImpactPath α}
    (describes : Describes cycles number connection described)
    (found : analyzer.connection? (analyzer.graph snapshot) connection.1 connection.2.1.path =
      some connection.2.2)
    (changed : connection.1 ∈ change.modules)
    (affected : connection.2.1 ∈ analyzer.affectedBy change snapshot coverage) :
    analyzer.Traces snapshot number (connection.1, connection.2.1) described := by
  obtain ⟨source, target, path, direction⟩ := connection
  obtain ⟨route, way⟩ := shortestRoute_of_connection? found
  obtain ⟨length, size, walk⟩ := route.toRoute.walk
  have steps : described.length = length := by rw [describes.length, size]; rfl
  have samePath : described.path = path := describes.path
  have sameWay : described.direction = direction := describes.direction
  refine ⟨describes.id, describes.source, describes.target, ?_, ?_, ?_, ?_, ?_⟩
  · rw [sameWay]
    exact way
  · rw [samePath, sameWay]
    exact route
  · rw [samePath]
    intro passed member
    obtain ⟨before, step⟩ := route.toRoute.entered member
    exact step.1
  · rw [samePath, size, steps]
  · rw [steps]
    exact distance_le_of_connects affected changed walk

/-- The traced paths belong to the first connected pairs, one by one. -/
theorem exists_traced (analyzer : Analyzer α) (change : ChangeSet) (snapshot : Snapshot)
    (coverage : CoverageSource α) :
    ∃ traced, analyzer.pathsBy change snapshot coverage = .ok (ImpactPath.sort traced) ∧
      List.Forall₂ (fun item path => analyzer.Traces snapshot (item.2 + 1) item.1 path)
        ((analyzer.connectedPairs change snapshot
          (analyzer.affectedBy change snapshot coverage)).take analyzer.config.maxPaths).zipIdx
        traced := by
  obtain ⟨traced, done, describes⟩ := exists_impactPaths analyzer snapshot
    (distinct change.modules) (analyzer.affectedBy change snapshot coverage)
    (analyzer.cyclesBy change snapshot coverage)
  refine ⟨traced, done, ?_⟩
  rw [← map_ends_connections, List.zipIdx_map, List.forall₂_map_left_iff]
  refine List.Forall₂.imp ?_ ((List.forall₂_and_left _ _).mpr
    ⟨fun item listed => of_mem_connections (List.fst_mem_of_mem_zipIdx listed), describes⟩)
  rintro item path ⟨⟨found, changed, isAffected, _⟩, describes⟩
  exact traces_of_describes describes found changed isAffected

/-- Whatever stands on the right of a pairing has its counterpart on the left. -/
theorem exists_of_forall₂ {β γ : Type} {pairs : β → γ → Prop} {left : List β} {right : List γ}
    (each : List.Forall₂ pairs left right) {second : γ} (member : second ∈ right) :
    ∃ first ∈ left, pairs first second := by
  induction each with
  | nil => simp at member
  | cons paired _ ih =>
      rcases List.mem_cons.mp member with rfl | later
      · exact ⟨_, List.mem_cons_self, paired⟩
      · obtain ⟨first, isLeft, isPaired⟩ := ih later
        exact ⟨first, List.mem_cons_of_mem _ isLeft, isPaired⟩

variable [WholeText α] {now : Timestamp} {report : Report α}

/-- Every path of a report traces a connected pair. -/
theorem exists_traces (analyzed : analyzer.analyze change snapshot coverage now = .ok report)
    {traced : ImpactPath α} (member : traced ∈ report.paths) :
    ∃ number, ∃ pair ∈ analyzer.connectedPairs change snapshot report.affected,
      analyzer.Traces snapshot number pair traced := by
  obtain ⟨all, done, each⟩ := exists_traced analyzer change snapshot coverage
  have same : ImpactPath.sort all = report.paths :=
    Except.ok.inj (done.symm.trans (paths_of_analyze analyzed))
  rw [← same, ImpactPath.sort, List.mem_mergeSort] at member
  obtain ⟨item, isItem, traces⟩ := exists_of_forall₂ each member
  rw [affected_of_analyze analyzed]
  exact ⟨_, item.1, List.mem_of_mem_take (List.fst_mem_of_mem_zipIdx isItem), traces⟩

/-- Every connected pair that the configuration allows for has a path in the report. -/
theorem exists_traces_of_pair
    (analyzed : analyzer.analyze change snapshot coverage now = .ok report)
    {pair : String × AffectedModule α}
    (isPair : pair ∈ (analyzer.connectedPairs change snapshot report.affected).take
      analyzer.config.maxPaths) :
    ∃ number, ∃ traced ∈ report.paths, analyzer.Traces snapshot number pair traced := by
  obtain ⟨all, done, each⟩ := exists_traced analyzer change snapshot coverage
  have same : ImpactPath.sort all = report.paths :=
    Except.ok.inj (done.symm.trans (paths_of_analyze analyzed))
  rw [affected_of_analyze analyzed] at isPair
  obtain ⟨place, here⟩ := List.mem_iff_getElem?.mp isPair
  have isItem : (pair, place) ∈ ((analyzer.connectedPairs change snapshot
      (analyzer.affectedBy change snapshot coverage)).take analyzer.config.maxPaths).zipIdx :=
    List.mem_zipIdx_iff_getElem?.mpr here
  obtain ⟨traced, member, traces⟩ := exists_of_forall₂ each.flip isItem
  refine ⟨_, traced, ?_, traces⟩
  rw [← same, ImpactPath.sort, List.mem_mergeSort]
  exact member

/-- A report holds one path for each of the first connected pairs, as many as the configuration
allows. Each path traces its pair, and if all of them are allowed some path leads to each module at
a distance. -/
theorem analyze_paths_connected
    (analyzed : analyzer.analyze change snapshot coverage now = .ok report) :
    ∃ traced : List (ImpactPath α), traced.Perm report.paths ∧
      traced.length = min analyzer.config.maxPaths
        (analyzer.connectedPairs change snapshot report.affected).length ∧
      List.Forall₂ (fun item path => analyzer.Traces snapshot (item.2 + 1) item.1 path)
        ((analyzer.connectedPairs change snapshot report.affected).take
          analyzer.config.maxPaths).zipIdx traced ∧
      ((analyzer.connectedPairs change snapshot report.affected).length ≤
          analyzer.config.maxPaths →
        ∀ target ∈ report.affected, 1 ≤ target.distance →
          ∃ path ∈ report.paths, path.target = target.path) := by
  have isAffected := affected_of_analyze analyzed
  obtain ⟨_, paths, traces, rfl⟩ := analyze_eq_ok_iff.mp analyzed
  obtain ⟨traced, done, each⟩ := exists_traced analyzer change snapshot coverage
  obtain rfl : ImpactPath.sort traced = paths := Except.ok.inj (done.symm.trans traces)
  have same : traced.Perm (ImpactPath.sort traced) := (List.mergeSort_perm _ _).symm
  rw [isAffected]
  refine ⟨traced, same, ?_, each, ?_⟩
  · simpa using each.length_eq.symm
  · intro room target member far
    obtain ⟨source, changed, connected⟩ := exists_connected member
    have isPair : (source, target) ∈ (analyzer.connectedPairs change snapshot
        (analyzer.affectedBy change snapshot coverage)).take analyzer.config.maxPaths := by
      rw [List.take_of_length_le room]
      exact mem_connectedPairs_iff.mpr ⟨changed, member, far, connected⟩
    obtain ⟨place, inside, here⟩ := List.getElem_of_mem isPair
    obtain ⟨size, each⟩ := List.forall₂_iff_get.mp each
    rw [← List.length_zipIdx] at inside
    have isTraced := each place inside (size ▸ inside)
    refine ⟨_, same.mem_iff.mp (List.get_mem traced ⟨place, size ▸ inside⟩), ?_⟩
    rw [isTraced.target]
    simp [here]

/-- In the chain `a` is connected with the module `b`, which is one step away. -/
theorem exists_pair_chain {report : Report Rat}
    (analyzed : plain.analyze firstChanged chain CoverageSource.none default = .ok report) :
    ∃ pair rest, plain.connectedPairs firstChanged chain report.affected = pair :: rest := by
  obtain ⟨entry, member, _, far⟩ := exists_affectedBy_of_isNearest_one rfl isNearest_chain
  obtain ⟨source, changed, connected⟩ := exists_connected member
  rw [← affected_of_analyze analyzed] at member
  have isPair : (source, entry) ∈ plain.connectedPairs firstChanged chain report.affected :=
    mem_connectedPairs_iff.mpr ⟨changed, member, far.ge, connected⟩
  exact List.exists_cons_of_ne_nil (List.ne_nil_of_mem isPair)

/-- In the chain the first path leads from `a` over the only pair that is one step apart. -/
theorem analyze_paths_chain :
    ∃ report, plain.analyze firstChanged chain CoverageSource.none default = .ok report ∧
      ∃ path ∈ report.paths, path.id = "path_1" ∧ path.source = "a" := by
  obtain ⟨report, analyzed⟩ := exists_report plain CoverageSource.none default checkInputs_chain
  obtain ⟨traced, same, _, each, _⟩ := analyze_paths_connected analyzed
  obtain ⟨pair, rest, listed⟩ := exists_pair_chain analyzed
  have first : pair ∈ plain.connectedPairs firstChanged chain report.affected :=
    listed ▸ List.mem_cons_self
  refine ⟨report, analyzed, ?_⟩
  rw [listed, show plain.config.maxPaths = 99 + 1 from rfl, List.take_succ_cons,
    List.zipIdx_cons] at each
  cases each with
  | cons traces _ =>
      have number : s!"path_{0 + 1}" = "path_1" := by decide
      refine ⟨_, same.mem_iff.mp List.mem_cons_self, traces.id.trans number, ?_⟩
      rw [traces.source]
      exact List.mem_singleton.mp (mem_connectedPairs_iff.mp first).1

end ChangeImpact.Analyzer
