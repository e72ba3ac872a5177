/-
This file shows how an analysis connects changed modules with affected ones, and that it can
describe every connection.
-/

import ChangeImpact.Proofs.Analysis.Basic
import ChangeImpact.Proofs.Distinct
import ChangeImpact.Proofs.Graph.PathSearch
import ChangeImpact.Proofs.Graph.PathWeight

namespace ChangeImpact.Analyzer

variable {α : Type} [Scalar α]

/-- Two modules are connected one way if a path leads from the first to the second. -/
def Joins (analyzer : Analyzer α) (snapshot : Snapshot) (direction : Direction)
    (source target : String) : Prop :=
  ∃ length, Walk (analyzer.Connects snapshot direction) length source target

/-- Two modules are connected if a path leads from the first to the second in some direction. -/
def Connected (analyzer : Analyzer α) (snapshot : Snapshot) (source target : String) : Prop :=
  ∃ direction, analyzer.Joins snapshot direction source target

/-- This is the connection between the modules of a pair, if there is one. -/
def joined? (analyzer : Analyzer α) (graph : Graph) (pair : String × AffectedModule α) :
    Option (String × AffectedModule α × List String × Direction) :=
  (analyzer.connection? graph pair.1 pair.2.path).map fun connection =>
    (pair.1, pair.2, connection)

/-- A path of a report describes a connection and has its number. Its shape depends on the cycles
among the affected modules. -/
structure Describes (cycles : List (List String)) (number : Nat)
    (connection : String × AffectedModule α × List String × Direction)
    (described : ImpactPath α) : Prop where
  id : described.id = s!"path_{number}"
  source : described.source = connection.1
  target : described.target = connection.2.1.path
  path : described.path = connection.2.2.1
  direction : described.direction = connection.2.2.2
  length : described.length = connection.2.2.1.length - 1
  shape : described.shape = PathShape.ofPath connection.2.2.1
    (Graph.shareCycle cycles connection.1 connection.2.1.path)

variable {analyzer : Analyzer α} {change : ChangeSet} {snapshot : Snapshot}
  {coverage : CoverageSource α} {direction : Direction} {source target : String}
  {path : List String}

theorem leads_connects (analyzer : Analyzer α) (snapshot : Snapshot) (direction : Direction) :
    ((analyzer.graph snapshot).Leads direction fun path =>
      analyzer.exclusion.excludes path = false) = analyzer.Connects snapshot direction := by
  rw [graph_eq, Graph.leads_ofDependencies]
  rfl

/-- Some connection is found exactly between connected modules. -/
theorem isSome_connection?_iff :
    (analyzer.connection? (analyzer.graph snapshot) source target).isSome ↔
      analyzer.Connected snapshot source target := by
  simp only [connection?, List.findSome?_isSome_iff, Option.isSome_map,
    Graph.isSome_pathAvoiding?_iff, leads_connects]
  constructor
  · rintro ⟨direction, _, joins⟩
    exact ⟨direction, joins⟩
  · rintro ⟨direction, joins⟩
    exact ⟨direction, by cases direction <;> simp, joins⟩

instance : Decidable (analyzer.Connected snapshot source target) :=
  decidable_of_iff _ isSome_connection?_iff

/-- A connection is a shortest route, and it leads to dependents if any path does. -/
theorem shortestRoute_of_connection?
    (found : analyzer.connection? (analyzer.graph snapshot) source target =
      some (path, direction)) :
    ShortestRoute (analyzer.Connects snapshot direction) source target path ∧
      (direction = .dependents ↔ analyzer.Joins snapshot .dependents source target) := by
  obtain ⟨earlier, way, later, order, connects, fails⟩ := List.findSome?_eq_some_iff.mp found
  obtain ⟨modules, isFound, same⟩ := Option.map_eq_some_iff.mp connects
  obtain ⟨rfl, rfl⟩ := Prod.mk.inj same
  have route := Graph.shortestRoute_of_pathAvoiding? isFound
  rw [leads_connects] at route
  refine ⟨route, ?_, fun joins => ?_⟩
  · rintro rfl
    obtain ⟨length, _, walk⟩ := route.toRoute.walk
    exact ⟨length, walk⟩
  · rw [Joins, ← leads_connects, ← Graph.isSome_pathAvoiding?_iff] at joins
    -- The dependents are tried first, so that no direction has failed before.
    cases earlier with
    | nil => exact (List.cons.inj order).1.symm
    | cons first rest =>
        obtain rfl : Direction.dependents = first := (List.cons.inj order).1
        have absent := Option.map_eq_none_iff.mp (fails _ List.mem_cons_self)
        simp [absent] at joins

/-- The connections are those of the first pairs that have one. -/
theorem connections_eq_take (analyzer : Analyzer α) (graph : Graph) (limit : Nat)
    (pairs : List (String × AffectedModule α)) :
    analyzer.connections graph limit pairs =
      (pairs.filterMap (analyzer.joined? graph)).take limit := by
  induction pairs generalizing limit with
  | nil => cases limit <;> simp [connections]
  | cons pair rest ih =>
      cases limit with
      | zero => simp [connections]
      | succ limit =>
          rw [connections, List.filterMap_cons]
          cases found : analyzer.connection? graph pair.1 pair.2.path with
          | none => simp [joined?, found, ih]
          | some connection => simp [joined?, found, ih]

/-- Every connection that is listed was found between its ends. -/
theorem connection?_of_mem {limit : Nat} {pairs : List (String × AffectedModule α)}
    {affected : AffectedModule α}
    (member : (source, affected, path, direction) ∈
      analyzer.connections (analyzer.graph snapshot) limit pairs) :
    analyzer.connection? (analyzer.graph snapshot) source affected.path =
      some (path, direction) := by
  rw [connections_eq_take] at member
  obtain ⟨pair, _, found⟩ := List.mem_filterMap.mp (List.mem_of_mem_take member)
  obtain ⟨connection, connects, same⟩ := Option.map_eq_some_iff.mp found
  simp only [Prod.mk.injEq] at same
  obtain ⟨rfl, rfl, rfl⟩ := same
  exact connects

omit [Scalar α] in
/-- Every seed is paired with every module at some distance from the change. -/
theorem mem_pairs_iff {seeds : List String} {affected : List (AffectedModule α)}
    {pair : String × AffectedModule α} :
    pair ∈ pairs seeds affected ↔
      pair.1 ∈ seeds ∧ pair.2 ∈ affected ∧ 1 ≤ pair.2.distance := by
  obtain ⟨source, target⟩ := pair
  simp [pairs, AffectedModule.isDirect, Nat.one_le_iff_ne_zero]

/-- Its ends are one of the given pairs. -/
theorem ends_mem_of_mem {graph : Graph} {limit : Nat} {pairs : List (String × AffectedModule α)}
    {connection : String × AffectedModule α × List String × Direction}
    (member : connection ∈ analyzer.connections graph limit pairs) :
    (connection.1, connection.2.1) ∈ pairs := by
  rw [connections_eq_take] at member
  obtain ⟨pair, isPair, found⟩ := List.mem_filterMap.mp (List.mem_of_mem_take member)
  obtain ⟨_, _, rfl⟩ := Option.map_eq_some_iff.mp found
  exact isPair

/-- A connection can be weighed. -/
theorem exists_weight_of_connection?
    (found : analyzer.connection? (analyzer.graph snapshot) source target =
      some (path, direction)) :
    ∃ weight : α, (analyzer.graph snapshot).pathWeight path direction = .ok weight := by
  have route := (shortestRoute_of_connection? found).1.toRoute
  rw [← leads_connects] at route
  exact Graph.exists_pathWeight route

/-- A connection can be described. -/
theorem exists_describe {affected : AffectedModule α}
    (found : analyzer.connection? (analyzer.graph snapshot) source affected.path =
      some (path, direction)) (cycles : List (List String)) (number : Nat) :
    ∃ described : ImpactPath α,
      describe (analyzer.graph snapshot) cycles number (source, affected, path, direction) =
        .ok described ∧
      Describes cycles number (source, affected, path, direction) described := by
  obtain ⟨weight, weighed⟩ := exists_weight_of_connection? found
  simp only [describe, weighed, Except.mapError, bind, Except.bind, pure, Except.pure,
    Except.ok.injEq, exists_eq_left']
  exact ⟨rfl, rfl, rfl, rfl, rfl, rfl, rfl⟩

/-- A description depends on nothing but the strongest dependencies along the path. -/
theorem describe_congr {graph another : Graph}
    {connection : String × AffectedModule α × List String × Direction}
    (same : ∀ step ∈ Graph.steps connection.2.2.1,
      another.edgeBetween step.1 step.2 connection.2.2.2 =
        graph.edgeBetween step.1 step.2 connection.2.2.2)
    (cycles : List (List String)) (number : Nat) :
    describe another cycles number connection = describe graph cycles number connection := by
  have strengths := fun step member =>
    congrArg (Option.map Dependency.strength) (same step member)
  simp only [describe, Graph.pathWeight_congr strengths, Graph.criticalEdges,
    Graph.breakingPoints, Graph.stepsWhere_congr same]

/-- If an action succeeds on each item of a list, it succeeds on all of them in turn. -/
theorem exists_mapM {β γ ε : Type} {items : List β} {action : β → Except ε γ}
    {gives : β → γ → Prop}
    (each : ∀ item ∈ items, ∃ result, action item = .ok result ∧ gives item result) :
    ∃ results, items.mapM action = .ok results ∧ List.Forall₂ gives items results := by
  induction items with
  | nil => exact ⟨[], rfl, .nil⟩
  | cons item rest ih =>
      obtain ⟨result, done, isGiven⟩ := each item List.mem_cons_self
      obtain ⟨results, others, areGiven⟩ :=
        ih fun later member => each later (List.mem_cons_of_mem _ member)
      refine ⟨result :: results, ?_, .cons isGiven areGiven⟩
      rw [List.mapM_cons, done, others]
      rfl

/-- Every result of an action on the items of a list is that of some item. -/
theorem exists_of_mem_mapM {β γ ε : Type} {items : List β} {action : β → Except ε γ}
    {results : List γ} (done : items.mapM action = .ok results) {result : γ}
    (member : result ∈ results) : ∃ item ∈ items, action item = .ok result := by
  induction items generalizing results with
  | nil =>
      obtain rfl : [] = results := Except.ok.inj done
      cases member
  | cons item rest ih =>
      rw [List.mapM_cons] at done
      cases first : action item with
      | error error =>
          rw [first] at done
          cases done
      | ok here =>
          cases others : rest.mapM action with
          | error error =>
              rw [first, others] at done
              cases done
          | ok later =>
              rw [first, others] at done
              obtain rfl : here :: later = results := Except.ok.inj done
              rcases List.mem_cons.mp member with rfl | isLater
              · exact ⟨item, List.mem_cons_self, first⟩
              · obtain ⟨other, isOther, acted⟩ := ih others isLater
                exact ⟨other, List.mem_cons_of_mem _ isOther, acted⟩

/-- An action that is the same on each item of a list does the same on all of them in turn. -/
theorem mapM_congr {β γ ε : Type} {items : List β} {action other : β → Except ε γ}
    (same : ∀ item ∈ items, action item = other item) : items.mapM action = items.mapM other := by
  induction items with
  | nil => rfl
  | cons item rest ih =>
      rw [List.mapM_cons, List.mapM_cons, same item List.mem_cons_self,
        ih fun later member => same later (List.mem_cons_of_mem _ member)]

/-- All connections can be described, and the paths are those descriptions in another order. -/
theorem exists_impactPaths (analyzer : Analyzer α) (snapshot : Snapshot) (seeds : List String)
    (affected : List (AffectedModule α)) (cycles : List (List String)) :
    ∃ described, analyzer.impactPaths (analyzer.graph snapshot) seeds affected cycles =
        .ok (ImpactPath.sort described) ∧
      List.Forall₂ (fun item path => Describes cycles (item.2 + 1) item.1 path)
        (analyzer.connections (analyzer.graph snapshot) analyzer.config.maxPaths
          (pairs seeds affected)).zipIdx described := by
  let listed := analyzer.connections (analyzer.graph snapshot) analyzer.config.maxPaths
    (pairs seeds affected)
  have each : ∀ item ∈ listed.zipIdx, ∃ path,
      describe (analyzer.graph snapshot) cycles (item.2 + 1) item.1 = .ok path ∧
        Describes cycles (item.2 + 1) item.1 path := fun item member =>
    exists_describe (connection?_of_mem (List.fst_mem_of_mem_zipIdx member)) cycles (item.2 + 1)
  obtain ⟨described, done, describes⟩ := exists_mapM each
  refine ⟨described, ?_, describes⟩
  change (listed.zipIdx.mapM fun item =>
    describe (analyzer.graph snapshot) cycles (item.2 + 1) item.1) >>= _ = _
  rw [done]
  rfl

/-- Every path that is traced is the description of some connection. -/
theorem exists_describe_of_mem {graph : Graph} {seeds : List String}
    {affected : List (AffectedModule α)} {cycles : List (List String)} {paths : List (ImpactPath α)}
    (traced : analyzer.impactPaths graph seeds affected cycles = .ok paths) {found : ImpactPath α}
    (member : found ∈ paths) :
    ∃ number connection, describe graph cycles number connection = .ok found := by
  let listed := analyzer.connections graph analyzer.config.maxPaths (pairs seeds affected)
  change (listed.zipIdx.mapM fun item => describe graph cycles (item.2 + 1) item.1) >>= _ = _
    at traced
  cases done : listed.zipIdx.mapM fun item => describe graph cycles (item.2 + 1) item.1 with
  | error error =>
      rw [done] at traced
      cases traced
  | ok described =>
      rw [done] at traced
      obtain rfl : ImpactPath.sort described = paths := Except.ok.inj traced
      obtain ⟨item, _, describes⟩ := exists_of_mem_mapM done (List.mem_mergeSort.mp member)
      exact ⟨_, item.1, describes⟩

/-- A description weighs its own path and tells the risk of that weight. -/
theorem weight_of_describe {graph : Graph} {cycles : List (List String)} {number : Nat}
    {connection : String × AffectedModule α × List String × Direction} {described : ImpactPath α}
    (describes : describe graph cycles number connection = .ok described) :
    graph.pathWeight described.path described.direction = .ok described.weight ∧
      described.length = described.path.length - 1 ∧
      described.risk = ImpactPath.riskScore described.weight described.length
        connection.2.1.score described.shape := by
  obtain ⟨source, target, path, direction⟩ := connection
  cases weighed : (graph.pathWeight path direction : Except _ α) with
  | error missing =>
      rw [describe, weighed] at describes
      cases describes
  | ok weight =>
      rw [describe, weighed] at describes
      obtain rfl := Except.ok.inj describes
      exact ⟨weighed, rfl, rfl⟩

end ChangeImpact.Analyzer
