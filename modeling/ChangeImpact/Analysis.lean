/-
This file analyses the impact of a change on the modules of a snapshot.
-/

import ChangeImpact.ChangeSet.Basic
import ChangeImpact.Coverage
import ChangeImpact.Error
import ChangeImpact.Graph.Cycle
import ChangeImpact.Graph.Reach
import ChangeImpact.Impact.Feature
import ChangeImpact.Impact.Score
import ChangeImpact.Report.Basic
import ChangeImpact.Snapshot

namespace ChangeImpact

/-- A valid configuration with its compiled exclude patterns. -/
structure Analyzer (α : Type) [Scalar α] where
  config : Config α
  exclusion : Exclusion
  isValid : config.exclusion? = .ok exclusion

namespace Analyzer

variable {α : Type} [Scalar α]

def ofConfig? (config : Config α) : Except (Error α) (Analyzer α) :=
  match isValid : config.exclusion? with
  | .ok exclusion => .ok ⟨config, exclusion, isValid⟩
  | .error error => .error (.config error)

/-- Whether an exclude pattern covers a module. -/
def shouldExclude (analyzer : Analyzer α) (path : String) : Bool :=
  (analyzer.exclusion.matchingPattern? path).isSome

/-- The dependencies that an analysis follows. -/
def graph (analyzer : Analyzer α) (snapshot : Snapshot) : Graph :=
  .ofDependencies (snapshot.dependencies.filter analyzer.config.follows)

def checkInputs (change : ChangeSet) (snapshot : Snapshot) : Except InputError Unit :=
  if change.modules.isEmpty then .error (.noChangedModules change.id)
  else if snapshot.isEmpty then .error .emptySnapshot
  else
    match change.modules.find? fun path => !snapshot.modules.contains path with
    | some path => .error (.unknownModule path)
    | none => .ok ()

/-- How the change reaches each module within the depth of the configuration. -/
def reaches (analyzer : Analyzer α) (graph : Graph) (seeds : List String) : List Reach :=
  let explore := fun direction =>
    graph.reachable seeds direction analyzer.config.maxDepth analyzer.exclusion.excludes
  Reaches.merge [explore .dependents, explore .dependencies]

/-- The language of a module according to the snapshot, or else to the dependency that reached
it. -/
def languageOf (snapshot : Snapshot) (reach : Reach) : String :=
  ((snapshot.languageOf? reach.path).or (reach.edge.map Dependency.language)).getD ""

def scoreOf (coverage : CoverageSource α) (reach : Reach) : α :=
  Impact.score reach.distance reach.strength (coverage.coverageOf reach.path)

/-- Everything about an affected module that follows from how it was reached. -/
def assess (analyzer : Analyzer α) (change : ChangeSet) (snapshot : Snapshot)
    (coverage : CoverageSource α) (reach : Reach) : AffectedModule α :=
  let kind := reach.edge.map Dependency.kind
  let language := languageOf snapshot reach
  let score := scoreOf coverage reach
  { path := reach.path
    language
    distance := reach.distance
    strength := reach.strength
    kind
    coverage := coverage.coverageOf reach.path
    score
    risk := analyzer.config.riskThresholds.classify score
    tags := Impact.tags reach.distance kind change.kind
    reason := Impact.reason reach.distance reach.strength change.kind
    features := Impact.features reach.path language }

/-- Whether a module is reported: it was changed, or its score is not below the threshold. -/
def isReported (analyzer : Analyzer α) (change : ChangeSet) (coverage : CoverageSource α)
    (reach : Reach) : Bool :=
  change.touches reach.path ||
    !decide (scoreOf coverage reach < analyzer.config.impactThreshold)

def affected (analyzer : Analyzer α) (change : ChangeSet) (snapshot : Snapshot)
    (coverage : CoverageSource α) (reaches : List Reach) : List (AffectedModule α) :=
  AffectedModule.sort ((reaches.filter (analyzer.isReported change coverage)).map
    (analyzer.assess change snapshot coverage))

/-- A path to the modules that depend on the source if there is one, or else to those that it
depends on. -/
def connection? (analyzer : Analyzer α) (graph : Graph) (source target : String) :
    Option (List String × Direction) :=
  [Direction.dependents, .dependencies].findSome? fun direction =>
    (graph.pathAvoiding? source target direction analyzer.exclusion.excludes).map (·, direction)

/-- The connections from each changed module to each affected one, up to `limit`. -/
def connections (analyzer : Analyzer α) (graph : Graph) :
    Nat → List (String × AffectedModule α) →
      List (String × AffectedModule α × List String × Direction)
  | 0, _ => []
  | _, [] => []
  | limit + 1, (source, target) :: rest =>
    match analyzer.connection? graph source target.path with
    | none => analyzer.connections graph (limit + 1) rest
    | some (path, direction) =>
      (source, target, path, direction) :: analyzer.connections graph limit rest

/-- The changed modules, each with each module that was affected without being changed. -/
def pairs (seeds : List String) (affected : List (AffectedModule α)) :
    List (String × AffectedModule α) :=
  seeds.flatMap fun source =>
    (affected.filter fun target => !target.isDirect).map (source, ·)

def describe (graph : Graph) (cycles : List (List String)) (number : Nat)
    (connection : String × AffectedModule α × List String × Direction) :
    Except (Error α) (ImpactPath α) := do
  let (source, target, path, direction) := connection
  let weight ← (graph.pathWeight path direction).mapError .missingEdge
  let length := path.length - 1
  let shape := PathShape.ofPath path (Graph.shareCycle cycles source target.path)
  return {
    id := s!"path_{number}"
    source
    target := target.path
    path
    length
    weight
    risk := ImpactPath.riskScore weight length target.score shape
    shape
    direction
    criticalEdges := graph.criticalEdges path direction
    breakingPoints := graph.breakingPoints path direction }

/-- One path for each connection, numbered in the order of the connections and sorted by risk. -/
def impactPaths (analyzer : Analyzer α) (graph : Graph) (seeds : List String)
    (affected : List (AffectedModule α)) (cycles : List (List String)) :
    Except (Error α) (List (ImpactPath α)) := do
  let connections := analyzer.connections graph analyzer.config.maxPaths (pairs seeds affected)
  let paths ← connections.zipIdx.mapM fun (connection, index) =>
    describe graph cycles (index + 1) connection
  return ImpactPath.sort paths

/-- The report of a change. -/
def analyze [WholeText α] (analyzer : Analyzer α) (change : ChangeSet) (snapshot : Snapshot)
    (coverage : CoverageSource α) (now : Timestamp) : Except (Error α) (Report α) := do
  (checkInputs change snapshot).mapError .input
  let graph := analyzer.graph snapshot
  let seeds := distinct change.modules
  let affected := analyzer.affected change snapshot coverage (analyzer.reaches graph seeds)
  let cycles := graph.cycles (affected.map AffectedModule.path)
  let paths ← analyzer.impactPaths graph seeds affected cycles
  let assessment :=
    RiskAssessment.ofChange change affected paths cycles analyzer.config.riskThresholds
  return {
    change
    summary := .ofAnalysis affected paths assessment.overall
    affected
    paths
    assessment
    tests :=
      if analyzer.config.analyzeTests then some (.ofAffected change.kind affected) else none
    performance := .ofAffected (.ofDependencies snapshot.dependencies) affected
    recommendations := assessment.recommendations change affected
    strategies := assessment.strategies affected
    generatedAt := now }

end Analyzer

end ChangeImpact
