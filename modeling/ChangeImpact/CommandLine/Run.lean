/-
This file carries out what is asked for on the command line.
-/

import ChangeImpact.Analysis
import ChangeImpact.ChangeSet.Commit
import ChangeImpact.CommandLine.Display
import ChangeImpact.CommandLine.Invocation
import ChangeImpact.Interchange.ConfigText
import ChangeImpact.Interchange.Snapshot

namespace ChangeImpact.CommandLine

/-- What is found at the path of a file. -/
abbrev Files := String → Except FileError ByteArray

namespace Files

def text? (files : Files) (path : String) : Except FileError String := do
  match String.fromUTF8? (← files path) with
  | some text => return text
  | none => throw .notText

def config? (files : Files) (path : String) : Except (Error Float) (Config Float) := do
  let text ← (files.text? path).mapError .file
  (Config.ofText? text).mapError .config

/-- What is found after a configuration has been saved at a path that can be written. -/
def saveConfig (files : Files) (path : String) (config : Config Float) : Files := fun other =>
  if other = path then .ok config.toText.toUTF8 else files other

def snapshot? (files : Files) (path : String) : Except (Error Float) Snapshot := do
  let text ← (files.text? path).mapError .file
  (Snapshot.parse? text).elim (throw .json) pure

end Files

/-- Why a command fails. -/
inductive CommandError where
  | noChange
  | badConfig (path : String) (error : Error Float)
  | badSnapshot (path : String) (error : Error Float)
  | unreadableCoverage (path : String) (error : FileError)
  | invalidCoverage (path : String)
  | failed (error : Error Float)

/-- What lies behind an error. -/
def causesOf : Error Float → List String
  | .file error => [error.message]
  | .json => ["the text is not of the expected form"]
  | _ => []

namespace CommandError

def message : CommandError → String
  | noChange => "no change given: pass --module or --files"
  | badConfig path _ => s!"failed to load config {path}"
  | badSnapshot path _ => s!"failed to load dependency snapshot {path}"
  | unreadableCoverage path _ => s!"failed to read coverage file {path}"
  | invalidCoverage path => s!"invalid coverage file {path}"
  | failed error => error.message

/-- The causes, each behind the one before it. -/
def causes : CommandError → List String
  | noChange => []
  | badConfig _ error => error.message :: causesOf error
  | badSnapshot _ error => error.message :: causesOf error
  | unreadableCoverage _ error => [error.message]
  | invalidCoverage _ => ["the text is not a map from modules to numbers"]
  | failed error => causesOf error

end CommandError

namespace AnalyzeOptions

/-- The configuration under the options. External dependencies can only be added. -/
def adjust (options : AnalyzeOptions) (config : Config Float) : Config Float :=
  { config with
    maxDepth := options.maxDepth.getD config.maxDepth
    includeExternal := config.includeExternal || options.includeExternal }

/-- The change of the given files, if there are any, and of the given modules. -/
def change? (options : AnalyzeOptions) (now : Timestamp) : Except CommandError ChangeSet :=
  if options.modules.isEmpty && options.files.isEmpty then .error .noChange
  else
    let change : ChangeSet :=
      if options.files.isEmpty then
        { ChangeSet.ofModules "changeset_cli" .modification [] now with author := options.author }
      else .ofCommit options.commit options.author options.files now
    .ok { change with
      modules := distinct (change.modules ++ options.modules)
      kind := options.kind.getD change.kind }

/-- The coverage of each module; none is known without a file of it. -/
def coverage? (options : AnalyzeOptions) (files : Files) :
    Except CommandError (CoverageSource Float) := do
  match options.coverage with
  | none => return .none
  | some path =>
    let text ← (files.text? path).mapError (.unreadableCoverage path)
    match (Json.parse? text).bind (Json.table? Json.numeric?) with
    | none => throw (.invalidCoverage path)
    | some coverage => return fun path => (coverage.get? path).map CoverageFigure.ofFloat

/-- The report that is asked for. -/
def report? (options : AnalyzeOptions) (config : Option String) (files : Files)
    (now : Timestamp) : Except CommandError (Report Float) := do
  let config ← match config with
    | none => pure default
    | some path => (files.config? path).mapError (.badConfig path)
  let snapshot ← (files.snapshot? options.snapshot).mapError (.badSnapshot options.snapshot)
  let change ← options.change? now
  let coverage ← options.coverage? files
  let analyzer ← (Analyzer.ofConfig? (options.adjust config)).mapError .failed
  (analyzer.analyze change snapshot coverage now).mapError .failed

end AnalyzeOptions

namespace PathOptions

/-- A shortest path over all dependencies, with its weight. -/
def path? (options : PathOptions) (files : Files) :
    Except CommandError (Option (List String × Float)) := do
  let snapshot ← (files.snapshot? options.snapshot).mapError (.badSnapshot options.snapshot)
  let graph := Graph.ofDependencies snapshot.dependencies
  match graph.path? options.source options.target options.direction with
  | none => return none
  | some path =>
    let weight ← (graph.pathWeight path options.direction).mapError fun edge =>
      .failed (.missingEdge edge)
    return some (path, weight)

end PathOptions

/-- What a command shows, line by line. -/
def Invocation.lines? (display : Display) (files : Files) (now : Timestamp) :
    Invocation → Except CommandError (List String)
  | analyze config options => do return display.report (← options.report? config files now)
  | path options => do
    match ← options.path? files with
    | none => return display.noPath options.source options.target options.direction
    | some (found, weight) => return display.path options.source options.target found weight
  | describeCommit options =>
    return display.changeSet (.ofCommit options.commit options.author options.files now)

/-- What a run of the program comes to. -/
structure Outcome where
  status : Nat
  output : String
  error : Option CommandError

namespace Outcome

def ofLines (lines : List String) : Outcome :=
  ⟨0, String.join (lines.map fun line => s!"{line}\n"), none⟩

/-- A failure shows nothing on the output. -/
def ofError (error : CommandError) : Outcome :=
  ⟨1, "", some error⟩

/-- A command line that asks for nothing the program knows. -/
def refusal : Outcome :=
  ⟨2, "", none⟩

def ofRequest (display : Display) (files : Files) (now : Timestamp) : Request → Outcome
  | .invoke invocation =>
    match invocation.lines? display files now with
    | .ok lines => ofLines lines
    | .error error => ofError error
  | .display text => ⟨0, text, none⟩
  | .refused => refusal

/-- What is written about a failure. -/
def errorLines (outcome : Outcome) (display : Display) : List String :=
  match outcome.error with
  | none => []
  | some error => display.failure error.message :: error.causes.map display.cause

end Outcome

end ChangeImpact.CommandLine
