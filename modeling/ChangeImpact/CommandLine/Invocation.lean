/-
This file defines the commands of the program and what is asked for by calling it.
-/

import ChangeImpact.ChangeSet.Basic
import ChangeImpact.CommandLine.Help
import ChangeImpact.CommandLine.Said
import ChangeImpact.Decimal.Scaled
import ChangeImpact.Graph.Basic

namespace ChangeImpact.CommandLine

/-- The change to analyse and how to analyse it. -/
structure AnalyzeOptions where
  snapshot : String
  modules : List String
  files : List String
  commit : String
  author : String
  kind : Option ChangeKind
  coverage : Option String
  maxDepth : Option Nat
  includeExternal : Bool
deriving DecidableEq, Repr

structure PathOptions where
  snapshot : String
  source : String
  target : String
  direction : Direction
deriving DecidableEq, Repr

structure CommitOptions where
  commit : String
  author : String
  files : List String
deriving DecidableEq, Repr

inductive Invocation where
  | analyze (config : Option String) (options : AnalyzeOptions)
  | path (options : PathOptions)
  | describeCommit (options : CommitOptions)
deriving DecidableEq, Repr

/-- A kind of change by its name or by what was done, in letters of either case. -/
def changeKind? (text : String) : Option ChangeKind :=
  match text.toLower with
  | "addition" => some .addition
  | "add" => some .addition
  | "modification" => some .modification
  | "modify" => some .modification
  | "deletion" => some .deletion
  | "delete" => some .deletion
  | _ => none

/-- A count of the size of a machine word, which a plus sign may precede. -/
def count? (text : String) : Option Nat :=
  let digits := match text.toList with
    | '+' :: rest => rest
    | characters => characters
  let count := Decimal.Numeral.digitsValue digits
  if !digits.isEmpty && digits.all Char.isDigit && count < Decimal.wordLimit then some count
  else none

/-- Paths of files are not empty. -/
def isPath (text : String) : Bool :=
  !text.isEmpty

def snapshotSetting : Setting where
  name := "deps"
  letter := 'd'
  valueName := "DEPS"
  help := "Dependency snapshot (JSON)"
  required := true
  accepts := isPath

/-- The text given for a setting, or one to use without it. -/
def textOf (given : Given) (name : String) (standard : String) : String :=
  (given.value? name).getD standard

def analyzeCommand : Command Invocation where
  name := "analyze"
  about := "Analyze the impact of a change"
  settings := [
    snapshotSetting,
    { name := "module", letter := 'm', arity := .repeated, valueName := "MODULES",
      help := "Changed module (repeatable)" },
    { name := "files", arity := .listed, valueName := "FILES",
      help := "Changed file paths; modules are derived from their directories" },
    { name := "commit", valueName := "COMMIT", standard := "HEAD",
      help := "Commit the changed files belong to" },
    { name := "author", valueName := "AUTHOR", standard := "", help := "Author of the change" },
    { name := "change-type", valueName := "CHANGE_TYPE",
      help := "Kind of change (addition, modification, deletion)",
      accepts := fun text => (changeKind? text).isSome },
    { name := "coverage", valueName := "COVERAGE", accepts := isPath,
      help := "Coverage ratios per module (JSON object of module -> 0..1)" },
    { name := "max-depth", valueName := "MAX_DEPTH", help := "Override the maximum traversal depth",
      accepts := fun text => (count? text).isSome },
    { name := "include-external", arity := .flag,
      help := "Traverse edges into external dependencies" }]
  parameters := []
  interpret general specific :=
    .analyze ((specific.value? "config").or (general.value? "config")) {
      snapshot := textOf specific "deps" ""
      modules := specific.values "module"
      files := specific.values "files"
      commit := textOf specific "commit" "HEAD"
      author := textOf specific "author" ""
      kind := (specific.value? "change-type").bind changeKind?
      coverage := specific.value? "coverage"
      maxDepth := (specific.value? "max-depth").bind count?
      includeExternal := specific.has "include-external" }

def pathCommand : Command Invocation where
  name := "path"
  about := "Show the shortest dependency path between two modules"
  settings := [
    snapshotSetting,
    { name := "dependencies", arity := .flag,
      help := "Follow edges towards dependencies instead of dependents" }]
  parameters := [{ name := "FROM", help := "Start module" }, { name := "TO", help := "End module" }]
  interpret _ specific := .path {
    snapshot := textOf specific "deps" ""
    source := textOf specific "FROM" ""
    target := textOf specific "TO" ""
    direction := if specific.has "dependencies" then .dependencies else .dependents }

def commitCommand : Command Invocation where
  name := "changeset"
  about := "Build a change set from a commit's changed files"
  settings := [
    { name := "commit", valueName := "COMMIT", required := true, help := "Commit hash" },
    { name := "author", valueName := "AUTHOR", standard := "", help := "Commit author" }]
  parameters := [{ name := "FILES", help := "Changed file paths", many := true }]
  interpret _ specific := .describeCommit {
    commit := textOf specific "commit" ""
    author := textOf specific "author" ""
    files := specific.values "FILES" }

def program : Program Invocation where
  name := "ripple"
  version := "0.1.0"
  about := "Change impact analysis over module dependency graphs"
  settings := [
    { name := "config", letter := 'c', valueName := "CONFIG", accepts := isPath,
      help := "Analysis configuration file (YAML)" },
    { name := "verbose", letter := 'v', arity := .counter,
      help := "Verbose output (can be repeated: -v, -vv, -vvv)" }]
  commands := [analyzeCommand, pathCommand, commitCommand]

namespace Invocation

/-- The files that are read to do what is asked for. -/
def inputs : Invocation → List String
  | analyze config options => config.toList ++ options.snapshot :: options.coverage.toList
  | path options => [options.snapshot]
  | describeCommit _ => []

end Invocation

/-- What a command line comes to. -/
inductive Request where
  | invoke (invocation : Invocation)
  /-- Only shows a text. -/
  | display (text : String)
  | refused
deriving DecidableEq, Repr

def Request.ofArguments (arguments : List String) : Request :=
  match Said.read program arguments with
  | .request invocation => .invoke invocation
  | .help none => .display (Help.ofProgram program)
  | .help (some command) => .display (Help.ofCommand program command)
  | .helpOnHelp => .display (Help.ofHelp program)
  | .version command => .display (program.versionText command)
  | .refused => .refused

end ChangeImpact.CommandLine
