/-
This file shows reports, paths and change sets on a terminal.
-/

import ChangeImpact.ChangeSet.Basic
import ChangeImpact.Graph.Basic
import ChangeImpact.Report.Basic
import ChangeImpact.Terminal.Paint
import ChangeImpact.Terminal.Wrap

namespace ChangeImpact.CommandLine

open Terminal

/-- How output is laid out and painted. -/
structure Display where
  palette : Palette
  /-- The width of the terminal. -/
  columns : Nat

namespace Display

variable (display : Display)

def heading (text : String) : String :=
  display.palette.paint (.boldly .white) text

def name (text : String) : String :=
  display.palette.paint (.boldly .cyan) text

def dim (text : String) : String :=
  display.palette.paint .dim text

def coloured (colour : Colour) (text : String) : String :=
  display.palette.paint (.coloured colour) text

def counted (colour : Colour) (count : Nat) : String :=
  display.coloured colour (toString count)

/-- A line that starts an item of a list. -/
def item (text : String) : String :=
  let bullet := display.dim "•"
  s!"    {bullet} {text}"

/-- A line in place of a list without items. -/
def noItems (message : String) : String :=
  s!"    {display.dim message}"

/-- The number of items that a list shows. -/
def maxItems : Nat := 10

/-- A list of items, the later ones of a long list being but counted. -/
def items (texts : List String) (message : String) : List String :=
  if texts.isEmpty then [display.noItems message]
  else
    (texts.take maxItems).map display.item ++
      if maxItems < texts.length then [display.item s!"... and {texts.length - maxItems} more"]
      else []

/-- The width of the sentences of a list, which is what its bullets leave of the terminal. -/
def sentenceWidth : Nat :=
  max (display.columns - 6) 20

/-- A sentence as an item, with its further rows below the first. -/
def sentence (text : String) : List String :=
  match Terminal.wrap display.sentenceWidth text with
  | [] => []
  | first :: rest => display.item first :: rest.map fun row => s!"      {row}"

def sentences (texts : List String) (message : String) : List String :=
  if texts.isEmpty then [display.noItems message] else texts.flatMap display.sentence

def overallRisk (risk : OverallRisk) : String :=
  let label := (Choice.name risk).toUpper
  match risk with
  | .critical => display.palette.paint (.boldly .red) label
  | .high => display.coloured .red label
  | .medium => display.coloured .yellow label
  | .low => display.coloured .green label

def moduleRisk (risk : RiskLevel) : String :=
  let label := Choice.name risk
  match risk with
  | .high => display.coloured .red label
  | .medium => display.coloured .yellow label
  | .low => display.coloured .green label
  | .minimal => display.dim label

def effort (effort : Effort) : String :=
  let label := Choice.name effort
  match effort with
  | .high => display.coloured .red label
  | .medium => display.coloured .yellow label
  | .low => display.coloured .green label

/-- A number with a title. -/
def entry (title value : String) : String :=
  s!"{display.heading title}: {value}"

/-- Entries in one line. -/
def row (parts : List String) : String :=
  let line := String.intercalate "   " parts
  s!"  {line}"

def riskCounts (summary : Summary) : String :=
  let high := display.counted .red summary.highRisk
  let medium := display.counted .yellow summary.mediumRisk
  let low := display.counted .green summary.lowRisk
  s!"{high} high, {medium} medium, {low} low, {summary.minimalRisk} minimal"

/-- The languages of a change that crosses languages, with their numbers of modules. -/
def languages (summary : Summary) : List String :=
  if summary.crossLanguage then
    let counts := summary.languages.entries.map fun (language, count) => s!"{language} ({count})"
    [row [display.entry "Languages" (String.intercalate ", " counts)]]
  else []

def affectedModule (affected : AffectedModule Float) : String :=
  let risk := display.moduleRisk affected.risk
  let score := Decimal.fixedText 2 affected.score
  s!"{affected.path} [{risk}] score {score}, distance {affected.distance}"

def impactPath (path : ImpactPath Float) : String :=
  let steps := String.intercalate " -> " path.path
  let risk := Decimal.fixedText 1 path.risk
  s!"{steps} ({Choice.name path.shape}, risk {risk})"

def strategy (strategy : MitigationStrategy) : String :=
  s!"[{strategy.priority}] {strategy.name}: {strategy.description}"

/-- A part of a report below its title, after an empty line. -/
def part (title : String) (lines : List String) : List String :=
  "" :: s!"  {title}:" :: lines

/-- A part that is left out where there is nothing to show. -/
def partUnlessEmpty (title : String) (texts lines : List String) : List String :=
  if texts.isEmpty then [] else part title lines

def overview (report : Report Float) : List String :=
  let summary := report.summary
  let score := Decimal.fixedText 1 report.assessment.metrics.overall
  let title := display.name report.change.id
  [s!"Impact analysis for {title} ({Choice.name report.change.kind}):", "",
    row [display.entry "Overall risk" (display.overallRisk summary.overallRisk),
      display.entry "Score" s!"{score}/10"],
    row [
      display.entry "Affected modules" (display.counted .green summary.affectedModules),
      display.entry "Impact paths" (toString summary.impactPaths),
      display.entry "Max depth" (toString summary.maxDepth)],
    row [display.entry "Risk levels" (display.riskCounts summary)]] ++
    display.languages summary ++
    [row [display.entry "Estimated effort" (display.effort summary.effort)]] ++
    report.tests.toList.map fun tests =>
      row [display.entry "Test effort" (display.effort tests.effort)]

/-- The lines that sum up a report. -/
def report (report : Report Float) : List String :=
  let modules := report.affected.map display.affectedModule
  let paths := report.paths.map impactPath
  let cycles := report.assessment.cycles.map (String.intercalate ", ")
  let strategies := report.strategies.map strategy
  display.overview report ++
    part (display.heading "Most affected") (display.items modules "(none)") ++
    partUnlessEmpty (display.heading "Riskiest paths") paths (display.items paths "(none)") ++
    partUnlessEmpty (display.palette.paint (.boldly .yellow) "Dependency cycles") cycles
      (display.items cycles "(none)") ++
    part (display.heading "Recommendations")
      (display.sentences report.recommendations "(nothing notable)") ++
    partUnlessEmpty (display.heading "Mitigation strategies") strategies
      (display.sentences strategies "(none)")

def noPath (source target : String) (direction : Direction) : List String :=
  let follows := s!"following {Choice.name direction}"
  [s!"No path from {display.name source} to {display.name target} {follows}"]

def path (source target : String) (path : List String) (weight : Float) : List String :=
  let hops := display.counted .green (path.length - 1)
  let size := Decimal.fixedText 1 weight
  let arrow := display.dim "->"
  let steps := String.intercalate s!" {arrow} " path
  [s!"Path from {display.name source} to {display.name target} ({hops} hops, weight {size}):",
    s!"  {steps}"]

/-- The lines that describe a change set. -/
def changeSet (change : ChangeSet) : List String :=
  let field (title value : String) : String := s!"  {display.dim title}: {value}"
  let count := display.counted .green change.modules.length
  let title := display.heading "Change set"
  let modules := display.heading "Modules"
  [s!"{title} {display.name change.id}",
    field "Description" change.description,
    field "Language" change.language,
    field "Change type" (Choice.name change.kind)] ++
    (if change.author.isEmpty then [] else [field "Author" change.author]) ++
    ["", s!"  {modules} ({count}):"] ++
    display.items change.modules "(no module directories)"

/-- A message about what went wrong. -/
def failure (message : String) : String :=
  let label := display.palette.paint (.boldly .red) "error"
  s!"{label}: {message}"

def cause (message : String) : String :=
  let label := display.dim "caused by"
  s!"  {label}: {message}"

end Display

end ChangeImpact.CommandLine
