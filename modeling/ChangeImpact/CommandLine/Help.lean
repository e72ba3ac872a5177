/-
This file writes the help of a program and of its commands.
-/

import ChangeImpact.CommandLine.Grammar

namespace ChangeImpact.CommandLine

variable {α : Type}

namespace Setting

/-- The name with the values that follow it. -/
def usage (setting : Setting) : String :=
  let value := if setting.arity.takesValue then s!" <{setting.valueName}>" else ""
  let more := if setting.arity == .listed || setting.arity == .counter then "..." else ""
  s!"--{setting.name}{value}{more}"

/-- The letter, if there is one, and the name. -/
def title (setting : Setting) : String :=
  match setting.letter with
  | some letter => s!"-{letter}, {setting.usage}"
  | none => s!"    {setting.usage}"

/-- An empty value is shown by two quotes. -/
def description (setting : Setting) : String :=
  match setting.standard with
  | none => setting.help
  | some "" => s!"{setting.help} [default: \"\"]"
  | some value => s!"{setting.help} [default: {value}]"

/-- Settings of the same rank are ordered by their letters, or else by their names. -/
def sortKey (setting : Setting) : String :=
  match setting.letter with
  | some letter => s!"{letter.toLower}0"
  | none => setting.name

end Setting

namespace Parameter

def usage (parameter : Parameter) : String :=
  let more := if parameter.many then "..." else ""
  s!"<{parameter.name}>{more}"

end Parameter

namespace Help

/-- Titles and what they stand for, in two columns. -/
def table (rows : List (String × String)) : String :=
  let width := (rows.map fun row => row.1.length).foldl max 0
  String.join (rows.map fun (title, description) =>
    let gap := String.ofList (List.replicate (width - title.length) ' ')
    s!"  {title}{gap}  {description}\n")

def part (title : String) (rows : List (String × String)) : String :=
  if rows.isEmpty then "" else s!"\n{title}:\n{table rows}"

/-- The settings in order of rank, where the first of a command and the first of the program have
the same rank. -/
def ranked (groups : List (List Setting)) : List Setting :=
  let numbered := groups.flatMap List.zipIdx
  let before (left right : Setting × Nat) : Bool :=
    left.2 < right.2 || left.2 == right.2 && left.1.sortKey ≤ right.1.sortKey
  (numbered.mergeSort before).map Prod.fst

def options (groups : List (List Setting)) : String :=
  part "Options" ((ranked groups ++ [Setting.askHelp, Setting.askVersion]).map fun setting =>
    (setting.title, setting.description))

def page (about usage : String) (parts : List String) : String :=
  s!"{about}\n\nUsage: {usage}\n{String.join parts}"

/-- What the word for help is about. -/
def about : String :=
  "Print this message or the help of the given subcommand(s)"

def ofCommand (program : Program α) (command : Command α) : String :=
  let required := (command.settings.filter Setting.required).map Setting.usage
  let words := [program.name, command.name, "[OPTIONS]"] ++ required ++
    command.parameters.map Parameter.usage
  page command.about (String.intercalate " " words) [
    part "Arguments" (command.parameters.map fun parameter => (parameter.usage, parameter.help)),
    options [program.settings, command.settings]]

def ofProgram (program : Program α) : String :=
  let commands := program.commands.map fun command => (command.name, command.about)
  page program.about s!"{program.name} [OPTIONS] <COMMAND>" [
    part "Commands" (commands ++ [("help", about)]), options [program.settings]]

def ofHelp (program : Program α) : String :=
  page about s!"{program.name} help [COMMAND]..." [
    part "Arguments" [("[COMMAND]...", "Print help for the subcommand(s)")]]

end Help

namespace Program

/-- The name and the version of the program or of a command. -/
def versionText (program : Program α) (command : Option (Command α)) : String :=
  match command with
  | none => s!"{program.name} {program.version}\n"
  | some command => s!"{program.name}-{command.name} {program.version}\n"

end Program

end ChangeImpact.CommandLine
