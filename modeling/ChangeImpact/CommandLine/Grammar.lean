/-
This file describes what can be said on a command line: commands, their settings and their
parameters.
-/

namespace ChangeImpact.CommandLine

/-- How often a setting is given and what follows it. -/
inductive Arity where
  /-- Nothing follows it, and it is given at most once. -/
  | flag
  /-- Nothing follows it, and it may be repeated. -/
  | counter
  /-- A value follows it, and it is given at most once. -/
  | single
  /-- A value follows it, and it may be repeated. -/
  | repeated
  /-- At least one value follows it, and it may be repeated. -/
  | listed
  /-- It asks for help, whatever else is said. -/
  | help
  /-- It asks for the version, whatever else is said. -/
  | version
deriving DecidableEq, Repr

def Arity.takesValue : Arity → Bool
  | single => true
  | repeated => true
  | listed => true
  | _ => false

/-- A setting is named after two hyphens, or by its letter after one. -/
structure Setting where
  name : String
  letter : Option Char := none
  arity : Arity := .single
  valueName : String := ""
  help : String
  required : Bool := false
  /-- The value that holds where the setting is not given. -/
  standard : Option String := none
  accepts : String → Bool := fun _ => true

/-- A value that is given by its place. -/
structure Parameter where
  name : String
  help : String
  /-- Whether it takes all the values from its place on. -/
  many : Bool := false

/-- What was given for settings and parameters, by their names and in order. A setting without
values is given with none. -/
structure Given where
  entries : List (String × List String)
deriving DecidableEq, Repr

namespace Given

def empty : Given := ⟨[]⟩

def add (given : Given) (name : String) (values : List String) : Given :=
  ⟨given.entries ++ [(name, values)]⟩

def has (given : Given) (name : String) : Bool :=
  given.entries.any fun entry => entry.1 == name

def values (given : Given) (name : String) : List String :=
  given.entries.flatMap fun entry => if entry.1 == name then entry.2 else []

def value? (given : Given) (name : String) : Option String :=
  (given.values name).head?

end Given

/-- A command asks for an `α`. -/
structure Command (α : Type) where
  name : String
  about : String
  settings : List Setting
  /-- All of them have to be given. -/
  parameters : List Parameter
  /-- What is asked for, given what stands before the name of the command and after it. -/
  interpret : (general specific : Given) → α

structure Program (α : Type) where
  name : String
  version : String
  about : String
  /-- The settings that may be given before and after the name of the command. -/
  settings : List Setting
  commands : List (Command α)

namespace Setting

def askHelp : Setting where
  name := "help"
  letter := 'h'
  arity := .help
  help := "Print help"

def askVersion : Setting where
  name := "version"
  letter := 'V'
  arity := .version
  help := "Print version"

end Setting

namespace Program

variable {α : Type}

def command? (program : Program α) (name : String) : Option (Command α) :=
  program.commands.find? fun command => command.name == name

end Program

end ChangeImpact.CommandLine
