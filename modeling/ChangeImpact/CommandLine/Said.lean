/-
This file reads what is said on a command line.
-/

import ChangeImpact.CommandLine.Grammar

namespace ChangeImpact.CommandLine

variable {α : Type}

/-- Why reading ends before everything has been read. -/
inductive Stop where
  | refused
  | help
  | version
deriving DecidableEq, Repr

/-- Where the reading of a command stands. -/
structure Reading where
  settings : List Setting
  /-- The parameters that values can still be given for. -/
  parameters : List Parameter
  given : Given
  /-- A setting whose values are being read. -/
  pending : Option (Setting × List String)
  /-- Whether the next plain argument is a value of that setting. -/
  awaiting : Bool
  /-- Whether two hyphens were met, after which every argument is plain. -/
  plainOnly : Bool

namespace Reading

def initial (settings : List Setting) (parameters : List Parameter) : Reading :=
  ⟨settings ++ [.askHelp, .askVersion], parameters, .empty, none, false, false⟩

/-- Records a setting with its values. -/
def record? (reading : Reading) (setting : Setting) (values : List String) :
    Except Stop Reading :=
  match setting.arity with
  | .help => .error .help
  | .version => .error .version
  | arity =>
    let isOnce := arity == .flag || arity == .single
    if isOnce && reading.given.has setting.name then .error .refused
    else if arity.takesValue && values.isEmpty then .error .refused
    else if !values.all setting.accepts then .error .refused
    else .ok { reading with given := reading.given.add setting.name values }

/-- Records the pending setting, which gets no more values. -/
def settle? (reading : Reading) : Except Stop Reading :=
  match reading.pending with
  | none => .ok reading
  | some (setting, values) =>
    { reading with pending := none, awaiting := false }.record? setting values

/-- A setting that is met, with the value that is attached to it. -/
def meet? (reading : Reading) (setting : Setting) (attached : Option String) :
    Except Stop Reading := do
  match setting.arity.takesValue, attached with
  | true, none =>
    return { ← reading.settle? with pending := some (setting, []), awaiting := true }
  | true, some value => (← reading.settle?).record? setting [value]
  | false, none => (← reading.settle?).record? setting []
  | false, some _ => throw .refused

/-- An argument after two hyphens: a name and, after an equals sign, a value. -/
def long? (reading : Reading) (characters : List Char) : Except Stop Reading :=
  let name := String.ofList (characters.takeWhile (· != '='))
  let attached := match characters.dropWhile (· != '=') with
    | [] => none
    | _ :: value => some (String.ofList value)
  match reading.settings.find? fun setting => setting.name == name with
  | some setting => reading.meet? setting attached
  | none => .error .refused

/-- The letters of an argument after one hyphen. The first letter of a setting that takes a value
is followed by the value, with or without an equals sign. -/
def letters? (reading : Reading) : List Char → Except Stop Reading
  | [] => .ok reading
  | letter :: rest =>
    match reading.settings.find? fun setting => setting.letter == some letter with
    | none => .error .refused
    | some setting =>
      if setting.arity.takesValue then
        reading.meet? setting <| match rest with
          | [] => none
          | '=' :: value => some (String.ofList value)
          | value => some (String.ofList value)
      else do (← reading.meet? setting none).letters? rest

/-- A plain argument: a value of the pending setting if that awaits one, or else of the next
parameter. -/
def plain? (reading : Reading) (argument : String) : Except Stop Reading :=
  match reading.pending with
  | some (setting, values) =>
    if reading.awaiting && !reading.plainOnly then
      .ok { reading with
        pending := some (setting, values ++ [argument])
        awaiting := setting.arity == .listed }
    else do place? (← reading.settle?)
  | none => place? reading
where
  place? (reading : Reading) : Except Stop Reading :=
    match reading.parameters with
    | [] => .error .refused
    | parameter :: rest =>
      .ok { reading with
        given := reading.given.add parameter.name [argument]
        parameters := if parameter.many then parameter :: rest else rest }

/-- Reads an argument of any form. A hyphen alone is plain. -/
def argument? (reading : Reading) (argument : String) : Except Stop Reading :=
  if reading.plainOnly then reading.plain? argument
  else match argument.toList with
    | ['-', '-'] => .ok { reading with plainOnly := true }
    | '-' :: '-' :: characters => reading.long? characters
    | '-' :: letter :: letters => reading.letters? (letter :: letters)
    | _ => reading.plain? argument

/-- What was given, once every argument has been read. -/
def finish? (reading : Reading) (command : Command α) : Except Stop Given := do
  let reading ← reading.settle?
  let isComplete :=
    (command.settings.all fun setting => !setting.required || reading.given.has setting.name) &&
      command.parameters.all fun parameter => reading.given.has parameter.name
  if isComplete then return reading.given else throw .refused

end Reading

/-- What was said. -/
inductive Said (α : Type) where
  | request (request : α)
  /-- Asks for help on the program or on a command. -/
  | help (command : Option (Command α))
  /-- Asks for help on the asking for help. -/
  | helpOnHelp
  | version (command : Option (Command α))
  | refused

namespace Said

def ofStop (command : Option (Command α)) : Stop → Said α
  | .refused => .refused
  | .help => .help command
  | .version => .version command

/-- What is asked with the word for help and the names after it. -/
def ofHelp (program : Program α) : List String → Said α
  | [] => .help none
  | ["help"] => .helpOnHelp
  | [name] =>
    match program.command? name with
    | some command => .help (some command)
    | none => .refused
  | _ => .refused

/-- The arguments of a command, after what was given before its name. -/
def ofCommand (program : Program α) (command : Command α) (general : Reading)
    (arguments : List String) : Said α :=
  let initial := Reading.initial (command.settings ++ program.settings) command.parameters
  match arguments.foldlM Reading.argument? initial >>= (·.finish? command) with
  | .error stop => ofStop command stop
  | .ok specific =>
    match general.settle? with
    | .error stop => ofStop none stop
    | .ok general => .request (command.interpret general.given specific)

/-- The arguments up to the name of a command and after it. -/
def ofArguments (program : Program α) : Reading → List String → Said α
  | _, [] => .refused
  | reading, argument :: rest =>
    let mayName := !reading.awaiting && !reading.plainOnly
    match mayName, argument == "help", program.command? argument with
    | true, true, _ => ofHelp program rest
    | true, _, some command => ofCommand program command reading rest
    | _, _, _ =>
      match reading.argument? argument with
      | .error stop => ofStop none stop
      | .ok reading => ofArguments program reading rest

def read (program : Program α) (arguments : List String) : Said α :=
  ofArguments program (.initial program.settings []) arguments

end Said

end ChangeImpact.CommandLine
