/-
This file lists what can go wrong in an analysis and in the reading of its inputs.
-/

import ChangeImpact.Config
import ChangeImpact.Decimal.Shortest
import ChangeImpact.Graph.Path

namespace ChangeImpact

/-- Why a change cannot be analysed. -/
inductive InputError where
  | noChangedModules (changeId : String)
  | emptySnapshot
  | unknownModule (path : String)
deriving DecidableEq, Repr

def InputError.message : InputError → String
  | noChangedModules changeId => s!"change set '{changeId}' has no changed modules"
  | emptySnapshot => "dependency result has no modules or dependencies"
  | unknownModule path => s!"changed module '{path}' is not in the dependency result"

/-- Why a file cannot be read or written. -/
inductive FileError where
  | notFound
  | isDirectory
  | notText
  | other (reason : String)
deriving DecidableEq, Repr

def FileError.message : FileError → String
  | notFound => "No such file or directory (os error 2)"
  | isDirectory => "Is a directory (os error 21)"
  | notText => "stream did not contain valid UTF-8"
  | other reason => reason

def ConfigError.message : ConfigError Float → String
  | thresholdOutOfRange => "risk thresholds must be within [0, 10]"
  | thresholdsOutOfOrder thresholds =>
    let low := Decimal.plainText thresholds.low
    let medium := Decimal.plainText thresholds.medium
    let high := Decimal.plainText thresholds.high
    s!"risk thresholds must satisfy low <= medium <= high (got {low} / {medium} / {high})"
  | impactThresholdOutOfRange threshold =>
    s!"impact threshold {Decimal.plainText threshold} is outside [0, 10]"
  | invalidPattern error => error.message
  | unreadable => "the text is not a configuration"

inductive Error (α : Type) where
  | input (error : InputError)
  /-- A path has a step that the graph does not have. -/
  | missingEdge (edge : Graph.MissingEdge)
  | config (error : ConfigError α)
  | file (error : FileError)
  /-- A text is not the JSON of what was expected. -/
  | json
deriving Repr

namespace Error

variable {α : Type}

def message : Error Float → String
  | input error => s!"invalid input: {error.message}"
  | missingEdge edge =>
    s!"no dependency edge from {edge.source} to {edge.target} in the analyzed graph"
  | config error => s!"configuration error: {error.message}"
  | file error => s!"I/O error: {error.message}"
  | json => "JSON error: the text is not of the expected form"

/-- Whether the given change, snapshot or configuration is at fault. -/
def isInputError : Error α → Bool
  | input _ => true
  | config _ => true
  | _ => false

/-- Whether a path was given that does not belong to its graph. -/
def isContractViolation : Error α → Bool
  | missingEdge _ => true
  | _ => false

end Error

end ChangeImpact
