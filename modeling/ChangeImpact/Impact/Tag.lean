/-
This file defines the tags that say how a module is affected, and the sentence that says why.
-/

import ChangeImpact.ChangeSet.Basic
import ChangeImpact.Dependency

namespace ChangeImpact

inductive ImpactTag where
  | direct
  | immediate
  | transitive
  | compile
  | runtime
  | interface
  | behavior
  | behavioral
  | breaking
  | additive
deriving DecidableEq, Repr, Inhabited

namespace ImpactTag

instance : Choice ImpactTag where
  all := [direct, immediate, transitive, compile, runtime, interface, behavior, behavioral,
    breaking, additive]
  name
    | direct => "direct"
    | immediate => "immediate"
    | transitive => "transitive"
    | compile => "compile"
    | runtime => "runtime"
    | interface => "interface"
    | behavior => "behavior"
    | behavioral => "behavioral"
    | breaking => "breaking"
    | additive => "additive"

def ofDistance : Nat → ImpactTag
  | 0 => direct
  | 1 => immediate
  | _ => transitive

def ofKind? : DependencyKind → Option ImpactTag
  | .imports => some compile
  | .requires => some runtime
  | .inherits => some interface
  | .calls => some behavior
  | _ => none

def ofChange : ChangeKind → ImpactTag
  | .addition => additive
  | .modification => behavioral
  | .deletion => breaking

end ImpactTag

namespace Impact

/-- The tags of a module: one for its distance, one for some kinds of dependency that reach it, and
one for the kind of change. -/
def tags (distance : Nat) (kind : Option DependencyKind) (change : ChangeKind) : List ImpactTag :=
  .ofDistance distance :: (kind.bind ImpactTag.ofKind?).toList ++ [.ofChange change]

def couplingPhrase : Strength → String
  | .strong => "strong coupling"
  | .weak => "weak coupling"
  | .optional => "optional dependency"

def consequencePhrase : ChangeKind → String
  | .deletion => "may break functionality"
  | .modification => "may change behavior"
  | .addition => "may affect interfaces"

def reachPhrase (distance : Nat) : String :=
  if distance = 1 then "Module directly depends on modified code"
  else s!"Module transitively affected through {distance}-degree dependency"

def reason (distance : Nat) (strength : Strength) (change : ChangeKind) : String :=
  if distance = 0 then "Module is directly modified"
  else s!"{reachPhrase distance} ({couplingPhrase strength}) - {consequencePhrase change}"

end Impact

end ChangeImpact
