/-
This file defines dependencies between modules and how strong they are.
-/

import ChangeImpact.Choice
import ChangeImpact.Scalar

namespace ChangeImpact

/-- How tightly a module is coupled to what it depends on. -/
inductive Strength where
  | optional
  | weak
  | strong
deriving DecidableEq, Repr, Inhabited

namespace Strength

instance : Choice Strength where
  all := [optional, weak, strong]
  name
    | optional => "optional"
    | weak => "weak"
    | strong => "strong"

instance : Graded Strength where
  level
    | optional => 0
    | weak => 1
    | strong => 2

variable {α : Type} [Scalar α]

/-- What a dependency of this strength adds to the weight of a path. -/
def weight : Strength → α
  | optional => 0.3
  | weak => 1.0
  | strong => 3.0

/-- The share of an impact that a dependency of this strength passes on. -/
def scoreFactor : Strength → α
  | optional => 0.1
  | weak => 0.33
  | strong => 1.0

end Strength

inductive DependencyKind where
  | imports
  | requires
  | includes
  | inherits
  | composes
  | calls
  | configReference
  | other
deriving DecidableEq, Repr, Inhabited

namespace DependencyKind

instance : Choice DependencyKind where
  all := [imports, requires, includes, inherits, composes, calls, configReference, other]
  name
    | imports => "import"
    | requires => "require"
    | includes => "include"
    | inherits => "inherit"
    | composes => "compose"
    | calls => "call"
    | configReference => "config_reference"
    | other => "other"

/-- Every name stands for a kind; those that are not listed stand for `other`. -/
def ofName (name : String) : DependencyKind :=
  (Choice.ofName? name).getD other

end DependencyKind

/-- The module `dependent` depends on the module `provider`. -/
structure Dependency where
  dependent : String
  provider : String
  kind : DependencyKind
  language : String
  strength : Strength
  external : Bool
deriving DecidableEq, Repr, Inhabited

end ChangeImpact
