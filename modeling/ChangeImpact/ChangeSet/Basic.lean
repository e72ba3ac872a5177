/-
This file defines the changes whose impact is analysed.
-/

import ChangeImpact.Choice
import ChangeImpact.Timestamp.Instant

namespace ChangeImpact

inductive ChangeKind where
  | addition
  | modification
  | deletion
deriving DecidableEq, Repr, Inhabited

namespace ChangeKind

instance : Choice ChangeKind where
  all := [addition, modification, deletion]
  name
    | addition => "addition"
    | modification => "modification"
    | deletion => "deletion"

/-- Removing code is taken to be the most dangerous and adding it the least. -/
instance : Graded ChangeKind where
  level
    | addition => 0
    | modification => 1
    | deletion => 2

end ChangeKind

structure ChangeSet where
  id : String
  description : String
  modules : List String
  files : List String
  kind : ChangeKind
  language : String
  author : String
  commit : Option String
  timestamp : Timestamp
deriving DecidableEq, Repr, Inhabited

namespace ChangeSet

/-- A change of the given modules about which nothing else is known. -/
def ofModules (id : String) (kind : ChangeKind) (modules : List String) (timestamp : Timestamp) :
    ChangeSet where
  id := id
  description := ""
  modules := modules
  files := []
  kind := kind
  language := ""
  author := ""
  commit := none
  timestamp := timestamp

def touches (change : ChangeSet) (path : String) : Bool :=
  change.modules.contains path

end ChangeSet

end ChangeImpact
