/-
This file defines the snapshot of a repository that an analysis works on.
-/

import ChangeImpact.Dependency
import ChangeImpact.Table

namespace ChangeImpact

structure ModuleInfo where
  path : String
  language : String
  files : List String
  exports : List String
deriving DecidableEq, Repr, Inhabited

structure Snapshot where
  repository : String
  dependencies : List Dependency
  modules : Table String ModuleInfo
deriving DecidableEq, Repr, Inhabited

namespace Snapshot

def isEmpty (snapshot : Snapshot) : Bool :=
  snapshot.dependencies.isEmpty && snapshot.modules.isEmpty

/-- The language recorded for a module; an empty one counts as none. -/
def languageOf? (snapshot : Snapshot) (path : String) : Option String :=
  ((snapshot.modules.get? path).map ModuleInfo.language).filter (· ≠ "")

end Snapshot

end ChangeImpact
