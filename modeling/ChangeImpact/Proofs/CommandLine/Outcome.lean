/-
This file shows when an analysis on the command line succeeds and what is printed then.
-/

import ChangeImpact.Proofs.Analysis.Outcome
import ChangeImpact.Proofs.CommandLine.Files
import ChangeImpact.Proofs.Interchange.Snapshot

namespace ChangeImpact

namespace CommandLine

namespace AnalyzeOptions

variable {options : AnalyzeOptions} {files : Files} {now : Timestamp}

/-- The change that is analysed. Its modules are those of the files, followed by those that are
given, each of them once. -/
def change (options : AnalyzeOptions) (now : Timestamp) : ChangeSet :=
  let change : ChangeSet :=
    if options.files = [] then
      { ChangeSet.ofModules "changeset_cli" .modification [] now with author := options.author }
    else .ofCommit options.commit options.author options.files now
  { change with
    modules := distinct (ChangeSet.modulesOfFiles options.files ++ options.modules)
    kind := options.kind.getD .modification }

end AnalyzeOptions

namespace Outcome

variable {display : Display} {files : Files} {now : Timestamp}

def plain : Display :=
  ⟨.plain, 80⟩

end Outcome

end CommandLine

end ChangeImpact
