/-
This file reads and writes change sets as JSON.
-/

import ChangeImpact.ChangeSet.Basic
import ChangeImpact.Interchange.Choice
import ChangeImpact.Timestamp.Text

namespace ChangeImpact

namespace Timestamp

def ofJson? (json : Json) : Option Timestamp :=
  json.text?.bind parse?

def toJson (timestamp : Timestamp) : Json :=
  .text timestamp.text

end Timestamp

namespace ChangeSet

def fieldNames : List String :=
  ["id", "description", "changed_modules", "changed_files", "change_type", "language", "author",
    "commit_hash", "timestamp"]

def ofJson? (json : Json) : Option ChangeSet := do
  let record ← Json.record? fieldNames json
  return {
    id := ← record.required "id" Json.text?
    description := ← record.withDefault "description" "" Json.text?
    modules := ← record.required "changed_modules" (Json.list? Json.text?)
    files := ← record.withDefault "changed_files" [] (Json.list? Json.text?)
    kind := ← record.required "change_type" Choice.ofJson?
    language := ← record.withDefault "language" "" Json.text?
    author := ← record.withDefault "author" "" Json.text?
    commit := ← record.optional "commit_hash" Json.text?
    timestamp := ← record.required "timestamp" Timestamp.ofJson? }

/-- A change set without a commit does not mention one. -/
def toJson (change : ChangeSet) : Json :=
  .record ([("id", .text change.id), ("description", .text change.description),
    ("changed_modules", .texts change.modules), ("changed_files", .texts change.files),
    ("change_type", Choice.toJson change.kind), ("language", .text change.language),
    ("author", .text change.author)] ++
    (change.commit.map fun commit => ("commit_hash", Json.text commit)).toList ++
    [("timestamp", change.timestamp.toJson)])

end ChangeSet

end ChangeImpact
