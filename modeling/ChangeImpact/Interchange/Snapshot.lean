/-
This file reads and writes snapshots as JSON.
-/

import ChangeImpact.Interchange.Choice
import ChangeImpact.Json.Text
import ChangeImpact.Snapshot

namespace ChangeImpact

namespace DependencyKind

def ofJson? (json : Json) : Option DependencyKind :=
  json.choice?.map ofName

end DependencyKind

namespace Dependency

def fieldNames : List String :=
  ["from", "to", "type", "language", "strength", "external"]

def ofJson? (json : Json) : Option Dependency := do
  let record ← Json.record? fieldNames json
  return {
    dependent := ← record.required "from" Json.text?
    provider := ← record.required "to" Json.text?
    kind := ← record.required "type" DependencyKind.ofJson?
    language := ← record.withDefault "language" "" Json.text?
    strength := ← record.required "strength" Choice.ofJson?
    external := ← record.withDefault "external" false Json.flag? }

def toJson (edge : Dependency) : Json :=
  .record [("from", .text edge.dependent), ("to", .text edge.provider),
    ("type", Choice.toJson edge.kind), ("language", .text edge.language),
    ("strength", Choice.toJson edge.strength), ("external", .bool edge.external)]

end Dependency

namespace ModuleInfo

def fieldNames : List String :=
  ["module_path", "language", "files", "exports"]

def ofJson? (json : Json) : Option ModuleInfo := do
  let record ← Json.record? fieldNames json
  return {
    path := ← record.required "module_path" Json.text?
    language := ← record.withDefault "language" "" Json.text?
    files := ← record.withDefault "files" [] (Json.list? Json.text?)
    exports := ← record.withDefault "exports" [] (Json.list? Json.text?) }

def toJson (info : ModuleInfo) : Json :=
  .record [("module_path", .text info.path), ("language", .text info.language),
    ("files", .texts info.files), ("exports", .texts info.exports)]

end ModuleInfo

namespace Snapshot

def fieldNames : List String :=
  ["repository", "dependencies", "modules"]

def ofJson? (json : Json) : Option Snapshot := do
  let record ← Json.record? fieldNames json
  return {
    repository := ← record.withDefault "repository" "" Json.text?
    dependencies := ← record.withDefault "dependencies" [] (Json.list? Dependency.ofJson?)
    modules := ← record.withDefault "modules" .empty (Json.table? ModuleInfo.ofJson?) }

def toJson (snapshot : Snapshot) : Json :=
  .record [("repository", .text snapshot.repository),
    ("dependencies", .array (snapshot.dependencies.map Dependency.toJson)),
    ("modules", .ofTable ModuleInfo.toJson snapshot.modules)]

def parse? (text : String) : Option Snapshot := do
  ofJson? (← Json.parse? text)

end Snapshot

end ChangeImpact
