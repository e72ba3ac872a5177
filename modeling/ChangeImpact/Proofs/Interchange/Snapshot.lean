/-
This file shows that snapshots and change sets are exchanged as JSON without loss.
-/

import ChangeImpact.Interchange.Change
import ChangeImpact.Interchange.Snapshot
import ChangeImpact.Proofs.Interchange.Codec
import ChangeImpact.Proofs.Timestamp.Text

namespace ChangeImpact

instance : Choice.Lawful Strength where
  ofName?_name choice := by cases choice <;> rfl

instance : Choice.Lawful ChangeKind where
  ofName?_name choice := by cases choice <;> rfl

namespace DependencyKind

/-- The kind `other` is read back from its own name, which no other kind has. -/
@[simp]
theorem ofJson?_toJson (kind : DependencyKind) : ofJson? (Choice.toJson kind) = some kind := by
  cases kind <;> rfl

def codec : Codec DependencyKind :=
  .plain Choice.toJson ofJson?

theorem isLawful_codec : codec.IsLawful :=
  Codec.isLawful_plain Choice.isSound_toJson ofJson?_toJson

end DependencyKind

namespace Dependency

@[simp]
theorem isSound_toJson (edge : Dependency) : edge.toJson.IsSound := by
  simp [toJson]

theorem ofJson?_toJson (edge : Dependency) : ofJson? edge.toJson = some edge := by
  rw [ofJson?, toJson, Json.bind_record?_record _ (by simp)]
  simp [Record.required, Record.withDefault]

def codec : Codec Dependency :=
  .plain toJson ofJson?

theorem isLawful_codec : codec.IsLawful :=
  Codec.isLawful_plain isSound_toJson ofJson?_toJson

end Dependency

namespace ModuleInfo

@[simp]
theorem isSound_toJson (info : ModuleInfo) : info.toJson.IsSound := by
  simp [toJson]

theorem ofJson?_toJson (info : ModuleInfo) : ofJson? info.toJson = some info := by
  rw [ofJson?, toJson, Json.bind_record?_record _ (by simp)]
  simp [Record.required, Record.withDefault]

def codec : Codec ModuleInfo :=
  .plain toJson ofJson?

theorem isLawful_codec : codec.IsLawful :=
  Codec.isLawful_plain isSound_toJson ofJson?_toJson

end ModuleInfo

namespace Snapshot

theorem isSound_toJson (snapshot : Snapshot) : snapshot.toJson.IsSound := by
  simp [toJson, Json.isSound_ofTable]

theorem ofJson?_toJson (snapshot : Snapshot) : ofJson? snapshot.toJson = some snapshot := by
  have dependencies : Json.list? Dependency.ofJson?
      (.array (snapshot.dependencies.map Dependency.toJson)) = some snapshot.dependencies :=
    Json.list?_map fun edge _ => Dependency.ofJson?_toJson edge
  have modules : Json.table? ModuleInfo.ofJson? (.ofTable ModuleInfo.toJson snapshot.modules) =
      some snapshot.modules :=
    Json.table?_ofTable fun info _ => ModuleInfo.ofJson?_toJson info
  rw [ofJson?, toJson, Json.bind_record?_record _ (by simp)]
  simp [Record.withDefault, dependencies, modules]

def codec : Codec Snapshot :=
  .plain toJson ofJson?

theorem isLawful_codec : codec.IsLawful :=
  Codec.isLawful_plain isSound_toJson ofJson?_toJson

end Snapshot

namespace Timestamp

@[simp]
theorem isSound_toJson (timestamp : Timestamp) : timestamp.toJson.IsSound :=
  .text _

@[simp]
theorem ofJson?_toJson (timestamp : Timestamp) :
    ofJson? timestamp.toJson = some timestamp := by
  rw [ofJson?, toJson, Json.text?_text, Option.bind_some, parse?_text]

end Timestamp

namespace ChangeSet

@[simp]
theorem isSound_toJson (change : ChangeSet) : change.toJson.IsSound := by
  cases present : change.commit <;> simp [toJson, present]

/-- A commit that is not mentioned is read as an absent one. -/
theorem ofJson?_toJson (change : ChangeSet) : ofJson? change.toJson = some change := by
  obtain ⟨id, description, modules, files, kind, language, author, commit, timestamp⟩ := change
  cases commit <;> rw [ofJson?, toJson, Json.bind_record?_record _ (by simp)] <;>
    simp [Record.required, Record.withDefault,
      Record.optional]

def codec : Codec ChangeSet :=
  .plain toJson ofJson?

theorem isLawful_codec : codec.IsLawful :=
  Codec.isLawful_plain isSound_toJson ofJson?_toJson

end ChangeSet

end ChangeImpact
