/-
This file shows that the values of written fields are read back from their document.
-/

import ChangeImpact.Proofs.Json.Record
import ChangeImpact.Proofs.Yaml.Node

namespace ChangeImpact.Yaml

namespace Node.Field

/-- A field with a plain value. -/
def plain (field : String × List Char) : Field :=
  ⟨field.1, [.scalar .plain (String.ofList field.2)], ofText .plain (String.ofList field.2),
    spells_scalar _ _⟩

def texts (name : String) (texts : List String) : Field :=
  ⟨name, if texts.isEmpty then [.mark '[', .mark ']'] else texts.flatMap Line.itemTokens,
    .sequence none (texts.map ofItem), spells_texts texts⟩

/-- A field whose value is a record of plain values. -/
def record (name : String) (fields : List (String × List Char)) : Field :=
  ⟨name, .blockMappingStart :: ((fields.map plain).flatMap allTokens ++ [.blockEnd]),
    .mapping none ((fields.map plain).map entry), spells_fields _⟩

theorem allTokens_plain (field : String × List Char) :
    (plain field).allTokens = Line.fieldTokens field.1 field.2 :=
  rfl

theorem allTokens_texts (name : String) (values : List String) :
    (texts name values).allTokens = Line.textsTokens name values :=
  rfl

theorem allTokens_record (name : String) (fields : List (String × List Char)) :
    (record name fields).allTokens = Line.recordTokens name fields := by
  have fieldTokens : (fields.map plain).flatMap allTokens =
      fields.flatMap fun field => Line.fieldTokens field.1 field.2 :=
    List.flatMap_map ..
  change Line.keyTokens name ++ .blockMappingStart ::
    ((fields.map plain).flatMap allTokens ++ [.blockEnd]) = _
  rw [fieldTokens]
  simp [Line.recordTokens]

end Node.Field

namespace Document

open Node

/-- The document of a mapping. -/
theorem parse?_eq {text : String} {fields : List Field}
    (read : tokens? text =
      some (.blockMappingStart :: (fields.flatMap Field.allTokens ++ [.blockEnd]))) :
    parse? text = some (ofRoot (.mapping none (fields.map Field.entry))) := by
  have enough : 4 * (fields.flatMap Field.allTokens).length + 4 ≤
      4 * (Token.blockMappingStart :: (fields.flatMap Field.allTokens ++ [.blockEnd])).length +
        4 := by
    simp only [List.length_cons, List.length_append, List.length_nil]
    omega
  rw [parse?, read]
  change Option.bind (node? _ .block
    ⟨.blockMappingStart :: (fields.flatMap Field.allTokens ++ [.blockEnd]), [],
      Tag.standardHandles⟩) _ = _
  rw [node?_fields ?_ fields enough]
  · rfl
  · exact nofun

section Values

variable {document : Document}

theorem characters?_plain (tag : String) (characters : List Char) :
    document.characters? tag (ofText .plain (String.ofList characters)) = some characters := by
  simp [characters?, resolve?, ofText]

theorem count?_plain {count : Nat} (small : count < Decimal.wordLimit) :
    document.count? (ofText .plain (String.ofList (writeCount count))) = some count := by
  rw [count?, characters?_plain]
  exact count?_writeCount small

theorem flag?_plain (value : Bool) :
    document.flag? (ofText .plain (String.ofList (writeFlag value))) = some value := by
  rw [flag?, characters?_plain]
  exact flag?_writeFlag value

theorem numeric?_plain {number : Float} (restored : ReadsBack number) :
    document.numeric? (ofText .plain (String.ofList (Numeric.write number))) = some number := by
  rw [numeric?, characters?_plain]
  exact restored

theorem list?_texts (texts : List String) :
    document.list? document.text? (.sequence none (texts.map ofItem)) = some texts :=
  mapM_map_eq_some fun _ _ => rfl

/-- Fields of different names are read as a record. -/
theorem record?_fields {names : List String} {fields : List Field}
    (distinct : (fields.map Field.name).Nodup) :
    document.record? names (.mapping none (fields.map Field.entry)) =
      some ⟨fields.map fun field => (field.name, field.node)⟩ := by
  have spelled : fields.map Field.entry =
      (fields.map fun field => (field.name, field.node)).map fun named =>
        (ofText .plain named.1, named.2) := by
    rw [List.map_map]
    rfl
  have once : Record.repeats names (fields.map fun field => (field.name, field.node)) = false :=
    Record.repeats_eq_false (by simpa [Function.comp_def] using distinct)
  have entries : (fields.map Field.entry).mapM (fun entry => do
      return (← document.text? entry.1, entry.2)) =
        some (fields.map fun field => (field.name, field.node)) := by
    rw [spelled]
    exact mapM_map_eq_some fun _ _ => rfl
  change Option.bind ((fields.map Field.entry).mapM fun entry => do
    return (← document.text? entry.1, entry.2)) (Record.ofFields? names) = _
  rw [entries, Option.bind_some, Record.ofFields?, once]
  rfl

end Values

end Document

end ChangeImpact.Yaml
