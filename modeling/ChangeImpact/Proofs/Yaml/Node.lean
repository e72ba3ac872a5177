/-
This file shows which nodes are read from the tokens of fields, lists and records.
-/

import ChangeImpact.Proofs.Yaml.Line
import ChangeImpact.Yaml.Document

namespace ChangeImpact.Yaml

namespace Node

/-- The node of a text without anchor and tag. -/
def ofText (style : ScalarStyle) (text : String) : Node :=
  .scalar none none style text

section Nodes

variable {steps : Nat} {place : Place} {rest : List Token} {anchors : List (String × Nat)}
  {handles : List (List Char × List Char)}

/-- The tokens after a field: the next one or the end of the mapping. -/
def EndsField (rest : List Token) : Prop :=
  rest.head? = some .key ∨ rest.head? = some .blockEnd

/-- The node of the text of an entry. -/
def ofItem (text : String) : Node :=
  ofText (styleOf text.toList) text

theorem sameLevelItems?_cons (text : String) :
    sameLevelItems? (steps + 3) ⟨Line.itemTokens text ++ rest, anchors, handles⟩ =
      (sameLevelItems? (steps + 2) ⟨rest, anchors, handles⟩).map fun read =>
        (ofItem text :: read.1, read.2) := by
  rw [sameLevelItems?]
  change (sameLevelItems? (steps + 2) ⟨rest, anchors, handles⟩).bind _ = _
  cases sameLevelItems? (steps + 2) ⟨rest, anchors, handles⟩ <;> rfl

theorem sameLevelItems?_items (texts : List String) (ends : EndsField rest)
    (enough : texts.length + 2 ≤ steps) :
    sameLevelItems? steps ⟨texts.flatMap Line.itemTokens ++ rest, anchors, handles⟩ =
      some (texts.map ofItem, ⟨rest, anchors, handles⟩) := by
  induction texts generalizing steps with
  | nil =>
      obtain ⟨more, rfl⟩ := Nat.exists_eq_add_of_le' enough
      have noEntry : rest.head? ≠ some .entry := by
        rcases ends with next | next <;> simp [next]
      simp [sameLevelItems?, TokenSource.expect?, TokenSource.next?, noEntry]
  | cons text texts ih =>
      obtain ⟨more, rfl⟩ := Nat.exists_eq_add_of_le' enough
      have later : texts.length + 2 ≤ more + texts.length + 2 := by omega
      have count : more + ((text :: texts).length + 2) = more + texts.length + 3 := by
        simp only [List.length_cons]
        omega
      rw [count, List.flatMap_cons, List.append_assoc, sameLevelItems?_cons, ih later]
      rfl

/-- A list that is not empty has an entry for each text. -/
theorem node?_items {texts : List String} (nonempty : texts ≠ []) (ends : EndsField rest)
    (enough : texts.length + 3 ≤ steps) :
    node? steps .ofMapping ⟨texts.flatMap Line.itemTokens ++ rest, anchors, handles⟩ =
      some (.sequence none (texts.map ofItem), ⟨rest, anchors, handles⟩) := by
  obtain ⟨steps, rfl⟩ := Nat.exists_eq_add_of_le' (Nat.le_trans (Nat.le_add_left 1 _) enough)
  obtain ⟨first, others, rfl⟩ := List.exists_cons_of_ne_nil nonempty
  change Option.bind (sameLevelItems? steps
    ⟨(first :: others).flatMap Line.itemTokens ++ rest, anchors, handles⟩) _ = _
  rw [sameLevelItems?_items _ ends (Nat.le_of_succ_le_succ enough)]
  rfl

/-- The tokens of the value of a field and the node that is read from them. -/
structure Spells (tokens : List Token) (node : Node) : Prop where
  present : ∃ first others, tokens = first :: others ∧ first ∉ mappingBounds
  read : ∀ {steps : Nat} {rest : List Token} {anchors : List (String × Nat)}
    {handles : List (List Char × List Char)}, 4 * tokens.length ≤ steps → EndsField rest →
    node? steps .ofMapping ⟨tokens ++ rest, anchors, handles⟩ =
      some (node, ⟨rest, anchors, handles⟩)

theorem spells_scalar (style : ScalarStyle) (text : String) :
    Spells [.scalar style text] (ofText style text) where
  present := ⟨_, _, rfl, by simp [mappingBounds]⟩
  read enough _ := by
    obtain ⟨more, rfl⟩ := Nat.exists_eq_add_of_le' enough
    rfl

theorem spells_texts (texts : List String) :
    Spells (if texts.isEmpty then [.mark '[', .mark ']'] else texts.flatMap Line.itemTokens)
      (.sequence none (texts.map ofItem)) := by
  cases texts with
  | nil =>
      refine ⟨⟨_, _, rfl, by simp [mappingBounds]⟩, fun enough _ => ?_⟩
      obtain ⟨more, rfl⟩ := Nat.exists_eq_add_of_le' enough
      rfl
  | cons first others =>
      refine ⟨⟨_, _, rfl, by simp [mappingBounds]⟩, fun enough ends => ?_⟩
      refine node?_items (List.cons_ne_nil first others) ends ?_
      have entries : ((first :: others).flatMap Line.itemTokens).length =
          2 * (first :: others).length := by
        simp [Line.itemTokens]
        omega
      simp only [List.isEmpty_cons, Bool.false_eq_true, if_false, entries] at enough
      have present : 0 < (first :: others).length := List.length_pos_of_ne_nil (by simp)
      omega

/-- A field of a mapping as it is written. -/
structure Field where
  name : String
  tokens : List Token
  node : Node
  spells : Spells tokens node

namespace Field

def allTokens (field : Field) : List Token :=
  Line.keyTokens field.name ++ field.tokens

def entry (field : Field) : Node × Node :=
  (ofText .plain field.name, field.node)

end Field

theorem valueUnless?_of_spells {tokens : List Token} {node : Node} (spells : Spells tokens node)
    (ends : EndsField rest) (enough : 4 * tokens.length ≤ steps) :
    valueUnless? (steps + 2) mappingBounds .ofMapping
        ⟨.value :: (tokens ++ rest), anchors, handles⟩ =
      some (node, ⟨rest, anchors, handles⟩) := by
  obtain ⟨first, others, rfl, inside⟩ := spells.present
  change nodeUnless? (steps + 1) mappingBounds .ofMapping
    ⟨first :: (others ++ rest), anchors, handles⟩ = _
  rw [nodeUnless?, if_neg]
  · exact spells.read enough ends
  · simpa [TokenSource.meets, TokenSource.next?] using inside

theorem blockEntries?_cons (field : Field) (ends : EndsField rest)
    (enough : 4 * field.tokens.length ≤ steps) :
    blockEntries? (steps + 3) ⟨field.allTokens ++ rest, anchors, handles⟩ =
      (blockEntries? (steps + 2) ⟨rest, anchors, handles⟩).map fun read =>
        (field.entry :: read.1, read.2) := by
  rw [blockEntries?]
  change Option.bind (valueUnless? (steps + 2) mappingBounds .ofMapping
    ⟨.value :: (field.tokens ++ rest), anchors, handles⟩) _ = _
  rw [valueUnless?_of_spells field.spells ends enough]
  change Option.bind (blockEntries? (steps + 2) ⟨rest, anchors, handles⟩) _ = _
  cases blockEntries? (steps + 2) ⟨rest, anchors, handles⟩ <;> rfl

theorem endsField_fields (fields : List Field) :
    EndsField (fields.flatMap Field.allTokens ++ .blockEnd :: rest) := by
  cases fields with
  | nil => exact .inr rfl
  | cons => exact .inl rfl

/-- The fields of a mapping are read up to its end. -/
theorem blockEntries?_fields (fields : List Field)
    (enough : 4 * (fields.flatMap Field.allTokens).length + 3 ≤ steps) :
    blockEntries? steps ⟨fields.flatMap Field.allTokens ++ .blockEnd :: rest, anchors, handles⟩ =
      some (fields.map Field.entry, ⟨rest, anchors, handles⟩) := by
  induction fields generalizing steps with
  | nil =>
      obtain ⟨more, rfl⟩ := Nat.exists_eq_add_of_le' enough
      rfl
  | cons field fields ih =>
      obtain ⟨more, rfl⟩ : ∃ more, steps = more + 3 := ⟨steps - 3, by omega⟩
      rw [List.flatMap_cons, List.length_append, Field.allTokens, List.length_append,
        Line.keyTokens, List.length_cons] at enough
      rw [List.flatMap_cons, List.append_assoc,
        blockEntries?_cons field (endsField_fields fields) (by omega), ih (by omega)]
      rfl

theorem node?_fields (inBlock : place ≠ .flow) (fields : List Field)
    (enough : 4 * (fields.flatMap Field.allTokens).length + 4 ≤ steps) :
    node? steps place ⟨.blockMappingStart :: (fields.flatMap Field.allTokens ++ .blockEnd :: rest),
        anchors, handles⟩ =
      some (.mapping none (fields.map Field.entry), ⟨rest, anchors, handles⟩) := by
  obtain ⟨more, rfl⟩ := Nat.exists_eq_add_of_le' (Nat.le_trans (Nat.le_add_left 1 _) enough)
  cases place with
  | flow => exact absurd rfl inBlock
  | block | ofMapping =>
      change Option.bind (blockEntries? more
        ⟨fields.flatMap Field.allTokens ++ .blockEnd :: rest, anchors, handles⟩) _ = _
      rw [blockEntries?_fields fields (Nat.le_of_succ_le_succ enough)]
      rfl

/-- Fields are the value of a field. -/
theorem spells_fields (fields : List Field) :
    Spells (.blockMappingStart :: (fields.flatMap Field.allTokens ++ [.blockEnd]))
      (.mapping none (fields.map Field.entry)) where
  present := ⟨_, _, rfl, by simp [mappingBounds]⟩
  read := by
    intro steps rest anchors handles enough _
    have within : 4 * (fields.flatMap Field.allTokens).length + 4 ≤ steps := by
      simp only [List.length_cons, List.length_append, List.length_nil] at enough
      omega
    rw [List.cons_append, List.append_assoc]
    refine node?_fields ?_ fields within
    exact nofun

end Nodes

end Node

end ChangeImpact.Yaml
