/-
This file defines what it takes for values to be exchanged as JSON without loss, and shows it for
named choices and lists.
-/

import ChangeImpact.Interchange.Choice
import ChangeImpact.Proofs.Decimal.Finite
import ChangeImpact.Proofs.Decimal.Shortest
import ChangeImpact.Proofs.Json.Record

namespace ChangeImpact

namespace Json

/-- The numeral that a number is written as stands for the same number. -/
def ReadsBack (number : Float) : Prop :=
  numeric? (ofNumeric number) = some number

@[simp]
theorem isSound_ofNumeric (number : Float) : (ofNumeric number).IsSound := by
  refine isSound_ofOption_iff.mpr fun numeral written => .number ?_
  obtain ⟨parts, found, rfl⟩ := Option.map_eq_some_iff.mp written
  exact floatStyle.isSound_layout (Decimal.Binary64.inRange_of_ofBits? found)

theorem isFinite_of_numeric? {json : Json} {number : Float}
    (read : numeric? json = some number) : number.isFinite := by
  cases json with
  | number numeral => exact Decimal.Numeral.isFinite_of_toFloat? read
  | _ => cases read

end Json

namespace Record

variable {record : Record Json} {name : String}

theorem lt_of_required {limit value : Nat}
    (read : record.required name (Json.countBelow? limit) = some value) : value < limit := by
  obtain ⟨_, given⟩ := exists_of_required read
  exact Json.lt_of_countBelow? given

theorem isFinite_of_required {number : Float}
    (read : record.required name Json.numeric? = some number) : number.isFinite := by
  obtain ⟨_, given⟩ := exists_of_required read
  exact Json.isFinite_of_numeric? given

/-- A number that has a finite default is finite, whether it is given or not. -/
theorem isFinite_of_withDefault {standard number : Float} (finite : standard.isFinite)
    (read : record.withDefault name standard Json.numeric? = some number) : number.isFinite := by
  rcases exists_of_withDefault read with rfl | ⟨_, given⟩
  · exact finite
  · exact Json.isFinite_of_numeric? given

end Record

namespace Choice

/-- Every value is found by its name. -/
class Lawful (α : Type) [Choice α] : Prop where
  ofName?_name : ∀ choice : α, ofName? (name choice) = some choice

variable {α : Type} [Choice α]

@[simp]
theorem isSound_toJson (choice : α) : (toJson choice).IsSound :=
  .text _

@[simp]
theorem ofJson?_toJson [Lawful α] (choice : α) : ofJson? (toJson choice) = some choice :=
  Lawful.ofName?_name choice

end Choice

/-- How the values of a type are written as JSON and read from it. -/
structure Codec (β : Type) where
  toJson : β → Json
  ofJson? : Json → Option β
  /-- The counts of a value are within the bounds of their types. -/
  Fits : β → Prop := fun _ => True
  numbers : β → List Float := fun _ => []

namespace Codec

variable {β : Type}

/-- Values that fit are read back from what is written for them if their numbers are, and all values
that are read fit and have finite numbers. -/
structure IsLawful (codec : Codec β) : Prop where
  isSound : ∀ value, (codec.toJson value).IsSound
  restores : ∀ value, codec.Fits value → (∀ number ∈ codec.numbers value, Json.ReadsBack number) →
    codec.ofJson? (codec.toJson value) = some value
  fits : ∀ {json value}, codec.ofJson? json = some value → codec.Fits value
  finite : ∀ {json value}, codec.ofJson? json = some value →
    ∀ number ∈ codec.numbers value, number.isFinite

/-- The JSON text of a value. -/
def encode (codec : Codec β) (value : β) : String :=
  (codec.toJson value).print

/-- The value that a JSON text gives. -/
def decode? (codec : Codec β) (text : String) : Option β :=
  (Json.parse? text).bind codec.ofJson?

theorem IsLawful.restores_text {codec : Codec β} (lawful : codec.IsLawful) {value : β}
    (fits : codec.Fits value) (exact : ∀ number ∈ codec.numbers value, Json.ReadsBack number) :
    codec.decode? (codec.encode value) = some value := by
  rw [decode?, encode, Json.parse?_print (lawful.isSound value), Option.bind_some]
  exact lawful.restores value fits exact

/-- What a text gives is written as a text that gives the same. -/
theorem IsLawful.restores_text_of_decode? {codec : Codec β} (lawful : codec.IsLawful)
    {value : β} {text : String}
    (exact : ∀ number ∈ codec.numbers value, number.isFinite → Json.ReadsBack number)
    (read : codec.decode? text = some value) : codec.decode? (codec.encode value) = some value := by
  obtain ⟨json, -, given⟩ := Option.bind_eq_some_iff.mp read
  exact lawful.restores_text (lawful.fits given)
    fun number member => exact number member (lawful.finite given number member)

/-- Values without bounded counts and numbers. -/
def plain (toJson : β → Json) (ofJson? : Json → Option β) : Codec β where
  toJson := toJson
  ofJson? := ofJson?

theorem isLawful_plain {toJson : β → Json} {ofJson? : Json → Option β}
    (isSound : ∀ value, (toJson value).IsSound)
    (restores : ∀ value, ofJson? (toJson value) = some value) :
    (plain toJson ofJson?).IsLawful where
  isSound := isSound
  restores value _ _ := restores value
  fits _ := trivial
  finite _ := by simp [plain]

/-- A choice is written as its name. -/
def choice (β : Type) [Choice β] : Codec β :=
  plain Choice.toJson Choice.ofJson?

theorem isLawful_choice (β : Type) [Choice β] [Choice.Lawful β] : (choice β).IsLawful :=
  isLawful_plain Choice.isSound_toJson Choice.ofJson?_toJson

/-- A list is written item by item. -/
def list (codec : Codec β) : Codec (List β) where
  toJson items := .array (items.map codec.toJson)
  ofJson? := Json.list? codec.ofJson?
  Fits items := ∀ item ∈ items, codec.Fits item
  numbers items := items.flatMap codec.numbers

theorem IsLawful.list {codec : Codec β} (lawful : codec.IsLawful) : codec.list.IsLawful where
  isSound _ := Json.isSound_map_iff.mpr fun item _ => lawful.isSound item
  restores _ fit exact := Json.list?_map fun item member =>
    lawful.restores item (fit item member) fun number inside =>
      exact number (List.mem_flatMap.mpr ⟨item, member, inside⟩)
  fits read item member := by
    obtain ⟨_, itemRead⟩ := Json.exists_of_list? read member
    exact lawful.fits itemRead
  finite read number inside := by
    obtain ⟨_, member, found⟩ := List.mem_flatMap.mp inside
    obtain ⟨_, itemRead⟩ := Json.exists_of_list? read member
    exact lawful.finite itemRead number found

end Codec

end ChangeImpact
