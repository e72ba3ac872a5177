/-
This file shows that plain values, lists, maps and records are read back from the JSON values that
stand for them.
-/

import ChangeImpact.Json.Record
import ChangeImpact.Proofs.Json.Text
import ChangeImpact.Proofs.Table

namespace ChangeImpact

/-- A traversal that takes each item back from its image gives the items. -/
theorem mapM_map_eq_some {β γ : Type} {write : β → γ} {read? : γ → Option β} {items : List β}
    (restored : ∀ item ∈ items, read? (write item) = some item) :
    (items.map write).mapM read? = some items := by
  induction items with
  | nil => rfl
  | cons item items ih =>
      obtain ⟨first, later⟩ := List.forall_mem_cons.mp restored
      simp [first, ih later]

/-- Every result of a traversal is the result of some item. -/
theorem exists_of_mem_mapM_option {β γ : Type} {read? : γ → Option β} {items : List γ}
    {results : List β} (read : items.mapM read? = some results) {result : β}
    (member : result ∈ results) : ∃ item, read? item = some result := by
  induction items generalizing results with
  | nil =>
      cases read
      cases member
  | cons item items ih =>
      simp only [List.mapM_cons, Option.bind_eq_bind, Option.bind_eq_some_iff, Option.pure_def,
        Option.some.injEq] at read
      obtain ⟨first, firstRead, later, laterRead, rfl⟩ := read
      rcases List.mem_cons.mp member with rfl | inside
      · exact ⟨item, firstRead⟩
      · exact ih laterRead inside

namespace Record

variable {ν β : Type} {record : Record ν} {name : String} {field? : ν → Option β} {value : β}

@[simp]
theorem get?_nil (name : String) : get? (⟨[]⟩ : Record ν) name = none :=
  rfl

@[simp]
theorem get?_cons (name other : String) (value : ν) (fields : List (String × ν)) :
    get? ⟨(name, value) :: fields⟩ other =
      if other = name then some value else get? ⟨fields⟩ other := by
  by_cases same : other = name
  · simp [get?, same]
  · have apart : (other == name) = false := beq_false_of_ne same
    simp only [get?, List.lookup_cons, apart, if_neg same]

theorem exists_of_required (read : record.required name field? = some value) :
    ∃ field, field? field = some value := by
  obtain ⟨field, -, fieldRead⟩ := Option.bind_eq_some_iff.mp read
  exact ⟨field, fieldRead⟩

theorem exists_of_withDefault {default : β}
    (read : record.withDefault name default field? = some value) :
    value = default ∨ ∃ field, field? field = some value := by
  unfold withDefault at read
  split at read
  · exact .inl (Option.some.inj read).symm
  · exact .inr ⟨_, read⟩

end Record

theorem Record.repeats_eq_false {ν : Type} {names : List String} {fields : List (String × ν)}
    (distinct : (fields.map Prod.fst).Nodup) : repeats names fields = false := by
  induction fields with
  | nil => rfl
  | cons field rest ih =>
      obtain ⟨absent, restDistinct⟩ := List.nodup_cons.mp distinct
      have once : (rest.any fun other => other.1 == field.1) = false := by
        refine List.any_eq_false.mpr fun other member same => absent ?_
        exact beq_iff_eq.mp same ▸ List.mem_map_of_mem member
      simp [repeats, once, ih restDistinct]

namespace Json

variable {β : Type} {write : β → Json} {read? : Json → Option β}

@[simp]
theorem text?_text (value : String) : text? (.text value) = some value :=
  rfl

@[simp]
theorem flag?_bool (value : Bool) : flag? (.bool value) = some value :=
  rfl

theorem countBelow?_count {limit value : Nat} (small : value < limit) :
    countBelow? limit (.count value) = some value :=
  Decimal.Numeral.toCount?_ofNat small

theorem list?_map {items : List β} (restored : ∀ item ∈ items, read? (write item) = some item) :
    list? read? (.array (items.map write)) = some items :=
  mapM_map_eq_some restored

@[simp]
theorem list?_texts (values : List String) : list? text? (.texts values) = some values :=
  list?_map fun _ _ => rfl

@[simp]
theorem optional?_text (value : String) :
    optional? read? (.text value) = (read? (.text value)).map some :=
  rfl

theorem optional?_ofOption {value : Option β}
    (restored : ∀ item ∈ value, read? (write item) = some item ∧ write item ≠ .null) :
    optional? read? (.ofOption write value) = some value := by
  cases value with
  | none => rfl
  | some item =>
      obtain ⟨read, present⟩ := restored item rfl
      change optional? read? (write item) = some (some item)
      generalize write item = json at read present
      rw [optional?]
      · simp [read]
      · exact present

theorem table?_ofTable {table : Table String β}
    (restored : ∀ value ∈ table.values, read? (write value) = some value) :
    table? read? (.ofTable write table) = some table := by
  have entries : ((table.entries.map fun entry => (entry.1, write entry.2)).map
      fun member => (some member.1, member.2)).mapM
        (fun member : Option String × Json => do return (← member.1, ← read? member.2)) =
          some table.entries := by
    rw [List.map_map]
    refine mapM_map_eq_some fun entry member => ?_
    simp [restored entry.2 (List.mem_map_of_mem member)]
  simp only [table?, ofTable, record, entries]
  exact congrArg some (Table.ofList_entries table)

/-- A count is read back from its decimal name. -/
theorem countName?_toString {count : Nat} (small : count < Decimal.wordLimit) :
    countName? (toString count) = some count := by
  have digits : (toString count).toList = Nat.toDigits 10 count := Nat.toList_repr
  have sound := Decimal.Numeral.isSound_ofNat count
  have allDigits : (Nat.toDigits 10 count).all Char.isDigit :=
    List.all_eq_true.mpr sound.wholeDigits
  have value := Decimal.Numeral.digitsValue_toDigits count
  have plain : ∃ first rest, Nat.toDigits 10 count = first :: rest ∧ (first ≠ '0' ∨ rest = []) := by
    rcases sound.whole with zero | ⟨first, rest, starts, nonzero⟩
    · exact ⟨'0', [], zero, .inr rfl⟩
    · exact ⟨first, rest, starts, .inl nonzero⟩
  obtain ⟨first, rest, starts, plain⟩ := plain
  rw [starts] at allDigits value
  rw [countName?, digits, starts]
  simp only [value]
  rw [if_pos ⟨allDigits, plain, small⟩]

theorem countTable?_ofCountTable {table : Table Nat β}
    (keys : ∀ key ∈ table.keys, key < Decimal.wordLimit)
    (restored : ∀ value ∈ table.values, read? (write value) = some value) :
    countTable? read? (.ofCountTable write table) = some table := by
  have entries : ((table.entries.map fun entry => (toString entry.1, write entry.2)).map
      fun member => (some member.1, member.2)).mapM
        (fun member : Option String × Json => do
          return (← countName? (← member.1), ← read? member.2)) = some table.entries := by
    rw [List.map_map]
    refine mapM_map_eq_some fun entry member => ?_
    have key : countName? entry.1.repr = some entry.1 :=
      countName?_toString (keys entry.1 (List.mem_map_of_mem member))
    simp [key, restored entry.2 (List.mem_map_of_mem member)]
  simp only [countTable?, ofCountTable, record, entries]
  exact congrArg some (Table.ofList_entries table)

/-- The members of a record with distinct names become its fields. -/
theorem record?_record (names : List String) {members : List (String × Json)}
    (distinct : (members.map Prod.fst).Nodup) :
    record? names (.record members) = some ⟨members⟩ := by
  have fields : (members.map fun member => (some member.1, member.2)).mapM
      (fun member : Option String × Json => member.1.map (·, member.2)) = some members :=
    mapM_map_eq_some fun _ _ => rfl
  simp [record?, record, fields, Record.ofFields?, Record.repeats_eq_false distinct]

/-- What is read from a record is read from its fields. -/
theorem bind_record?_record (names : List String) {members : List (String × Json)}
    (distinct : (members.map Prod.fst).Nodup) (next : Record Json → Option β) :
    (record? names (.record members) >>= next) = next ⟨members⟩ := by
  rw [record?_record names distinct, Option.bind_eq_bind, Option.bind_some]

section Read

variable {json : Json}

theorem exists_of_list? {items : List β} (read : list? read? json = some items) {item : β}
    (member : item ∈ items) : ∃ json, read? json = some item := by
  cases json with
  | array => exact exists_of_mem_mapM_option read member
  | _ => cases read

theorem lt_of_countBelow? {limit value : Nat} (read : countBelow? limit json = some value) :
    value < limit := by
  cases json with
  | number numeral =>
      simp only [countBelow?, Decimal.Numeral.toCount?] at read
      split at read
      next small =>
        rw [← Option.some.inj read]
        simp_all
      next => cases read
  | _ => cases read

theorem lt_of_countName? {name : String} {count : Nat} (read : countName? name = some count) :
    count < Decimal.wordLimit := by
  unfold countName? at read
  split at read
  · cases read
  · simp only at read
    split at read
    next plain => exact Option.some.inj read ▸ plain.2.2
    next => cases read

theorem exists_of_table? {table : Table String β} (read : table? read? json = some table)
    {value : β} (member : value ∈ table.values) : ∃ json, read? json = some value := by
  cases json with
  | object members =>
      simp only [table?, Option.bind_eq_bind, Option.bind_eq_some_iff, Option.pure_def,
        Option.some.injEq] at read
      obtain ⟨entries, entriesRead, rfl⟩ := read
      obtain ⟨entry, inside, rfl⟩ := List.mem_map.mp member
      obtain ⟨item, itemRead⟩ :=
        exists_of_mem_mapM_option entriesRead (Table.mem_of_mem_ofList inside)
      simp only [Option.bind_eq_some_iff, Option.some.injEq] at itemRead
      obtain ⟨name, -, value, valueRead, rfl⟩ := itemRead
      exact ⟨item.2, valueRead⟩
  | _ => cases read

theorem exists_of_countTable? {table : Table Nat β} (read : countTable? read? json = some table)
    {entry : Nat × β} (member : entry ∈ table.entries) :
    entry.1 < Decimal.wordLimit ∧ ∃ json, read? json = some entry.2 := by
  cases json with
  | object members =>
      simp only [countTable?, Option.bind_eq_bind, Option.bind_eq_some_iff, Option.pure_def,
        Option.some.injEq] at read
      obtain ⟨entries, entriesRead, rfl⟩ := read
      obtain ⟨item, itemRead⟩ :=
        exists_of_mem_mapM_option entriesRead (Table.mem_of_mem_ofList member)
      simp only [Option.bind_eq_some_iff, Option.some.injEq] at itemRead
      obtain ⟨name, -, key, keyRead, value, valueRead, rfl⟩ := itemRead
      exact ⟨lt_of_countName? keyRead, item.2, valueRead⟩
  | _ => cases read

theorem lt_of_table? {limit : Nat} {table : Table String Nat}
    (read : table? (countBelow? limit) json = some table) :
    ∀ value ∈ table.values, value < limit := by
  intro value member
  obtain ⟨_, count⟩ := exists_of_table? read member
  exact lt_of_countBelow? count

theorem lt_of_countTable? {limit : Nat} {table : Table Nat Nat}
    (read : countTable? (countBelow? limit) json = some table) :
    (∀ key ∈ table.keys, key < Decimal.wordLimit) ∧ ∀ value ∈ table.values, value < limit := by
  constructor
  · intro key member
    obtain ⟨entry, inside, rfl⟩ := List.mem_map.mp member
    exact (exists_of_countTable? read inside).1
  · intro value member
    obtain ⟨entry, inside, rfl⟩ := List.mem_map.mp member
    obtain ⟨-, _, count⟩ := exists_of_countTable? read inside
    exact lt_of_countBelow? count

end Read

section Sound

attribute [simp] IsSound.null IsSound.bool IsSound.text

@[simp]
theorem isSound_count (value : Nat) : (count value).IsSound :=
  .number (Decimal.Numeral.isSound_ofNat value)

@[simp]
theorem isSound_map_iff {items : List β} :
    (Json.array (items.map write)).IsSound ↔ ∀ item ∈ items, (write item).IsSound := by
  constructor
  · rintro (_ | _ | _ | _ | sound)
    exact List.forall_mem_map.mp sound
  · exact fun sound => .array (List.forall_mem_map.mpr sound)

@[simp]
theorem isSound_texts (values : List String) : (texts values).IsSound := by
  simp [texts]

@[simp]
theorem isSound_ofOption_iff {value : Option β} :
    (ofOption write value).IsSound ↔ ∀ item ∈ value, (write item).IsSound := by
  cases value <;> simp [ofOption]

@[simp]
theorem isSound_record_iff {members : List (String × Json)} :
    (record members).IsSound ↔ ∀ member ∈ members, member.2.IsSound := by
  constructor
  · rintro (_ | _ | _ | _ | _ | ⟨-, sound⟩)
    exact fun member inside => sound (some member.1, member.2) (List.mem_map_of_mem inside)
  · exact fun sound => .object (List.forall_mem_map.mpr fun _ _ => rfl)
      (List.forall_mem_map.mpr sound)

theorem isSound_ofTable {table : Table String β}
    (sound : ∀ value ∈ table.values, (write value).IsSound) : (ofTable write table).IsSound :=
  isSound_record_iff.mpr <| List.forall_mem_map.mpr fun _ member =>
    sound _ (List.mem_map_of_mem member)

theorem isSound_ofCountTable {table : Table Nat β}
    (sound : ∀ value ∈ table.values, (write value).IsSound) :
    (ofCountTable write table).IsSound :=
  isSound_record_iff.mpr <| List.forall_mem_map.mpr fun _ member =>
    sound _ (List.mem_map_of_mem member)

end Sound

end Json

end ChangeImpact
