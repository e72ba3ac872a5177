/-
This file shows that of several ways to reach a module the best one is kept.
-/

import ChangeImpact.Graph.Reach
import Mathlib.Data.List.Induction
import Mathlib.Data.List.Nodup

namespace ChangeImpact

/-- How far away a module was reached and how strongly, whichever dependency reached it. -/
def Reach.standing (reach : Reach) : String × Nat × Strength :=
  (reach.path, reach.distance, reach.strength)

/-- A record improves on another exactly if it is nearer, or as near and stronger. -/
theorem Reach.isImprovedBy_iff (reach other : Reach) :
    reach.isImprovedBy other = true ↔ other.distance < reach.distance ∨
      other.distance = reach.distance ∧
        Graded.level reach.strength < Graded.level other.strength := by
  have lt : reach.strength < other.strength ↔
      Graded.level reach.strength < Graded.level other.strength := Iff.rfl
  simp [isImprovedBy, lt]

/-- A record that improves on another is not improved by what the other was as good as. -/
theorem Reach.isImprovedBy_of_better {reach better other : Reach}
    (improved : reach.isImprovedBy better = true) (best : reach.isImprovedBy other = false) :
    better.isImprovedBy other = false := by
  rw [← Bool.not_eq_true, isImprovedBy_iff] at best ⊢
  rw [isImprovedBy_iff] at improved
  omega

@[simp] theorem Reach.isImprovedBy_self (reach : Reach) : reach.isImprovedBy reach = false := by
  rw [← Bool.not_eq_true, isImprovedBy_iff]
  omega

namespace Reaches

/-- Takes one more record into account in a list of records. -/
def gather (refused : String → Bool) (records : List Reach) (reach : Reach) : List Reach :=
  if reach.path ∈ records.map Reach.path then
    records.map fun record =>
      if record.path = reach.path ∧ record.isImprovedBy reach then reach else record
  else if refused reach.path then records
  else records ++ [reach]

/-- The slots name exactly the places of the records. -/
def Indexed (reaches : Reaches) : Prop :=
  ∀ path slot, reaches.slots[path]? = some slot ↔
    reaches.records[slot]?.map Reach.path = some path

theorem indexed_empty : empty.Indexed := by
  simp [Indexed, empty]

/-- A new record is found at the place behind all others. -/
theorem indexed_append {reaches : Reaches} (indexed : reaches.Indexed) {reach : Reach}
    (isNew : reaches.slots[reach.path]? = none) : (reaches.append reach).Indexed := by
  intro path slot
  simp only [append, Std.HashMap.getElem?_insert, Array.getElem?_push]
  by_cases same : reach.path = path
  · subst same
    simp only [beq_self_eq_true, if_true, Option.some.injEq]
    by_cases last : slot = reaches.records.size
    · simp [last]
    · have other := indexed reach.path slot
      simp [isNew] at other
      simpa [last, Ne.symm last] using other
  · simp only [beq_iff_eq, same, if_false, indexed path slot]
    by_cases last : slot = reaches.records.size
    · simp [last, same]
    · simp [last]

/-- An improvement leaves every module in its place. -/
theorem indexed_improve {reaches : Reaches} (indexed : reaches.Indexed) {reach : Reach}
    {place : Nat} (found : reaches.slots[reach.path]? = some place) :
    (reaches.improve place reach).Indexed := by
  intro path slot
  rw [improve, indexed path slot, Array.getElem?_modify]
  by_cases here : place = slot
  · subst here
    rw [indexed] at found
    cases record : reaches.records[place]? with
    | none => simp
    | some old =>
        rw [record] at found
        simp only [Option.map_some, Option.some.injEq] at found
        simp only [if_true, Option.map_some, Option.some.injEq]
        split <;> simp [found]
  · simp [here]

theorem mem_paths_iff {reaches : Reaches} (indexed : reaches.Indexed) (path : String) :
    path ∈ reaches.records.toList.map Reach.path ↔ ∃ slot, reaches.slots[path]? = some slot := by
  simp only [indexed path, List.mem_iff_getElem?, List.getElem?_map, Array.getElem?_toList]

/-- The array of records with its slots behaves like the list of records. -/
theorem toList_meet {reaches : Reaches} (indexed : reaches.Indexed) (refused : String → Bool)
    (reach : Reach) : (reaches.meet refused reach).Indexed ∧
      (reaches.meet refused reach).records.toList =
        gather refused reaches.records.toList reach := by
  have known := mem_paths_iff indexed reach.path
  unfold meet gather
  split
  next place found =>
    refine ⟨indexed_improve indexed found, ?_⟩
    rw [if_pos (known.mpr ⟨place, found⟩)]
    apply List.ext_getElem?
    intro slot
    simp only [improve, Array.getElem?_toList, Array.getElem?_modify, List.getElem?_map]
    have unique := indexed reach.path slot
    rw [found] at unique
    cases record : reaches.records[slot]? with
    | none => simp
    | some old =>
        rw [record] at unique
        simp only [Option.map_some, Option.some.injEq] at unique
        by_cases here : place = slot
        · simp [here, unique.mp here]
        · simp [here, mt unique.mpr here]
  next missing =>
    have absent : reach.path ∉ reaches.records.toList.map Reach.path := by
      rw [known, missing]
      simp
    rw [if_neg absent]
    split
    · exact ⟨indexed, rfl⟩
    · exact ⟨indexed_append indexed missing, by simp [append]⟩

theorem toList_foldl_meet {reaches : Reaches} (indexed : reaches.Indexed)
    (refused : String → Bool) (reachList : List Reach) :
    (reachList.foldl (meet refused) reaches).Indexed ∧
      (reachList.foldl (meet refused) reaches).records.toList =
        reachList.foldl (gather refused) reaches.records.toList := by
  induction reachList generalizing reaches with
  | nil => exact ⟨indexed, rfl⟩
  | cons reach rest ih =>
      obtain ⟨kept, same⟩ := toList_meet indexed refused reach
      simpa only [List.foldl_cons, same] using ih kept

/-- What improvements leave alone changes only when a record is added. -/
theorem map_gather {β : Type} (view : Reach → β) (refused : String → Bool)
    {records : List Reach} {reach : Reach}
    (same : ∀ record ∈ records, record.path = reach.path → record.isImprovedBy reach = true →
      view reach = view record) :
    (gather refused records reach).map view =
      if reach.path ∈ records.map Reach.path ∨ refused reach.path = true
      then records.map view else records.map view ++ [view reach] := by
  unfold gather
  by_cases known : reach.path ∈ records.map Reach.path
  · rw [if_pos known, if_pos (.inl known), List.map_map]
    apply List.map_congr_left
    intro record member
    simp only [Function.comp_apply]
    split
    next better => exact same record member better.1 better.2
    next => rfl
  · by_cases closed : refused reach.path = true
    · rw [if_neg known, if_pos closed, if_pos (.inr closed)]
    · rw [if_neg known, if_neg closed, if_neg (by simp [known, closed])]
      simp

theorem map_path_gather (refused : String → Bool) (records : List Reach) (reach : Reach) :
    (gather refused records reach).map Reach.path =
      if reach.path ∈ records.map Reach.path ∨ refused reach.path = true
      then records.map Reach.path else records.map Reach.path ++ [reach.path] :=
  map_gather Reach.path refused fun _ _ same _ => same.symm

theorem mem_paths_gather {refused : String → Bool} {records : List Reach} {path : String}
    (known : path ∈ records.map Reach.path) (reach : Reach) :
    path ∈ (gather refused records reach).map Reach.path := by
  rw [map_path_gather]
  split
  · exact known
  · exact List.mem_append_left _ known

theorem mem_gather {refused : String → Bool} {records : List Reach} {reach record : Reach}
    (member : record ∈ gather refused records reach) : record ∈ records ∨ record = reach := by
  unfold gather at member
  split at member
  · obtain ⟨old, isOld, rfl⟩ := List.mem_map.mp member
    split
    next => exact .inr rfl
    next => exact .inl isOld
  · split at member
    · exact .inl member
    · simpa using member

/-- Whether a module that has a record is refused makes no difference. -/
theorem gather_congr {refused other : String → Bool} {records : List Reach} {reach : Reach}
    (agree : reach.path ∈ records.map Reach.path ∨ refused reach.path = other reach.path) :
    gather refused records reach = gather other records reach := by
  unfold gather
  rcases agree with known | same
  · rw [if_pos known, if_pos known]
  · rw [same]

theorem foldl_gather_congr {refused other : String → Bool} {records reachList : List Reach}
    (agree : ∀ reach ∈ reachList,
      reach.path ∈ records.map Reach.path ∨ refused reach.path = other reach.path) :
    reachList.foldl (gather refused) records = reachList.foldl (gather other) records := by
  induction reachList generalizing records with
  | nil => rfl
  | cons reach rest ih =>
      rw [List.foldl_cons, List.foldl_cons, gather_congr (agree reach (by simp))]
      apply ih
      intro later member
      exact (agree later (List.mem_cons_of_mem _ member)).imp_left fun known =>
        mem_paths_gather known reach

/-- Of the records that were met, the best one is held for each module that is not refused. -/
structure Gathered (refused : String → Bool) (met records : List Reach) : Prop where
  nodup : (records.map Reach.path).Nodup
  among : ∀ record ∈ records, record ∈ met ∧ refused record.path = false
  complete : ∀ reach ∈ met, refused reach.path = false → reach.path ∈ records.map Reach.path
  best : ∀ record ∈ records, ∀ reach ∈ met, reach.path = record.path →
    record.isImprovedBy reach = false

theorem Gathered.nil (refused : String → Bool) : Gathered refused [] [] := by
  constructor <;> simp

/-- Where there is a record of the module, a record either stays, or the new one takes its place. -/
theorem exists_of_mem_gather {refused : String → Bool} {records : List Reach}
    {reach record : Reach} (known : reach.path ∈ records.map Reach.path)
    (member : record ∈ gather refused records reach) :
    ∃ old ∈ records, old.path = record.path ∧
      (record = old ∧ (reach.path = old.path → old.isImprovedBy reach = false) ∨
        record = reach ∧ old.isImprovedBy reach = true) := by
  rw [gather, if_pos known] at member
  obtain ⟨old, isOld, rfl⟩ := List.mem_map.mp member
  refine ⟨old, isOld, ?_⟩
  split
  next better => exact ⟨better.1, .inr ⟨rfl, better.2⟩⟩
  next same =>
    refine ⟨rfl, .inl ⟨rfl, fun samePath => ?_⟩⟩
    simpa [samePath] using same

/-- A module that was met before is held at its best. -/
theorem Gathered.improve {refused : String → Bool} {met records : List Reach}
    (held : Gathered refused met records) {reach : Reach}
    (known : reach.path ∈ records.map Reach.path) :
    Gathered refused (met ++ [reach]) (gather refused records reach) := by
  have paths := map_path_gather refused records reach
  rw [if_pos (.inl known)] at paths
  constructor
  · rw [paths]
    exact held.nodup
  · intro record member
    obtain ⟨old, isOld, samePath, ⟨rfl, _⟩ | ⟨rfl, _⟩⟩ := exists_of_mem_gather known member
    · exact ⟨List.mem_append_left _ (held.among _ isOld).1, (held.among _ isOld).2⟩
    · exact ⟨by simp, samePath ▸ (held.among _ isOld).2⟩
  · intro other member isOpen
    rw [paths]
    rcases List.mem_append.mp member with old | new
    · exact held.complete other old isOpen
    · rwa [List.mem_singleton.mp new]
  · intro record member other isMet samePath
    obtain ⟨old, isOld, oldPath, choice⟩ := exists_of_mem_gather known member
    rcases List.mem_append.mp isMet with before | last
    · have bound := held.best old isOld other before (samePath.trans oldPath.symm)
      rcases choice with ⟨rfl, _⟩ | ⟨rfl, improved⟩
      · exact bound
      · exact Reach.isImprovedBy_of_better improved bound
    · obtain rfl := List.mem_singleton.mp last
      rcases choice with ⟨rfl, bound⟩ | ⟨rfl, _⟩
      · exact bound samePath
      · exact Reach.isImprovedBy_self _

/-- A record of a refused module is left out. -/
theorem Gathered.refuse {refused : String → Bool} {met records : List Reach}
    (held : Gathered refused met records) {reach : Reach}
    (isNew : reach.path ∉ records.map Reach.path) (closed : refused reach.path = true) :
    Gathered refused (met ++ [reach]) records where
  nodup := held.nodup
  among := fun record member =>
    ⟨List.mem_append_left _ (held.among record member).1, (held.among record member).2⟩
  complete := by
    intro other member isOpen
    rcases List.mem_append.mp member with old | new
    · exact held.complete other old isOpen
    · simp [List.mem_singleton.mp new, closed] at isOpen
  best := by
    intro record member other isMet samePath
    rcases List.mem_append.mp isMet with old | new
    · exact held.best record member other old samePath
    · obtain rfl := List.mem_singleton.mp new
      exact absurd (List.mem_map.mpr ⟨record, member, samePath.symm⟩) isNew

/-- The first record of a module that is not refused is put behind all others. -/
theorem Gathered.append {refused : String → Bool} {met records : List Reach}
    (held : Gathered refused met records) {reach : Reach}
    (isNew : reach.path ∉ records.map Reach.path) (isOpen : refused reach.path = false) :
    Gathered refused (met ++ [reach]) (records ++ [reach]) where
  nodup := by
    rw [List.map_append, List.map_singleton, List.nodup_append]
    refine ⟨held.nodup, List.nodup_singleton _, ?_⟩
    intro path old other new same
    rw [List.mem_singleton] at new
    exact isNew (new ▸ same ▸ old)
  among := by
    intro record member
    rcases List.mem_append.mp member with old | new
    · exact ⟨List.mem_append_left _ (held.among record old).1, (held.among record old).2⟩
    · obtain rfl := List.mem_singleton.mp new
      exact ⟨by simp, isOpen⟩
  complete := by
    intro other member stays
    rw [List.map_append]
    rcases List.mem_append.mp member with old | new
    · exact List.mem_append_left _ (held.complete other old stays)
    · simp [List.mem_singleton.mp new]
  best := by
    intro record member other isMet samePath
    rcases List.mem_append.mp member with old | new
    · rcases List.mem_append.mp isMet with before | last
      · exact held.best record old other before samePath
      · obtain rfl := List.mem_singleton.mp last
        exact absurd (List.mem_map.mpr ⟨record, old, samePath.symm⟩) isNew
    · obtain rfl := List.mem_singleton.mp new
      rcases List.mem_append.mp isMet with before | last
      · exact absurd (samePath ▸ held.complete other before (samePath ▸ isOpen)) isNew
      · rw [List.mem_singleton.mp last, Reach.isImprovedBy_self]

/-- Every further record keeps what is held at its best. -/
theorem Gathered.gather {refused : String → Bool} {met records : List Reach}
    (held : Gathered refused met records) (reach : Reach) :
    Gathered refused (met ++ [reach]) (gather refused records reach) := by
  by_cases known : reach.path ∈ records.map Reach.path
  · exact held.improve known
  · rw [Reaches.gather, if_neg known]
    split
    next closed => exact held.refuse known closed
    next isOpen => exact held.append known (by simpa using isOpen)

theorem Gathered.foldl {refused : String → Bool} {met records : List Reach}
    (held : Gathered refused met records) (reachList : List Reach) :
    Gathered refused (met ++ reachList) (reachList.foldl (Reaches.gather refused) records) := by
  induction reachList generalizing met records with
  | nil => simpa using held
  | cons reach rest ih => simpa using ih (held.gather reach)

/-- A merge holds the best record of each module in some exploration. -/
theorem gathered_merge (explorations : List (List Reach)) :
    Gathered (fun _ => false) explorations.flatten (merge explorations) := by
  rw [merge, meetAll, (toList_foldl_meet indexed_empty _ _).2]
  exact (Gathered.nil _).foldl explorations.flatten

end Reaches

end ChangeImpact
