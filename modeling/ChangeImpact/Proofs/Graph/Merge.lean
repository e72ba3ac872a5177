/-
This file shows which records a merge of two explorations holds, and that a depth cuts a merge off
as it cuts off the explorations.
-/

import ChangeImpact.Proofs.Graph.Reaches

namespace ChangeImpact.Reaches

variable {records reachList first second : List Reach} {reach record : Reach} {depth : Nat}

/-- One more record leaves the modules distinct. -/
theorem nodup_gather {refused : String → Bool} (nodup : (records.map Reach.path).Nodup)
    (reach : Reach) : ((gather refused records reach).map Reach.path).Nodup := by
  rw [map_path_gather]
  split
  next => exact nodup
  next added =>
    have isNew : reach.path ∉ records.map Reach.path := fun known => added (.inl known)
    refine List.nodup_append.mpr ⟨nodup, List.nodup_singleton _, ?_⟩
    rintro path old _ last rfl
    exact isNew (List.mem_singleton.mp last ▸ old)

/-- A list of records keeps those that the new one does not improve, and holds the new one if it
improves what is known of its module. -/
theorem mem_gather_iff (nodup : (records.map Reach.path).Nodup) :
    record ∈ gather (fun _ => false) records reach ↔
      (record ∈ records ∧ (reach.path = record.path → record.isImprovedBy reach = false)) ∨
        (record = reach ∧ ∀ old ∈ records, old.path = reach.path →
          old.isImprovedBy reach = true) := by
  have unique {old other : Reach} (isOld : old ∈ records) (isOther : other ∈ records)
      (same : old.path = other.path) : old = other :=
    List.inj_on_of_nodup_map nodup isOld isOther same
  by_cases known : reach.path ∈ records.map Reach.path
  case pos =>
    constructor
    · intro member
      obtain ⟨old, isOld, samePath, ⟨rfl, stays⟩ | ⟨rfl, better⟩⟩ :=
        exists_of_mem_gather known member
      · exact .inl ⟨isOld, stays⟩
      · refine .inr ⟨rfl, fun other isOther same => ?_⟩
        rw [unique isOther isOld (same.trans samePath.symm)]
        exact better
    · obtain ⟨held, isHeld, samePath⟩ := List.mem_map.mp known
      rw [gather, if_pos known, List.mem_map]
      rintro (⟨isOld, stays⟩ | ⟨rfl, better⟩)
      · refine ⟨record, isOld, if_neg fun improved => ?_⟩
        simp [stays improved.1.symm] at improved
      · exact ⟨held, isHeld, if_pos ⟨samePath, better held isHeld samePath⟩⟩
  case neg =>
    rw [gather, if_neg known]
    have absent : ∀ old ∈ records, old.path ≠ reach.path := fun old isOld same =>
      known (List.mem_map.mpr ⟨old, isOld, same⟩)
    simp only [Bool.false_eq_true, if_false, List.mem_append, List.mem_singleton]
    constructor
    · rintro (isOld | rfl)
      · exact .inl ⟨isOld, fun same => absurd same.symm (absent record isOld)⟩
      · exact .inr ⟨rfl, fun old isOld same => absurd same (absent old isOld)⟩
    · exact Or.imp And.left And.left

/-- Of records for different modules each is kept against the old ones, or gives way to them. -/
theorem mem_foldl_gather_iff (nodup : (records.map Reach.path).Nodup)
    (distinct : (reachList.map Reach.path).Nodup) :
    record ∈ reachList.foldl (gather fun _ => false) records ↔
      (record ∈ records ∧ ∀ reach ∈ reachList, reach.path = record.path →
        record.isImprovedBy reach = false) ∨
        (record ∈ reachList ∧ ∀ old ∈ records, old.path = record.path →
          old.isImprovedBy record = true) := by
  induction reachList generalizing records with
  | nil => simp
  | cons reach rest ih =>
      rw [List.map_cons, List.nodup_cons] at distinct
      have apart : ∀ later ∈ rest, later.path ≠ reach.path := fun later member same =>
        distinct.1 (List.mem_map.mpr ⟨later, member, same⟩)
      rw [List.foldl_cons, ih (nodup_gather nodup reach) distinct.2, mem_gather_iff nodup]
      constructor
      · rintro (⟨⟨isOld, stays⟩ | ⟨rfl, better⟩, best⟩ | ⟨later, better⟩)
        · refine .inl ⟨isOld, fun other member same => ?_⟩
          rcases List.mem_cons.mp member with rfl | member
          · exact stays same
          · exact best other member same
        · exact .inr ⟨List.mem_cons_self, better⟩
        · refine .inr ⟨List.mem_cons_of_mem _ later, fun old isOld same => ?_⟩
          refine better old ((mem_gather_iff nodup).mpr (.inl ⟨isOld, fun again => ?_⟩)) same
          exact absurd (same.symm.trans again.symm) (apart record later)
      · rintro (⟨isOld, best⟩ | ⟨member, better⟩)
        · exact .inl ⟨.inl ⟨isOld, best reach List.mem_cons_self⟩, fun other later =>
            best other (List.mem_cons_of_mem _ later)⟩
        · rcases List.mem_cons.mp member with rfl | later
          · exact .inl ⟨.inr ⟨rfl, better⟩, fun other later same =>
              absurd same (apart other later)⟩
          · refine .inr ⟨later, fun old isOld same => ?_⟩
            rcases (mem_gather_iff nodup).mp isOld with ⟨isOld, _⟩ | ⟨rfl, _⟩
            · exact better old isOld same
            · exact absurd same.symm (apart record later)

/-- A merge holds what the first exploration found unless the second one found better, and what the
second one found if that is better. -/
theorem mem_merge_iff (distinct : (first.map Reach.path).Nodup)
    (others : (second.map Reach.path).Nodup) :
    record ∈ merge [first, second] ↔
      (record ∈ first ∧ ∀ other ∈ second, other.path = record.path →
        record.isImprovedBy other = false) ∨
        (record ∈ second ∧ ∀ other ∈ first, other.path = record.path →
          other.isImprovedBy record = true) := by
  have held {other : Reach} :
      other ∈ first.foldl (gather fun _ => false) [] ↔ other ∈ first := by
    rw [mem_foldl_gather_iff (by simp) distinct]
    simp
  have nodup := ((Gathered.nil fun _ => false).foldl first).nodup
  rw [merge, meetAll, (toList_foldl_meet indexed_empty _ _).2]
  simp only [empty, List.flatten_cons, List.flatten_nil, List.append_nil, List.foldl_append]
  rw [mem_foldl_gather_iff nodup others]
  simp only [held]

/-- Cutting two explorations off at a depth cuts their merge off there. -/
theorem filter_merge_perm (distinct : (first.map Reach.path).Nodup)
    (others : (second.map Reach.path).Nodup) (depth : Nat) :
    ((merge [first, second]).filter (·.distance ≤ depth)).Perm
      (merge [first.filter (·.distance ≤ depth), second.filter (·.distance ≤ depth)]) := by
  have fewer {list : List Reach} (nodup : (list.map Reach.path).Nodup) :
      ((list.filter (·.distance ≤ depth)).map Reach.path).Nodup :=
    nodup.sublist (List.filter_sublist.map Reach.path)
  have all := (gathered_merge [first, second]).nodup.of_map
  have some := (gathered_merge
    [first.filter (·.distance ≤ depth), second.filter (·.distance ≤ depth)]).nodup.of_map
  refine (List.perm_ext_iff_of_nodup (all.filter _) some).mpr fun record => ?_
  rw [List.mem_filter, mem_merge_iff distinct others, mem_merge_iff (fewer distinct) (fewer others)]
  simp only [List.mem_filter, decide_eq_true_eq, and_imp]
  constructor
  · rintro ⟨⟨isFirst, best⟩ | ⟨isSecond, better⟩, near⟩
    · exact .inl ⟨⟨isFirst, near⟩, fun other isOther _ => best other isOther⟩
    · exact .inr ⟨⟨isSecond, near⟩, fun other isOther _ => better other isOther⟩
  · rintro (⟨⟨isFirst, near⟩, best⟩ | ⟨⟨isSecond, near⟩, better⟩)
    · refine ⟨.inl ⟨isFirst, fun other isOther same => ?_⟩, near⟩
      by_cases within : other.distance ≤ depth
      · exact best other isOther within same
      · rw [← Bool.not_eq_true, Reach.isImprovedBy_iff]
        omega
    · refine ⟨.inr ⟨isSecond, fun other isOther same => ?_⟩, near⟩
      by_cases within : other.distance ≤ depth
      · exact better other isOther within same
      · rw [Reach.isImprovedBy_iff]
        omega

end ChangeImpact.Reaches
