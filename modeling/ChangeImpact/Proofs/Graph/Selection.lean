/-
This file shows which record of each module a merge selects: the first of the best ones, wherever
the records stand.
-/

import ChangeImpact.Proofs.Distinct
import ChangeImpact.Proofs.Graph.Reaches
import ChangeImpact.Proofs.Graph.Strongest

namespace ChangeImpact

/-- No record of its module is nearer than this one, and none that is as near is stronger. -/
structure IsBest (met : List Reach) (record : Reach) : Prop where
  nearest : ∀ other ∈ met, other.path = record.path → record.distance ≤ other.distance
  strongest : ∀ other ∈ met, other.path = record.path → other.distance = record.distance →
    other.strength ≤ record.strength

/-- Of the best records of its module this one was met first. -/
structure IsFirstBest (met : List Reach) (record : Reach) : Prop extends IsBest met record where
  first : met.find? (·.standing = record.standing) = some record

variable {met others records : List Reach} {record other reach : Reach}

theorem Reach.standing_eq_iff : other.standing = record.standing ↔
    other.path = record.path ∧ other.distance = record.distance ∧
      other.strength = record.strength := by
  simp [standing]

/-- A record is as good as all others of its module exactly if none of them improves on it. -/
theorem isBest_iff : IsBest met record ↔
    ∀ other ∈ met, other.path = record.path → record.isImprovedBy other = false := by
  constructor
  · intro best other member same
    rw [← Bool.not_eq_true, Reach.isImprovedBy_iff]
    rintro (nearer | ⟨near, stronger⟩)
    · exact absurd (best.nearest other member same) (Nat.not_le.mpr nearer)
    · exact absurd (best.strongest other member same near) (Nat.not_le.mpr stronger)
  · intro unimproved
    constructor
    · intro other member same
      have stays := unimproved other member same
      rw [← Bool.not_eq_true, Reach.isImprovedBy_iff] at stays
      omega
    · intro other member same near
      have stays := unimproved other member same
      rw [← Bool.not_eq_true, Reach.isImprovedBy_iff] at stays
      exact Nat.not_lt.mp fun stronger => stays (.inr ⟨near, stronger⟩)

/-- Which records are the best does not depend on their order. -/
theorem IsBest.congr (best : IsBest met record) (same : ∀ reach, reach ∈ others ↔ reach ∈ met) :
    IsBest others record where
  nearest := fun other member => best.nearest other ((same other).mp member)
  strongest := fun other member => best.strongest other ((same other).mp member)

/-- All best records of a module are equally near and equally strong. -/
theorem IsBest.standing_eq (best : IsBest met record) (another : IsBest met other)
    (member : record ∈ met) (isOther : other ∈ met) (same : other.path = record.path) :
    other.standing = record.standing := by
  have near : other.distance = record.distance :=
    Nat.le_antisymm (another.nearest record member same.symm) (best.nearest other isOther same)
  refine Reach.standing_eq_iff.mpr ⟨same, near, Strength.eq_of_le_of_le ?_ ?_⟩
  · exact best.strongest other isOther same near
  · exact another.strongest record member same.symm near.symm

namespace Reaches

/-- The modules are held in the order in which they were met first, and of the records of one
standing the first is held. -/
structure Selected (met records : List Reach) : Prop where
  paths : records.map Reach.path = (met.map Reach.path).eraseDups
  first : ∀ record ∈ records, met.find? (·.standing = record.standing) = some record

theorem Selected.nil : Selected [] [] := by
  constructor <;> simp

/-- A module takes its place when it is met first. -/
theorem paths_gather (paths : records.map Reach.path = (met.map Reach.path).eraseDups)
    (reach : Reach) :
    (gather (fun _ => false) records reach).map Reach.path =
      ((met ++ [reach]).map Reach.path).eraseDups := by
  rw [map_path_gather, List.map_append, List.map_singleton, eraseDups_concat, paths]
  simp only [List.mem_eraseDups, Bool.false_eq_true, or_false]

/-- A record is the first of its standing if none before it had that standing. -/
theorem find?_concat_of_absent
    (absent : ∀ other ∈ met, other.standing ≠ reach.standing) :
    (met ++ [reach]).find? (·.standing = reach.standing) = some reach := by
  have none : met.find? (·.standing = reach.standing) = none := by
    simpa [List.find?_eq_none] using absent
  rw [List.find?_append, none, Option.none_or]
  simp

/-- One more record leaves or makes each record the first of its standing. -/
theorem Selected.gather (held : Gathered (fun _ => false) met records)
    (selected : Selected met records) (reach : Reach) :
    Selected (met ++ [reach]) (Reaches.gather (fun _ => false) records reach) where
  paths := paths_gather selected.paths reach
  first := by
    have stays (record : Reach) (isOld : record ∈ records) :
        (met ++ [reach]).find? (·.standing = record.standing) = some record := by
      rw [List.find?_append, selected.first record isOld, Option.some_or]
    intro record member
    unfold Reaches.gather at member
    split at member
    next known =>
      obtain ⟨old, isOld, rfl⟩ := List.mem_map.mp member
      split
      next better =>
        -- What has the standing of the new record would have improved on the old one as well.
        refine find?_concat_of_absent fun other isMet same => ?_
        obtain ⟨samePath, sameDistance, sameStrength⟩ := Reach.standing_eq_iff.mp same
        have kept := held.best old isOld other isMet (samePath.trans better.1.symm)
        rw [Reach.isImprovedBy, sameDistance, sameStrength] at kept
        exact Bool.false_ne_true (kept.symm.trans better.2)
      next => exact stays old isOld
    next isNew =>
      rw [if_neg Bool.false_ne_true] at member
      rcases List.mem_append.mp member with isOld | isLast
      · exact stays record isOld
      · obtain rfl := List.mem_singleton.mp isLast
        refine find?_concat_of_absent fun other isMet same => isNew ?_
        have isKnown := held.complete other isMet rfl
        rwa [(Reach.standing_eq_iff.mp same).1] at isKnown

theorem Selected.foldl (held : Gathered (fun _ => false) met records)
    (selected : Selected met records) (reachList : List Reach) :
    Selected (met ++ reachList) (reachList.foldl (Reaches.gather fun _ => false) records) := by
  induction reachList generalizing met records with
  | nil => simpa using selected
  | cons reach rest ih => simpa using ih (held.gather reach) (selected.gather held reach)

theorem selected_merge (explorations : List (List Reach)) :
    Selected explorations.flatten (merge explorations) := by
  rw [merge, meetAll, (toList_foldl_meet indexed_empty _ _).2]
  exact Selected.nil.foldl (Gathered.nil _) explorations.flatten

theorem isBest_of_mem_merge {explorations : List (List Reach)}
    (member : record ∈ merge explorations) : IsBest explorations.flatten record :=
  isBest_iff.mpr ((gathered_merge explorations).best record member)

/-- A merge holds the standings of the best records, whichever these are. -/
theorem mem_standings_merge_iff {explorations : List (List Reach)}
    {standing : String × Nat × Strength} :
    standing ∈ (merge explorations).map Reach.standing ↔
      ∃ record ∈ explorations.flatten, IsBest explorations.flatten record ∧
        record.standing = standing := by
  have held := gathered_merge explorations
  rw [List.mem_map]
  constructor
  · rintro ⟨record, member, rfl⟩
    exact ⟨record, (held.among record member).1, isBest_of_mem_merge member, rfl⟩
  · rintro ⟨best, isMet, isBest, rfl⟩
    obtain ⟨record, member, same⟩ := List.mem_map.mp (held.complete best isMet rfl)
    exact ⟨record, member, isBest.standing_eq (isBest_of_mem_merge member) isMet
      (held.among record member).1 same⟩

/-- Explorations with the same records have merges with the same standings, wherever the records
stand and however often. -/
theorem standings_merge_perm {explorations another : List (List Reach)}
    (same : ∀ reach, reach ∈ another.flatten ↔ reach ∈ explorations.flatten) :
    ((merge another).map Reach.standing).Perm ((merge explorations).map Reach.standing) := by
  have nodup (list : List (List Reach)) : ((merge list).map Reach.standing).Nodup := by
    refine List.Nodup.of_map Prod.fst ?_
    rw [List.map_map]
    exact (gathered_merge list).nodup
  refine (List.perm_ext_iff_of_nodup (nodup another) (nodup explorations)).mpr fun standing => ?_
  rw [mem_standings_merge_iff, mem_standings_merge_iff]
  constructor
  · rintro ⟨record, isMet, best, rfl⟩
    exact ⟨record, (same record).mp isMet, best.congr fun reach => (same reach).symm, rfl⟩
  · rintro ⟨record, isMet, best, rfl⟩
    exact ⟨record, (same record).mpr isMet, best.congr same, rfl⟩

/-- A merge lists every module that occurs in some exploration once, in the order of the first
occurrences, with the first of its nearest and then strongest records. The modules with their
distances and strengths are the same for all explorations that hold the same records, in whatever
order and however often. -/
theorem merge_selects_firstBest (explorations : List (List Reach)) :
    (merge explorations).map Reach.path = (explorations.flatten.map Reach.path).eraseDups ∧
      (∀ record ∈ merge explorations, IsFirstBest explorations.flatten record) ∧
      ∀ another, (∀ reach, reach ∈ another.flatten ↔ reach ∈ explorations.flatten) →
        ((merge another).map Reach.standing).Perm ((merge explorations).map Reach.standing) := by
  have selected := selected_merge explorations
  refine ⟨selected.paths, fun record member => ?_, fun another same => standings_merge_perm same⟩
  exact ⟨isBest_of_mem_merge member, selected.first record member⟩

end Reaches

end ChangeImpact
