/-
This file defines finite maps as lists of entries in ascending order of their keys.
-/

namespace ChangeImpact

namespace Table

variable {κ ν : Type} [Ord κ]

/-- The entries with `key` bound to `value`, in place of what it was bound to before. -/
def place (key : κ) (value : ν) : List (κ × ν) → List (κ × ν)
  | [] => [(key, value)]
  | entry :: rest =>
    match compare key entry.1 with
    | .lt => (key, value) :: entry :: rest
    | .eq => (key, value) :: rest
    | .gt => entry :: place key value rest

theorem memPlace {key : κ} {value : ν} {entries : List (κ × ν)} {entry : κ × ν}
    (member : entry ∈ place key value entries) : entry = (key, value) ∨ entry ∈ entries := by
  induction entries with
  | nil => simpa [place] using member
  | cons head rest inductionHypothesis =>
    unfold place at member
    split at member
    · simpa using member
    · simp only [List.mem_cons] at member ⊢
      exact member.elim .inl fun found => .inr (.inr found)
    · simp only [List.mem_cons] at member ⊢
      rcases member with found | found
      · exact .inr (.inl found)
      · exact (inductionHypothesis found).elim .inl fun inRest => .inr (.inr inRest)

theorem placeAscending [Std.TransOrd κ] [Std.LawfulEqOrd κ] (key : κ) (value : ν)
    (entries : List (κ × ν))
    (ascending : entries.Pairwise fun left right => compare left.1 right.1 = .lt) :
    (place key value entries).Pairwise fun left right => compare left.1 right.1 = .lt := by
  induction entries with
  | nil => simp [place]
  | cons head rest inductionHypothesis =>
    obtain ⟨below, restAscending⟩ := List.pairwise_cons.mp ascending
    unfold place
    split
    next smaller =>
      refine List.pairwise_cons.mpr ⟨fun entry member => ?_, ascending⟩
      rcases List.mem_cons.mp member with rfl | inRest
      · exact smaller
      · exact Std.TransCmp.lt_trans smaller (below entry inRest)
    next same =>
      have keyEq : key = head.1 := Std.LawfulEqCmp.eq_of_compare same
      refine List.pairwise_cons.mpr ⟨fun entry member => ?_, restAscending⟩
      simpa [keyEq] using below entry member
    next greater =>
      refine List.pairwise_cons.mpr ⟨fun entry member => ?_, inductionHypothesis restAscending⟩
      rcases memPlace member with rfl | inRest
      · exact Std.OrientedCmp.gt_iff_lt.mp greater
      · exact below entry inRest

end Table

/-- A finite map, whose entries ascend strictly by key. -/
structure Table (κ ν : Type) [Ord κ] where
  entries : List (κ × ν)
  ascending : entries.Pairwise fun left right => compare left.1 right.1 = .lt

namespace Table

variable {κ ν : Type} [Ord κ]

@[ext]
theorem ext {left right : Table κ ν} (entries : left.entries = right.entries) : left = right := by
  cases left; cases right; simp_all

instance [DecidableEq κ] [DecidableEq ν] : DecidableEq (Table κ ν) := fun left right =>
  decidable_of_iff (left.entries = right.entries) ⟨ext, fun same => same ▸ rfl⟩

def empty : Table κ ν :=
  ⟨[], .nil⟩

instance : Inhabited (Table κ ν) := ⟨empty⟩

instance [Repr κ] [Repr ν] : Repr (Table κ ν) := ⟨fun table => reprPrec table.entries⟩

def isEmpty (table : Table κ ν) : Bool :=
  table.entries.isEmpty

def size (table : Table κ ν) : Nat :=
  table.entries.length

def keys (table : Table κ ν) : List κ :=
  table.entries.map Prod.fst

def values (table : Table κ ν) : List ν :=
  table.entries.map Prod.snd

def get? (table : Table κ ν) (key : κ) : Option ν :=
  (table.entries.find? fun entry => compare entry.1 key == .eq).map Prod.snd

def contains (table : Table κ ν) (key : κ) : Bool :=
  (table.get? key).isSome

section Insert

variable [Std.TransOrd κ] [Std.LawfulEqOrd κ]

def insert (table : Table κ ν) (key : κ) (value : ν) : Table κ ν :=
  ⟨place key value table.entries, placeAscending key value table.entries table.ascending⟩

/-- The map of the given entries; of several values for one key the last is kept. -/
def ofList (entries : List (κ × ν)) : Table κ ν :=
  entries.foldl (fun table entry => table.insert entry.1 entry.2) empty

/-- How often each key occurs. -/
def tally (keys : List κ) : Table κ Nat :=
  keys.foldl (fun table key => table.insert key ((table.get? key).getD 0 + 1)) empty

end Insert

end Table

end ChangeImpact
