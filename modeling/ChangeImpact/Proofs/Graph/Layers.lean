/-
This file proves that a search which expands modules in the order of their discovery finds them in
layers of rising distance.
-/

import ChangeImpact.Proofs.Graph.Walk
import Mathlib.Data.ENat.Basic
import Mathlib.Data.List.Nodup

namespace ChangeImpact

/-- The modules found so far stand in layers, each with its distance from the seeds. Those before
`next` are expanded; nothing lies beyond the limit. -/
structure Layers (step : String → String → Prop) (seeds : List String) (limit : ℕ∞)
    (found : List (String × Nat)) (next : Nat) : Prop where
  nodup : (found.map Prod.fst).Nodup
  seeded : ∀ seed ∈ seeds, (seed, 0) ∈ found
  within : ∀ item ∈ found, (item.2 : ℕ∞) ≤ limit
  reached : ∀ item ∈ found, ∃ seed ∈ seeds, Walk step item.2 seed item.1
  ascending : found.Pairwise fun earlier later => earlier.2 ≤ later.2
  near : ∀ item ∈ found, ∀ waiting ∈ found.drop next, item.2 ≤ waiting.2 + 1
  expanded : ∀ item ∈ found.take next, ((item.2 + 1 : Nat) : ℕ∞) ≤ limit →
    ∀ target, step item.1 target → ∃ distance ≤ item.2 + 1, (target, distance) ∈ found
  short : ∀ item ∈ found, item.2 < found.length

namespace Layers

variable {step : String → String → Prop} {seeds : List String} {limit : ℕ∞}
  {found : List (String × Nat)} {next : Nat}

/-- At the start the seeds alone are found, and all of them wait. -/
theorem initial (seeds : List String) (starts : List String) (nodup : starts.Nodup)
    (same : ∀ seed, seed ∈ starts ↔ seed ∈ seeds) :
    Layers step seeds limit (starts.map (·, 0)) 0 where
  nodup := by simpa [Function.comp_def] using nodup
  seeded := by simp [same]
  within := by simp
  reached := by
    intro item member
    obtain ⟨seed, known, rfl⟩ := List.mem_map.mp member
    exact ⟨seed, (same seed).mp known, .here seed⟩
  ascending := List.pairwise_map.mpr (List.pairwise_of_forall fun _ _ => le_rfl)
  near := by simp
  expanded := by simp
  short := by
    intro item member
    obtain ⟨seed, known, rfl⟩ := List.mem_map.mp member
    simpa using List.length_pos_of_mem known

/-- A module has only one distance. -/
theorem distance_unique (layers : Layers step seeds limit found next) {target : String}
    {first second : Nat} (left : (target, first) ∈ found) (right : (target, second) ∈ found) :
    first = second := by
  have same := List.inj_on_of_nodup_map layers.nodup left right rfl
  exact congrArg Prod.snd same

section Advance

variable {current : String} {distance : Nat} {fresh : List String}

theorem mem_drop_next (here : found[next]? = some (current, distance)) :
    (current, distance) ∈ found.drop next :=
  List.mem_of_getElem? (i := 0) (by simpa using here)

/-- The module that waited longest is among the nearest that wait. -/
theorem next_le (layers : Layers step seeds limit found next)
    (here : found[next]? = some (current, distance)) :
    ∀ item ∈ found.drop (next + 1), distance ≤ item.2 := by
  obtain ⟨inside, same⟩ := List.getElem?_eq_some_iff.mp here
  intro item member
  have order := layers.ascending.sublist (List.drop_sublist next found)
  rw [List.drop_eq_getElem_cons inside, same] at order
  exact List.rel_of_pairwise_cons order member

/-- New modules one step behind the expanded one keep the waiting ones close together. -/
theorem near_advance (layers : Layers step seeds limit found next)
    (here : found[next]? = some (current, distance)) :
    ∀ item ∈ found ++ fresh.map (·, distance + 1),
      ∀ waiting ∈ (found ++ fresh.map (·, distance + 1)).drop (next + 1),
        item.2 ≤ waiting.2 + 1 := by
  have inside : next < found.length := (List.getElem?_eq_some_iff.mp here).1
  have wait := mem_drop_next here
  intro item member waiting isWaiting
  rw [List.drop_append_of_le_length inside] at isWaiting
  rcases List.mem_append.mp member with old | new
  · rcases List.mem_append.mp isWaiting with oldWait | newWait
    · have waited := List.drop_subset_drop_left found (Nat.le_succ next) oldWait
      exact layers.near item old waiting waited
    · obtain ⟨target, _, rfl⟩ := List.mem_map.mp newWait
      exact (layers.near item old _ wait).trans (Nat.le_succ _)
  · obtain ⟨target, _, rfl⟩ := List.mem_map.mp new
    rcases List.mem_append.mp isWaiting with oldWait | newWait
    · exact Nat.succ_le_succ (layers.next_le here waiting oldWait)
    · obtain ⟨other, _, rfl⟩ := List.mem_map.mp newWait
      exact Nat.le_succ _

/-- The expanded module is one step before each module that it leads to. -/
theorem expanded_advance (layers : Layers step seeds limit found next)
    (here : found[next]? = some (current, distance))
    (covered : ((distance + 1 : Nat) : ℕ∞) ≤ limit → ∀ target, step current target →
      target ∈ found.map Prod.fst ∨ target ∈ fresh) :
    ∀ item ∈ (found ++ fresh.map (·, distance + 1)).take (next + 1),
      ((item.2 + 1 : Nat) : ℕ∞) ≤ limit → ∀ target, step item.1 target →
        ∃ reachedAt ≤ item.2 + 1, (target, reachedAt) ∈ found ++ fresh.map (·, distance + 1) := by
  have inside : next < found.length := (List.getElem?_eq_some_iff.mp here).1
  intro item member inLimit target last
  rw [List.take_append_of_le_length inside, List.take_add_one, here] at member
  rcases List.mem_append.mp member with old | new
  · obtain ⟨reachedAt, le, isFound⟩ := layers.expanded item old inLimit target last
    exact ⟨reachedAt, le, List.mem_append_left _ isFound⟩
  · obtain rfl : item = (current, distance) := by simpa using new
    rcases covered inLimit target last with old | new
    · obtain ⟨⟨_, reachedAt⟩, isFound, rfl⟩ := List.mem_map.mp old
      exact ⟨reachedAt, layers.near _ isFound _ (mem_drop_next here),
        List.mem_append_left _ isFound⟩
    · exact ⟨distance + 1, le_rfl, List.mem_append_right _ (List.mem_map.mpr ⟨target, new, rfl⟩)⟩

/-- Expanding the module that waited longest adds its new neighbours to the next layer. -/
theorem advance (layers : Layers step seeds limit found next)
    (here : found[next]? = some (current, distance))
    (nodup : (found.map Prod.fst ++ fresh).Nodup)
    (stepped : ∀ target ∈ fresh, ((distance + 1 : Nat) : ℕ∞) ≤ limit ∧ step current target)
    (covered : ((distance + 1 : Nat) : ℕ∞) ≤ limit → ∀ target, step current target →
      target ∈ found.map Prod.fst ∨ target ∈ fresh) :
    Layers step seeds limit (found ++ fresh.map (·, distance + 1)) (next + 1) where
  nodup := by simpa [Function.comp_def] using nodup
  seeded := fun seed among => List.mem_append_left _ (layers.seeded seed among)
  within := by
    intro item member
    rcases List.mem_append.mp member with old | new
    · exact layers.within item old
    · obtain ⟨target, isFresh, rfl⟩ := List.mem_map.mp new
      exact (stepped target isFresh).1
  reached := by
    intro item member
    rcases List.mem_append.mp member with old | new
    · exact layers.reached item old
    · obtain ⟨target, isFresh, rfl⟩ := List.mem_map.mp new
      obtain ⟨seed, among, walk⟩ := layers.reached _ (List.mem_of_getElem? here)
      exact ⟨seed, among, walk.onward (stepped target isFresh).2⟩
  ascending := by
    refine List.pairwise_append.mpr ⟨layers.ascending,
      List.pairwise_map.mpr (List.pairwise_of_forall fun _ _ => le_rfl), ?_⟩
    intro item old later new
    obtain ⟨target, _, rfl⟩ := List.mem_map.mp new
    exact layers.near item old _ (mem_drop_next here)
  near := layers.near_advance here
  expanded := layers.expanded_advance here covered
  short := by
    intro item member
    rw [List.length_append, List.length_map]
    rcases List.mem_append.mp member with old | new
    · exact Nat.lt_add_right _ (layers.short item old)
    · obtain ⟨target, isFresh, rfl⟩ := List.mem_map.mp new
      have bound := layers.short _ (List.mem_of_getElem? here)
      have size := List.length_pos_of_mem isFresh
      omega

end Advance

/-- A walk within the limit ends in a layer that is not above its length, unless a nearer module
still waits. -/
theorem found_or_waiting (layers : Layers step seeds limit found next) {seed target : String}
    {length : Nat} (among : seed ∈ seeds) (walk : Walk step length seed target)
    (inLimit : (length : ℕ∞) ≤ limit) :
    (∃ distance ≤ length, (target, distance) ∈ found) ∨
      ∃ waiting ∈ found.drop next, waiting.2 < length := by
  induction walk with
  | here => exact .inl ⟨0, le_rfl, layers.seeded _ among⟩
  | @onward length _ middle target walk last ih =>
      have shorter : ((length : Nat) : ℕ∞) ≤ limit :=
        (Nat.cast_le.mpr (Nat.le_succ length)).trans inLimit
      rcases ih among shorter with ⟨distance, le, isFound⟩ | ⟨waiting, isWaiting, lt⟩
      · rw [← List.take_append_drop next found] at isFound
        rcases List.mem_append.mp isFound with old | wait
        · have inside : ((distance + 1 : Nat) : ℕ∞) ≤ limit :=
            (Nat.cast_le.mpr (Nat.succ_le_succ le)).trans inLimit
          obtain ⟨reachedAt, bound, isFound⟩ := layers.expanded _ old inside target last
          exact .inl ⟨reachedAt, bound.trans (Nat.succ_le_succ le), isFound⟩
        · exact .inr ⟨_, wait, Nat.lt_succ_of_le le⟩
      · exact .inr ⟨waiting, isWaiting, Nat.lt_succ_of_lt lt⟩

/-- At any time no walk to a module that is found takes fewer steps than its distance says. -/
theorem distance_le (layers : Layers step seeds limit found next) {seed target : String}
    {distance length : Nat} (isFound : (target, distance) ∈ found) (among : seed ∈ seeds)
    (walk : Walk step length seed target) : distance ≤ length := by
  by_cases inLimit : (length : ℕ∞) ≤ limit
  · rcases layers.found_or_waiting among walk inLimit with
      ⟨reachedAt, le, again⟩ | ⟨waiting, isWaiting, lt⟩
    · rwa [layers.distance_unique isFound again]
    · exact (layers.near _ isFound waiting isWaiting).trans lt
  · have bound := layers.within _ isFound
    exact Nat.cast_le.mp (bound.trans (le_of_not_ge inLimit))

/-- When no module waits, every walk within the limit ends at a module that is found. -/
theorem exists_found (layers : Layers step seeds limit found next) (done : found.length ≤ next)
    {seed target : String} {length : Nat} (among : seed ∈ seeds)
    (walk : Walk step length seed target) (inLimit : (length : ℕ∞) ≤ limit) :
    ∃ distance, (target, distance) ∈ found := by
  rcases layers.found_or_waiting among walk inLimit with
    ⟨distance, _, isFound⟩ | ⟨waiting, isWaiting, _⟩
  · exact ⟨distance, isFound⟩
  · simp [List.drop_eq_nil_of_le done] at isWaiting

/-- When no module waits, exactly the modules within the limit are found, at their distances. -/
theorem mem_found_iff (layers : Layers step seeds limit found next) (done : found.length ≤ next)
    {target : String} {distance : Nat} :
    (target, distance) ∈ found ↔
      (distance : ℕ∞) ≤ limit ∧ IsDistance step seeds target distance := by
  constructor
  · intro isFound
    refine ⟨layers.within _ isFound, layers.reached _ isFound, ?_⟩
    rintro length ⟨seed, among, walk⟩
    exact layers.distance_le isFound among walk
  · rintro ⟨inLimit, ⟨seed, among, walk⟩, least⟩
    obtain ⟨reachedAt, isFound⟩ := layers.exists_found done among walk inLimit
    have below := layers.distance_le isFound among walk
    have above := least (layers.reached _ isFound)
    rwa [le_antisymm above below]

/-- A limit that leaves room for every module cuts no walk off. -/
theorem mem_found_of_walk (layers : Layers step seeds limit found next)
    (done : found.length ≤ next) (room : (found.length : ℕ∞) ≤ limit) {seed target : String}
    {length : Nat} (among : seed ∈ seeds) (walk : Walk step length seed target) :
    target ∈ found.map Prod.fst := by
  induction walk with
  | here => exact List.mem_map.mpr ⟨_, layers.seeded _ among, rfl⟩
  | onward _ last ih =>
      obtain ⟨item, isFound, rfl⟩ := List.mem_map.mp (ih among)
      have inLimit : ((item.2 + 1 : Nat) : ℕ∞) ≤ limit :=
        (Nat.cast_le.mpr (layers.short item isFound)).trans room
      have old : item ∈ found.take next := by rwa [List.take_of_length_le done]
      obtain ⟨distance, _, isFound⟩ := layers.expanded item old inLimit _ last
      exact List.mem_map.mpr ⟨_, isFound, rfl⟩

end Layers

end ChangeImpact
