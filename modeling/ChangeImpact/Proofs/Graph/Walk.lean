/-
This file defines walks through a graph and the lists of modules that they pass.
-/

import ChangeImpact.Proofs.Graph.Adjacency
import Mathlib.Data.List.Chain
import Mathlib.Data.Nat.Find
import Mathlib.Logic.Relation
import Mathlib.Order.Bounds.Basic

namespace ChangeImpact

/-- A walk takes one step after the other. -/
inductive Walk (step : String → String → Prop) : Nat → String → String → Prop where
  | here (source : String) : Walk step 0 source source
  | onward {length : Nat} {source middle target : String}
      (walk : Walk step length source middle) (last : step middle target) :
      Walk step (length + 1) source target

/-- A route lists the modules of a walk, both ends included. -/
structure Route (step : String → String → Prop) (source target : String) (path : List String) :
    Prop where
  starts : path.head? = some source
  ends : path.getLast? = some target
  chained : path.IsChain step

/-- A shortest route passes no module twice, and no walk between its ends takes fewer steps. -/
structure ShortestRoute (step : String → String → Prop) (source target : String)
    (path : List String) : Prop extends Route step source target path where
  nodup : path.Nodup
  shortest : ∀ length, Walk step length source target → path.length ≤ length + 1

variable {step : String → String → Prop} {source middle target : String}

theorem Walk.mono {wider : String → String → Prop} (within : ∀ a b, step a b → wider a b)
    {length : Nat} (walk : Walk step length source target) : Walk wider length source target := by
  induction walk with
  | here source => exact .here source
  | onward _ last ih => exact ih.onward (within _ _ last)

/-- A walk of no more than one step stays where it is or takes that step. -/
theorem Walk.eq_or_step {length : Nat} (walk : Walk step length source target)
    (short : length ≤ 1) : source = target ∨ step source target := by
  cases walk with
  | here => exact .inl rfl
  | onward walk last =>
      cases walk with
      | here => exact .inr last
      | onward => omega

/-- The first step of a walk can be taken before the others. -/
theorem Walk.before {length : Nat} (first : step source middle)
    (walk : Walk step length middle target) : Walk step (length + 1) source target := by
  induction walk with
  | here => exact (Walk.here source).onward first
  | onward _ last ih => exact (ih first).onward last

/-- If every step can be taken back, then so can a walk. -/
theorem Walk.back {reverse : String → String → Prop}
    (each : ∀ before after, step before after → reverse after before) {length : Nat}
    (walk : Walk step length source target) : Walk reverse length target source := by
  induction walk with
  | here source => exact .here source
  | onward _ last ih => exact ih.before (each _ _ last)

/-- If every step that a narrower relation lacks leads to a seed, then of a walk from a seed the part
after the last seed is a walk of the narrower relation. -/
theorem Walk.exists_afterLast {wider narrower : String → String → Prop} {seeds : List String}
    (each : ∀ before after, wider before after → after ∈ seeds ∨ narrower before after)
    {length : Nat} (isSeed : source ∈ seeds) (walk : Walk wider length source target) :
    ∃ start ∈ seeds, ∃ shorter ≤ length, Walk narrower shorter start target := by
  induction walk with
  | here source => exact ⟨source, isSeed, 0, le_rfl, .here source⟩
  | @onward length source middle target _ last ih =>
      obtain ⟨start, isStart, shorter, le, walk⟩ := ih isSeed
      rcases each middle target last with isNext | narrow
      -- A seed on the way is a start of its own.
      · exact ⟨target, isNext, 0, Nat.zero_le _, .here target⟩
      · exact ⟨start, isStart, shorter + 1, Nat.succ_le_succ le, walk.onward narrow⟩

/-- Some walk joins two modules exactly if finitely many steps do. -/
theorem exists_walk_iff :
    (∃ length, Walk step length source target) ↔ Relation.ReflTransGen step source target := by
  constructor
  · rintro ⟨length, walk⟩
    induction walk with
    | here => exact .refl
    | onward _ last ih => exact ih.tail last
  · intro joined
    induction joined with
    | refl => exact ⟨0, .here source⟩
    | tail _ last ih =>
        obtain ⟨length, walk⟩ := ih
        exact ⟨length + 1, walk.onward last⟩

/-- The modules of a route are those of a walk with one step fewer. -/
theorem Route.walk {path : List String} (route : Route step source target path) :
    ∃ length, path.length = length + 1 ∧ Walk step length source target := by
  obtain ⟨starts, ends, chained⟩ := route
  induction path generalizing source with
  | nil => simp at starts
  | cons first rest ih =>
      obtain rfl : first = source := by simpa using starts
      cases rest with
      | nil =>
          obtain rfl : first = target := by simpa using ends
          exact ⟨0, rfl, .here first⟩
      | cons second rest =>
          rw [List.isChain_cons_cons] at chained
          obtain ⟨length, size, walk⟩ := ih rfl (by simpa using ends) chained.2
          exact ⟨length + 1, by simp_all, walk.before chained.1⟩

/-- A further step makes a route longer. -/
theorem Route.concat {path : List String} (route : Route step source middle path)
    (last : step middle target) : Route step source target (path ++ [target]) where
  starts := by simp [route.starts]
  ends := by simp
  chained := by
    refine List.isChain_append.mpr ⟨route.chained, .singleton _, ?_⟩
    simp [route.ends, last]

/-- All shortest routes between two modules have the same length. -/
theorem ShortestRoute.length_eq {path other : List String}
    (route : ShortestRoute step source target path)
    (another : ShortestRoute step source target other) : path.length = other.length := by
  obtain ⟨length, size, walk⟩ := route.toRoute.walk
  obtain ⟨otherLength, otherSize, otherWalk⟩ := another.toRoute.walk
  have above := route.shortest otherLength otherWalk
  have below := another.shortest length walk
  omega

/-- Every module that a route enters after its start is one that a step leads to. -/
theorem Route.entered {path : List String} (route : Route step source target path)
    {entered : String} (member : entered ∈ path.tail) : ∃ before, step before entered := by
  obtain ⟨starts, ends, chained⟩ := route
  clear ends starts
  induction path with
  | nil => simp at member
  | cons first rest ih =>
      cases rest with
      | nil => simp at member
      | cons second rest =>
          rw [List.isChain_cons_cons] at chained
          rcases List.mem_cons.mp member with rfl | later
          · exact ⟨first, chained.1⟩
          · exact ih later chained.2

/-- The distance of a module is the length of a shortest walk from one of the seeds. -/
def IsDistance (step : String → String → Prop) (seeds : List String) (target : String)
    (distance : Nat) : Prop :=
  IsLeast {length | ∃ seed ∈ seeds, Walk step length seed target} distance

/-- A module that a walk from a seed leads to has a distance, which is no longer than the walk. -/
theorem exists_isDistance_of_walk {seeds : List String} {length : Nat} (isSeed : source ∈ seeds)
    (walk : Walk step length source target) :
    ∃ distance ≤ length, IsDistance step seeds target distance := by
  classical
  have some : ∃ length, ∃ seed ∈ seeds, Walk step length seed target :=
    ⟨length, source, isSeed, walk⟩
  exact ⟨Nat.find some, Nat.find_min' some ⟨source, isSeed, walk⟩, Nat.find_spec some,
    fun _ member => Nat.find_min' some member⟩

/-- This relation takes a step over some dependency to a module that may be entered. -/
def Follows (dependencies : List Dependency) (direction : Direction) (enters : String → Prop)
    (source target : String) : Prop :=
  enters target ∧
    ∃ edge ∈ dependencies, direction.start edge = source ∧ direction.finish edge = target

/-- This relation takes a step of a graph to a module that may be entered. -/
def Graph.Leads (graph : Graph) (direction : Direction) (enters : String → Prop)
    (source target : String) : Prop :=
  enters target ∧ ∃ edge ∈ graph.edgesFrom source direction, direction.finish edge = target

/-- A graph leads where its dependencies can be followed. -/
theorem Graph.leads_ofDependencies (dependencies : List Dependency) (direction : Direction)
    (enters : String → Prop) :
    (ofDependencies dependencies).Leads direction enters =
      Follows dependencies direction enters := by
  funext source target
  simp only [Leads, Follows, mem_edgesFrom_ofDependencies, and_assoc]

end ChangeImpact
