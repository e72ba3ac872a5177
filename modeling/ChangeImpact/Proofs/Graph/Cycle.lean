/-
This file shows that the cycles among some modules are their cyclic components, in order.
-/

import ChangeImpact.Graph.Cycle
import ChangeImpact.Proofs.Distinct
import ChangeImpact.Proofs.Graph.Component
import ChangeImpact.Proofs.Graph.Reachable
import Mathlib.Data.List.Dedup

namespace ChangeImpact

open Relation

/-- Within some modules one depends on another if a dependency says so. -/
def DependsWithin (dependencies : List Dependency) (modules : List String)
    (path other : String) : Prop :=
  path ∈ modules ∧ other ∈ modules ∧
    ∃ edge ∈ dependencies, edge.dependent = path ∧ edge.provider = other

namespace Graph

/-- Within some modules a graph leads from one to the modules that it depends on. -/
def Within (graph : Graph) (modules : List String) (path other : String) : Prop :=
  path ∈ modules ∧ graph.Leads .dependencies (· ∈ modules) path other

theorem within_ofDependencies (dependencies : List Dependency) (modules : List String) :
    (ofDependencies dependencies).Within modules = DependsWithin dependencies modules := by
  funext path other
  simp only [Within, leads_ofDependencies, Follows, DependsWithin]
  rfl

theorem within_congr (graph : Graph) {modules others : List String}
    (same : ∀ path, path ∈ others ↔ path ∈ modules) :
    graph.Within others = graph.Within modules := by
  funext path other
  simp only [Within, Leads, same]

theorem mem_sortPaths {paths : List String} {path : String} :
    path ∈ sortPaths paths ↔ path ∈ paths :=
  (List.mergeSort_perm _ _).mem_iff

theorem sortedLE_sortPaths (paths : List String) : (sortPaths paths).SortedLE :=
  (List.pairwise_mergeSort' (· ≤ ·) paths).sortedLE

/-- Without repetitions the sorted modules rise strictly. -/
theorem sortedLT_sortPaths {paths : List String} (nodup : paths.Nodup) :
    (sortPaths paths).SortedLT :=
  List.sortedLT_iff_nodup_and_sortedLE.mpr
    ⟨(List.mergeSort_perm _ _).nodup_iff.mpr nodup, sortedLE_sortPaths paths⟩

variable {graph : Graph} {members : List String} {path other : String}

/-- Steps onto members lead from a member through members alone. -/
theorem reflTransGen_within_iff (isMember : path ∈ members) :
    ReflTransGen (graph.Leads .dependencies (· ∈ members)) path other ↔
      other ∈ members ∧ ReflTransGen (graph.Within members) path other := by
  constructor
  · intro joined
    induction joined with
    | refl => exact ⟨isMember, .refl⟩
    | tail _ last ih => exact ⟨last.1, ih.2.tail ⟨ih.1, last⟩⟩
  · rintro ⟨_, joined⟩
    exact joined.lift id fun _ _ step => step.2

/-- This is the exploration behind a closure. -/
def spanned (graph : Graph) (members : List String) (path : String) : List Reach :=
  graph.reachable [path] .dependencies (Std.HashSet.ofList members).size
    fun other => !(Std.HashSet.ofList members).contains other

/-- The exploration takes steps onto members alone. -/
theorem leads_spanned (graph : Graph) (isMember : path ∈ members) :
    (graph.Leads .dependencies fun other =>
      other ∈ [path] ∨ (!(Std.HashSet.ofList members).contains other) = false) =
      graph.Leads .dependencies (· ∈ members) := by
  have enters (other : String) :
      (other ∈ [path] ∨ (!(Std.HashSet.ofList members).contains other) = false) ↔
        other ∈ members := by
    simp only [List.mem_singleton, Std.HashSet.contains_ofList, Bool.not_eq_false',
      List.contains_iff_mem]
    constructor
    · rintro (rfl | among)
      · exact isMember
      · exact among
    · exact .inr
  simp only [enters]

theorem joined_of_spanned (isMember : path ∈ members)
    (member : other ∈ (graph.spanned members path).map Reach.path) :
    ReflTransGen (graph.Leads .dependencies (· ∈ members)) path other := by
  obtain ⟨record, isRecord, rfl⟩ := List.mem_map.mp member
  obtain ⟨_, ⟨seed, isSeed, walk⟩, _⟩ :=
    mem_layers_reachable_iff.mp (mem_layers_of_mem isRecord)
  rw [leads_spanned graph isMember] at walk
  obtain rfl : seed = path := List.mem_singleton.mp isSeed
  exact exists_walk_iff.mp ⟨_, walk⟩

/-- The exploration is deep enough for all members. -/
theorem length_spanned_le (nodup : members.Nodup) (isMember : path ∈ members) :
    (graph.spanned members path).length ≤ (Std.HashSet.ofList members).size := by
  have within : (graph.spanned members path).map Reach.path ⊆ members := fun other member =>
    ((reflTransGen_within_iff isMember).mp (joined_of_spanned isMember member)).1
  have distinct : members.Pairwise fun left right => (left == right) = false :=
    nodup.imp fun apart => beq_false_of_ne apart
  rw [Std.HashSet.size_ofList distinct, ← List.length_map (f := Reach.path)]
  exact (reachable_nodup graph [path] _ _ _).length_le_of_subset within

/-- The closure of a member holds exactly the members that steps within them lead to. -/
theorem mem_closure_iff (nodup : members.Nodup) (isMember : path ∈ members) :
    (graph.closure (.ofList members) path).contains other = true ↔
      other ∈ members ∧ ReflTransGen (graph.Within members) path other := by
  rw [closure, Std.HashSet.contains_ofList, List.contains_iff_mem,
    ← reflTransGen_within_iff isMember]
  refine ⟨joined_of_spanned isMember, fun joined => ?_⟩
  obtain ⟨length, walk⟩ := exists_walk_iff.mpr joined
  rw [← leads_spanned graph isMember] at walk
  exact mem_reachable_of_walk (length_spanned_le nodup isMember) List.mem_cons_self walk

/-- Two members are joined if each is in the closure of the other. -/
def joins (graph : Graph) (members : List String) (path other : String) : Bool :=
  (graph.closure (.ofList members) path).contains other &&
    (graph.closure (.ofList members) other).contains path

theorem joins_iff (nodup : members.Nodup) (left : path ∈ members) (right : other ∈ members) :
    graph.joins members path other = true ↔ Mutual (graph.Within members) path other := by
  rw [joins, Bool.and_eq_true, mem_closure_iff nodup left, mem_closure_iff nodup right]
  exact ⟨fun both => ⟨both.1.2, both.2.2⟩, fun both => ⟨⟨right, both.1⟩, ⟨left, both.2⟩⟩⟩

/-- This is the component of a member. -/
def component (graph : Graph) (members : List String) (path : String) : List String :=
  members.filter (graph.joins members path)

theorem components_eq (graph : Graph) (members : List String) :
    graph.components members = members.map (graph.component members) := by
  simp only [components, List.map_map, List.filter_map]
  refine List.map_congr_left fun path _ => ?_
  exact List.map_id _

/-- This is the cycle that is listed at a member. -/
def cycleAt? (graph : Graph) (members : List String) (path : String) : Option (List String) :=
  if (graph.component members path).head? = some path ∧
      (1 < (graph.component members path).length ∨ graph.dependsOnItself path) then
    some (graph.component members path)
  else none

theorem cycles_eq (graph : Graph) (modules : List String) :
    graph.cycles modules =
      (sortPaths (distinct modules)).filterMap (graph.cycleAt? (sortPaths (distinct modules))) := by
  rw [cycles, components_eq, ← List.map_prod_left_eq_zip, List.filterMap_map]
  rfl

theorem mem_component_iff (nodup : members.Nodup) (isMember : path ∈ members) :
    other ∈ graph.component members path ↔
      other ∈ members ∧ Mutual (graph.Within members) path other := by
  rw [component, List.mem_filter]
  exact and_congr_right fun among => joins_iff nodup isMember among

theorem isComponent_component (nodup : members.Nodup) (isMember : path ∈ members) :
    IsComponent (graph.Within members) members (graph.component members path) :=
  isComponent_of_mem_iff isMember fun _ => mem_component_iff nodup isMember

theorem mem_component_self (nodup : members.Nodup) (isMember : path ∈ members) :
    path ∈ graph.component members path :=
  (mem_component_iff nodup isMember).mpr ⟨isMember, .refl _ path⟩

theorem sortedLT_component (graph : Graph) (sorted : members.SortedLT) (path : String) :
    (graph.component members path).SortedLT :=
  (sorted.pairwise.sublist List.filter_sublist).sortedLT

theorem dependsOnItself_iff (isMember : path ∈ members) :
    graph.dependsOnItself path = true ↔ graph.Within members path path := by
  simp [dependsOnItself, neighbors, Within, Leads, isMember]

/-- A cycle that is listed at a member is a sorted cyclic component and starts there. -/
theorem of_cycleAt? {cycle : List String} (sorted : members.SortedLT) (isMember : path ∈ members)
    (listed : graph.cycleAt? members path = some cycle) :
    cycle.head? = some path ∧ cycle.SortedLT ∧
      IsComponent (graph.Within members) members cycle ∧
      IsCyclic (graph.Within members) cycle := by
  rw [cycleAt?, Option.ite_none_right_eq_some] at listed
  obtain ⟨⟨head, cyclic⟩, same⟩ := listed
  obtain rfl := Option.some.inj same
  refine ⟨head, sortedLT_component graph sorted path,
    isComponent_component sorted.nodup isMember, cyclic.imp_right fun itself => ?_⟩
  exact ⟨path, mem_component_self sorted.nodup isMember, (dependsOnItself_iff isMember).mp itself⟩

/-- A sorted cyclic component is listed at its first member. -/
theorem cycleAt?_head {cycle : List String} (sorted : members.SortedLT)
    (isSorted : cycle.SortedLT) (isComponent : IsComponent (graph.Within members) members cycle)
    (cyclic : IsCyclic (graph.Within members) cycle) :
    ∃ path ∈ members, graph.cycleAt? members path = some cycle := by
  obtain ⟨path, rest, rfl⟩ := List.exists_cons_of_ne_nil isComponent.nonempty
  have isMember : path ∈ members := isComponent.among path List.mem_cons_self
  have same : graph.component members path = path :: rest :=
    (isComponent_component sorted.nodup isMember).eq_of_mem isComponent
      (sortedLT_component graph sorted path) isSorted
      (mem_component_self sorted.nodup isMember) List.mem_cons_self
  refine ⟨path, isMember, ?_⟩
  rw [cycleAt?, same, if_pos]
  refine ⟨rfl, ?_⟩
  by_cases several : 1 < (path :: rest).length
  · exact .inl several
  · obtain ⟨itself, member, step⟩ := cyclic.resolve_left several
    match rest, several, member with
    | [], _, member =>
        rw [List.mem_singleton.mp member] at step
        exact .inr ((dependsOnItself_iff isMember).mpr step)
    | _ :: _, several, _ => simp at several

theorem mem_sortPaths_distinct {modules : List String} (path : String) :
    path ∈ sortPaths (distinct modules) ↔ path ∈ modules := by
  rw [mem_sortPaths, mem_distinct]

/-- Exactly the sorted cyclic components are listed. -/
theorem mem_cycles_iff {modules cycle : List String} :
    cycle ∈ graph.cycles modules ↔ cycle.SortedLT ∧
      IsComponent (graph.Within modules) modules cycle ∧ IsCyclic (graph.Within modules) cycle := by
  have sorted := sortedLT_sortPaths (distinct_nodup modules)
  rw [cycles_eq, List.mem_filterMap, ← within_congr graph mem_sortPaths_distinct,
    ← isComponent_congr mem_sortPaths_distinct]
  constructor
  · rintro ⟨path, isMember, listed⟩
    exact (of_cycleAt? sorted isMember listed).2
  · rintro ⟨isSorted, isComponent, cyclic⟩
    exact cycleAt?_head sorted isSorted isComponent cyclic

/-- Every module belongs to some sorted component. -/
theorem exists_component (graph : Graph) {modules : List String} (isModule : path ∈ modules) :
    ∃ part, part.SortedLT ∧ IsComponent (graph.Within modules) modules part ∧ path ∈ part := by
  have sorted := sortedLT_sortPaths (distinct_nodup modules)
  have isMember := (mem_sortPaths_distinct path).mpr isModule
  refine ⟨graph.component (sortPaths (distinct modules)) path,
    sortedLT_component graph sorted path, ?_, mem_component_self sorted.nodup isMember⟩
  rw [← within_congr graph mem_sortPaths_distinct, ← isComponent_congr mem_sortPaths_distinct]
  exact isComponent_component sorted.nodup isMember

/-- The cycles are listed in ascending order. -/
theorem sortedLT_cycles (graph : Graph) (modules : List String) :
    (graph.cycles modules).SortedLT := by
  have sorted := sortedLT_sortPaths (distinct_nodup modules)
  rw [cycles_eq, List.sortedLT_iff_pairwise, List.pairwise_filterMap]
  -- Each cycle starts with the member at which it is listed, and the members rise.
  refine sorted.pairwise.imp_of_mem fun {path other} isMember isOther lt first isFirst second
    isSecond => ?_
  obtain ⟨head, _⟩ := of_cycleAt? sorted isMember isFirst
  obtain ⟨otherHead, _⟩ := of_cycleAt? sorted isOther isSecond
  obtain ⟨rest, rfl⟩ := List.head?_eq_some_iff.mp head
  obtain ⟨otherRest, rfl⟩ := List.head?_eq_some_iff.mp otherHead
  exact List.Lex.rel lt

variable {modules : List String}

/-- No two cycles have a module in common. -/
theorem disjoint_cycles (graph : Graph) (modules : List String) :
    (graph.cycles modules).Pairwise List.Disjoint := by
  refine (sortedLT_cycles graph modules).pairwise.imp_of_mem
    fun {first second} isFirst isSecond lt path left right => ?_
  obtain ⟨sorted, isComponent, _⟩ := mem_cycles_iff.mp isFirst
  obtain ⟨isSorted, another, _⟩ := mem_cycles_iff.mp isSecond
  exact lt.ne (isComponent.eq_of_mem another sorted isSorted left right)

/-- The cycles depend on nothing but the steps between the modules. -/
theorem cycles_congr {another : Graph} {others : List String}
    (same : ∀ path, path ∈ others ↔ path ∈ modules)
    (within : another.Within others = graph.Within modules) :
    another.cycles others = graph.cycles modules := by
  refine (sortedLT_cycles another others).pairwise.eq_of_mem_iff
    (sortedLT_cycles graph modules).pairwise fun cycle => ?_
  rw [mem_cycles_iff, mem_cycles_iff, within, isComponent_congr same]

/-- Two modules share a cycle exactly if steps lead from each of them to the other. -/
theorem shareCycle_iff : shareCycle (graph.cycles modules) path other = true ↔
    path ∈ modules ∧ other ∈ modules ∧ TransGen (graph.Within modules) path other ∧
      TransGen (graph.Within modules) other path := by
  rw [shareCycle, List.any_eq_true]
  constructor
  · rintro ⟨cycle, listed, both⟩
    rw [Bool.and_eq_true, List.contains_iff_mem, List.contains_iff_mem] at both
    obtain ⟨sorted, isComponent, cyclic⟩ := mem_cycles_iff.mp listed
    obtain ⟨away, back⟩ := ((isComponent.mem_iff path both.1 other).mp both.2).2
    exact ⟨isComponent.among path both.1, isComponent.among other both.2,
      (isComponent.transGen_self sorted.nodup cyclic both.1).trans_left away,
      (isComponent.transGen_self sorted.nodup cyclic both.2).trans_left back⟩
  · rintro ⟨isModule, isOther, away, back⟩
    obtain ⟨part, sorted, isComponent, member⟩ := exists_component graph isModule
    have isMember : other ∈ part := (isComponent.mem_iff path member other).mpr
      ⟨isOther, away.to_reflTransGen, back.to_reflTransGen⟩
    have cyclic : IsCyclic (graph.Within modules) part :=
      isComponent.isCyclic (fun _ _ step => step.2.1) member (away.trans back)
    refine ⟨part, mem_cycles_iff.mpr ⟨sorted, isComponent, cyclic⟩, ?_⟩
    simp [member, isMember]

/-- There are no cycles exactly if no steps lead from a module back to it. -/
theorem cycles_eq_nil_iff :
    graph.cycles modules = [] ↔ ∀ path, ¬ TransGen (graph.Within modules) path path := by
  constructor
  · intro none path back
    obtain ⟨_, first, _⟩ := TransGen.head'_iff.mp back
    have shared := shareCycle_iff.mpr ⟨first.1, first.1, back, back⟩
    simp [none, shareCycle] at shared
  · intro acyclic
    refine List.eq_nil_iff_forall_not_mem.mpr fun cycle listed => ?_
    obtain ⟨sorted, isComponent, cyclic⟩ := mem_cycles_iff.mp listed
    obtain ⟨path, member⟩ := List.exists_mem_of_ne_nil _ isComponent.nonempty
    exact acyclic path (isComponent.transGen_self sorted.nodup cyclic member)

/-- Of given components these are the cyclic ones, sorted and in ascending order. -/
def cyclesOf (graph : Graph) (parts : List (List String)) : List (List String) :=
  ((parts.filter fun part =>
    1 < part.length || part.any graph.dependsOnItself).map sortPaths).mergeSort fun left right =>
      decide (left ≤ right)

/-- Some lists of modules are their components. -/
theorem exists_splits (graph : Graph) (modules : List String) :
    ∃ parts, Splits (graph.Within modules) modules parts := by
  have each : ∀ path ∈ modules, ∃ part : List String,
      part.SortedLT ∧ IsComponent (graph.Within modules) modules part ∧ path ∈ part :=
    fun _ member => exists_component graph member
  choose! part sorted isComponent among using each
  refine ⟨(modules.map part).dedup, ?_, List.nodup_flatten.mpr ⟨?_, ?_⟩, ?_⟩
  · intro _ listed
    obtain ⟨path, member, rfl⟩ := List.mem_map.mp (List.mem_dedup.mp listed)
    exact isComponent path member
  · intro _ listed
    obtain ⟨path, member, rfl⟩ := List.mem_map.mp (List.mem_dedup.mp listed)
    exact (sorted path member).nodup
  · refine (List.nodup_dedup _).imp_of_mem fun {first second} isFirst isSecond apart => ?_
    obtain ⟨path, member, rfl⟩ := List.mem_map.mp (List.mem_dedup.mp isFirst)
    obtain ⟨other, isOther, rfl⟩ := List.mem_map.mp (List.mem_dedup.mp isSecond)
    intro shared left right
    exact apart ((isComponent path member).eq_of_mem (isComponent other isOther)
      (sorted path member) (sorted other isOther) left right)
  · intro path member
    exact List.mem_flatten.mpr
      ⟨part path, List.mem_dedup.mpr (List.mem_map_of_mem member), among path member⟩

section Splits

variable {parts : List (List String)} (splits : Splits (graph.Within modules) modules parts)

include splits

/-- Components that are listed once each are told apart by their sorted modules. -/
theorem eq_of_sortPaths_eq {part another : List String} (isPart : part ∈ parts)
    (isAnother : another ∈ parts) (same : sortPaths part = sortPaths another) :
    part = another := by
  by_contra apart
  have symm : Std.Symm (@List.Disjoint String) := ⟨fun _ _ apart _ left right => apart right left⟩
  have disjoint : List.Disjoint part another :=
    (List.nodup_flatten.mp splits.nodup).2.forall isPart isAnother apart
  obtain ⟨path, member⟩ := List.exists_mem_of_ne_nil _ (splits.isComponent part isPart).nonempty
  refine disjoint member ?_
  rwa [← mem_sortPaths, ← same, mem_sortPaths]

/-- The cyclic ones of the components are the sorted cyclic components. -/
theorem mem_cyclesOf_iff {cycle : List String} : cycle ∈ graph.cyclesOf parts ↔
    cycle.SortedLT ∧ IsComponent (graph.Within modules) modules cycle ∧
      IsCyclic (graph.Within modules) cycle := by
  have cyclic_iff {part : List String} (isPart : part ∈ parts) :
      (1 < part.length || part.any graph.dependsOnItself) = true ↔
        IsCyclic (graph.Within modules) (sortPaths part) := by
    rw [IsCyclic, Bool.or_eq_true, decide_eq_true_eq, List.any_eq_true,
      show (sortPaths part).length = part.length from (List.mergeSort_perm _ _).length_eq]
    refine or_congr_right (exists_congr fun path => ?_)
    rw [mem_sortPaths]
    exact and_congr_right fun member =>
      dependsOnItself_iff ((splits.isComponent part isPart).among path member)
  have sorted {part : List String} (isPart : part ∈ parts) : (sortPaths part).SortedLT :=
    sortedLT_sortPaths ((List.nodup_flatten.mp splits.nodup).1 part isPart)
  have isComponent {part : List String} (isPart : part ∈ parts) :
      IsComponent (graph.Within modules) modules (sortPaths part) :=
    (splits.isComponent part isPart).congr fun _ => mem_sortPaths.symm
  rw [cyclesOf, (List.mergeSort_perm _ _).mem_iff, List.mem_map]
  constructor
  · rintro ⟨part, kept, rfl⟩
    obtain ⟨isPart, cyclic⟩ := List.mem_filter.mp kept
    exact ⟨sorted isPart, isComponent isPart, (cyclic_iff isPart).mp cyclic⟩
  · rintro ⟨isSorted, isCycle, cyclic⟩
    obtain ⟨path, member⟩ := List.exists_mem_of_ne_nil _ isCycle.nonempty
    obtain ⟨part, isPart, among⟩ :=
      List.mem_flatten.mp (splits.complete path (isCycle.among path member))
    have same : sortPaths part = cycle := (isComponent isPart).eq_of_mem isCycle (sorted isPart)
      isSorted (mem_sortPaths.mpr among) member
    exact ⟨part, List.mem_filter.mpr ⟨isPart, (cyclic_iff isPart).mpr (same ▸ cyclic)⟩, same⟩

/-- However the components are found, the cycles among them are the same. -/
theorem cyclesOf_eq : graph.cyclesOf parts = graph.cycles modules := by
  have disjoint := (List.nodup_flatten.mp splits.nodup).2
  have nodup : parts.Nodup := by
    refine disjoint.imp_of_mem fun {part another} isPart _ apart same => ?_
    obtain ⟨path, member⟩ :=
      List.exists_mem_of_ne_nil _ (splits.isComponent part isPart).nonempty
    exact apart member (same ▸ member)
  have distinct : (graph.cyclesOf parts).Nodup := by
    rw [cyclesOf, (List.mergeSort_perm _ _).nodup_iff]
    refine (nodup.filter _).map_on fun part isPart another isAnother => ?_
    exact eq_of_sortPaths_eq splits (List.mem_of_mem_filter isPart)
      (List.mem_of_mem_filter isAnother)
  have sorted : (graph.cyclesOf parts).SortedLT :=
    List.sortedLT_iff_nodup_and_sortedLE.mpr
      ⟨distinct, (List.pairwise_mergeSort' (· ≤ ·) _).sortedLE⟩
  refine sorted.pairwise.eq_of_mem_iff (sortedLT_cycles graph modules).pairwise fun cycle => ?_
  rw [mem_cyclesOf_iff splits, mem_cycles_iff]

end Splits

/-- The cycles among some modules are their cyclic components: they are disjoint, sorted and in
ascending order, and nothing but the sets of the dependencies and of the modules matters. Two
modules share a cycle exactly if each depends on the other, and there are no cycles exactly if no
module depends on itself, in any number of steps. The order in which components are found does not
matter either. -/
theorem cycles_cyclicComponents (dependencies : List Dependency) (modules : List String) :
    (∀ cycle, cycle ∈ (ofDependencies dependencies).cycles modules ↔
      cycle.SortedLT ∧ IsComponent (DependsWithin dependencies modules) modules cycle ∧
        IsCyclic (DependsWithin dependencies modules) cycle) ∧
    ((ofDependencies dependencies).cycles modules).Pairwise List.Disjoint ∧
    ((ofDependencies dependencies).cycles modules).SortedLT ∧
    (∀ others names, (∀ edge, edge ∈ others ↔ edge ∈ dependencies) →
      (∀ path, path ∈ names ↔ path ∈ modules) →
      (ofDependencies others).cycles names = (ofDependencies dependencies).cycles modules) ∧
    (∀ path other,
      shareCycle ((ofDependencies dependencies).cycles modules) path other = true ↔
        path ∈ modules ∧ other ∈ modules ∧
          TransGen (DependsWithin dependencies modules) path other ∧
          TransGen (DependsWithin dependencies modules) other path) ∧
    ((ofDependencies dependencies).cycles modules = [] ↔
      ∀ path, ¬ TransGen (DependsWithin dependencies modules) path path) ∧
    (∃ parts, Splits (DependsWithin dependencies modules) modules parts) ∧
    ∀ parts, Splits (DependsWithin dependencies modules) modules parts →
      (ofDependencies dependencies).cyclesOf parts =
        (ofDependencies dependencies).cycles modules := by
  simp only [← within_ofDependencies]
  refine ⟨fun _ => mem_cycles_iff, disjoint_cycles _ modules, sortedLT_cycles _ modules, ?_,
    fun _ _ => shareCycle_iff, cycles_eq_nil_iff, exists_splits _ modules,
    fun _ splits => cyclesOf_eq splits⟩
  intro others names sameEdges samePaths
  refine cycles_congr samePaths ?_
  rw [within_ofDependencies, within_ofDependencies]
  funext path other
  simp only [DependsWithin, sameEdges, samePaths]

end Graph

end ChangeImpact
