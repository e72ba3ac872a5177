/-
This file shows that a search for a path finds a shortest one unless no walk leads to the target.
-/

import ChangeImpact.Graph.Path
import ChangeImpact.Proofs.Graph.Layers

namespace ChangeImpact

namespace PathSearch

/-- A step of a search leads to a module that is not avoided. -/
def Leads (search : PathSearch) : String → String → Prop :=
  search.graph.Leads search.direction fun path => search.avoided path = false

/-- Exactly the modules found after the source are linked to a module before them. -/
structure Linked (search : PathSearch) (state : State) : Prop where
  nodup : state.order.toList.Nodup
  started : search.source ∈ state.order.toList
  mem_previous_iff : ∀ path : String,
    path ∈ state.previous ↔ path ∈ state.order.toList ∧ path ≠ search.source
  size : state.previous.size + 1 = state.order.size

/-- A look at some modules next to `current` links the new ones among them to it. -/
structure Grown (search : PathSearch) (current : String) (near : List String) (state : State)
    (fresh : List String) (grown : State) : Prop where
  linked : search.Linked grown
  next : grown.next = state.next
  order : grown.order.toList = state.order.toList ++ fresh
  previous : ∀ path : String, grown.previous[path]? =
    if path ∈ fresh then some current else state.previous[path]?
  stepped : ∀ target ∈ fresh, target ∈ near ∧ search.avoided target = false
  complete : ∀ target ∈ near, search.avoided target = false → target ∈ grown.order.toList

/-- The invariant of a search: the modules stand in layers, and each of them is linked to one that
is a step nearer. -/
structure Searched (search : PathSearch) (state : State) (found : List (String × Nat)) :
    Prop where
  linked : search.Linked state
  order : found.map Prod.fst = state.order.toList
  layers : Layers search.Leads [search.source] ⊤ found state.next
  links : ∀ path earlier : String, state.previous[path]? = some earlier →
    search.Leads earlier path ∧
      ∃ distance, (earlier, distance) ∈ found ∧ (path, distance + 1) ∈ found

variable {search : PathSearch} {state : State} {found : List (String × Nat)}
  {current target : String}

/-- A module is passed over if it is avoided or found already. -/
theorem Linked.visit_eq (linked : search.Linked state) (current target : String) :
    search.visit current state target =
      if search.avoided target = true ∨ target ∈ state.order.toList then state
      else { state with
        order := state.order.push target
        previous := state.previous.insert target current } := by
  have known : target ∈ state.order.toList ↔
      target = search.source ∨ target ∈ state.previous := by
    rw [linked.mem_previous_iff]
    by_cases same : target = search.source
    · simp [same, linked.started]
    · simp [same]
  simp only [visit, Bool.or_eq_true, beq_iff_eq, Std.HashMap.contains_iff_mem, known, or_assoc]

/-- A new module may be linked to any other. -/
theorem Linked.push (linked : search.Linked state) (current : String)
    (new : target ∉ state.order.toList) :
    search.Linked { state with
      order := state.order.push target
      previous := state.previous.insert target current } where
  nodup := by
    rw [Array.toList_push]
    exact List.nodup_append.mpr ⟨linked.nodup, List.nodup_singleton target, by aesop⟩
  started := by simp [linked.started]
  mem_previous_iff := by
    intro path
    have other : target ≠ search.source := fun same => new (same ▸ linked.started)
    rw [Std.HashMap.mem_insert, linked.mem_previous_iff, Array.toList_push, List.mem_append,
      List.mem_singleton, beq_iff_eq]
    constructor
    · rintro (rfl | ⟨old, isOther⟩)
      · exact ⟨.inr rfl, other⟩
      · exact ⟨.inl old, isOther⟩
    · rintro ⟨old | rfl, isOther⟩
      · exact .inr ⟨old, isOther⟩
      · exact .inl rfl
  size := by
    have absent : target ∉ state.previous :=
      fun member => new ((linked.mem_previous_iff target).mp member).1
    rw [Std.HashMap.size_insert, if_neg absent, Array.size_push, linked.size]

section Grown

variable {first : String} {rest fresh : List String} {last : State}

/-- A module that is passed over adds nothing to what the later looks find. -/
theorem Grown.pass (grown : search.Grown current rest state fresh last)
    (passed : search.avoided first = true ∨ first ∈ state.order.toList) :
    search.Grown current (first :: rest) state fresh last where
  linked := grown.linked
  next := grown.next
  order := grown.order
  previous := grown.previous
  stepped target isFresh := (grown.stepped target isFresh).imp_left (List.mem_cons_of_mem _)
  complete target member isOpen := by
    rcases List.mem_cons.mp member with rfl | later
    · rw [grown.order]
      exact List.mem_append_left _ (passed.resolve_left (by simp [isOpen]))
    · exact grown.complete target later isOpen

/-- A module that is found comes before those that the later looks find. -/
theorem Grown.push
    (grown : search.Grown current rest { state with
      order := state.order.push first
      previous := state.previous.insert first current } fresh last)
    (visible : search.avoided first = false) :
    search.Grown current (first :: rest) state (first :: fresh) last where
  linked := grown.linked
  next := grown.next
  order := by simp [grown.order]
  previous path := by
    rw [grown.previous, Std.HashMap.getElem?_insert]
    by_cases isFresh : path ∈ fresh
    · simp [isFresh]
    · by_cases same : first = path
      · simp [same]
      · simp [isFresh, same, Ne.symm same]
  stepped target member := by
    rcases List.mem_cons.mp member with rfl | later
    · exact ⟨List.mem_cons_self, visible⟩
    · exact (grown.stepped target later).imp_left (List.mem_cons_of_mem _)
  complete target member isOpen := by
    rcases List.mem_cons.mp member with rfl | later
    · simp [grown.order]
    · exact grown.complete target later isOpen

end Grown

/-- The neighbours of a module are looked at one after the other. -/
theorem Linked.grow (linked : search.Linked state) (current : String) (near : List String) :
    ∃ fresh, search.Grown current near state fresh (near.foldl (search.visit current) state) := by
  induction near generalizing state with
  | nil => exact ⟨[], linked, rfl, by simp, by simp, by simp, by simp⟩
  | cons first rest ih =>
      rw [List.foldl_cons, linked.visit_eq]
      split
      next passed =>
        obtain ⟨fresh, grown⟩ := ih linked
        exact ⟨fresh, grown.pass passed⟩
      next kept =>
        rw [not_or, Bool.not_eq_true] at kept
        obtain ⟨fresh, grown⟩ := ih (linked.push current kept.2)
        exact ⟨first :: fresh, grown.push kept.1⟩

/-- A search starts at its source. -/
theorem searched_initial (search : PathSearch) :
    search.Searched search.initial [(search.source, 0)] where
  linked := ⟨by simp [initial], by simp [initial], by simp [initial], by simp [initial]⟩
  order := rfl
  layers := .initial [search.source] [search.source] (List.nodup_singleton _) fun _ => .rfl
  links := by simp [initial]

/-- This is the state after a module is expanded. -/
def expand (search : PathSearch) (state : State) (current : String) : State :=
  (search.graph.neighbors current search.direction).foldl (search.visit current)
    { state with next := state.next + 1 }

theorem step?_eq (search : PathSearch) (state : State) :
    search.step? state = state.order[state.next]?.map (search.expand state) := rfl

/-- Expanding a module takes a look at its neighbours. -/
theorem Linked.expand (linked : search.Linked state) (current : String) :
    ∃ fresh, search.Grown current (search.graph.neighbors current search.direction)
      { state with next := state.next + 1 } fresh (search.expand state current) := by
  have advanced : search.Linked { state with next := state.next + 1 } :=
    ⟨linked.nodup, linked.started, linked.mem_previous_iff, linked.size⟩
  exact advanced.grow current _

theorem mem_neighbors_iff :
    target ∈ search.graph.neighbors current search.direction ∧ search.avoided target = false ↔
      search.Leads current target := by
  simp [Graph.neighbors, Leads, Graph.Leads, and_comm]

/-- Expanding the module that waited longest keeps the invariant. -/
theorem Searched.expand (searched : search.Searched state found)
    (here : state.order[state.next]? = some current) :
    ∃ later, search.Searched (search.expand state current) later := by
  have place : (found.map Prod.fst)[state.next]? = some current := by
    rw [searched.order, Array.getElem?_toList, here]
  rw [List.getElem?_map, Option.map_eq_some_iff] at place
  obtain ⟨⟨name, distance⟩, place, same⟩ := place
  obtain rfl : current = name := same.symm
  obtain ⟨fresh, grown⟩ := searched.linked.expand current
  have order : (found ++ fresh.map (·, distance + 1)).map Prod.fst =
      (search.expand state current).order.toList := by
    rw [grown.order, ← searched.order]
    simp [Function.comp_def]
  refine ⟨found ++ fresh.map (·, distance + 1), grown.linked, order, ?_, ?_⟩
  · rw [grown.next]
    refine searched.layers.advance place ?_ ?_ ?_
    · rw [searched.order, ← grown.order]
      exact grown.linked.nodup
    · intro target isFresh
      exact ⟨le_top, mem_neighbors_iff.mp (grown.stepped target isFresh)⟩
    · intro _ target leads
      have isNext := mem_neighbors_iff.mpr leads
      have known := grown.complete target isNext.1 isNext.2
      rwa [grown.order, ← searched.order, List.mem_append] at known
  · intro path earlier link
    rw [grown.previous] at link
    split at link
    · rename_i isFresh
      obtain rfl : current = earlier := by simpa using link
      exact ⟨mem_neighbors_iff.mp (grown.stepped path isFresh), distance,
        List.mem_append_left _ (List.mem_of_getElem? place),
        List.mem_append_right _ (List.mem_map.mpr ⟨path, isFresh, rfl⟩)⟩
    · obtain ⟨leads, nearer, isEarlier, isPath⟩ := searched.links path earlier link
      exact ⟨leads, nearer, List.mem_append_left _ isEarlier, List.mem_append_left _ isPath⟩

/-- A run keeps the invariant, and it ends early only if the target is found or no module waits. -/
theorem Searched.run (searched : search.Searched state found) (target : String) (steps : Nat) :
    ∃ later, search.Searched (search.run target steps state) later ∧
      (target ∈ (search.run target steps state).previous ∨
        (search.run target steps state).order.size ≤ (search.run target steps state).next ∨
        (search.run target steps state).next = state.next + steps) := by
  induction steps generalizing state found with
  | zero => exact ⟨found, searched, .inr (.inr rfl)⟩
  | succ steps ih =>
      unfold PathSearch.run
      split
      · rename_i reached
        exact ⟨found, searched, .inl reached⟩
      · rw [step?_eq]
        cases here : state.order[state.next]? with
        | none => exact ⟨found, searched, .inr (.inl (by simpa using here))⟩
        | some current =>
            obtain ⟨later, next⟩ := searched.expand here
            obtain ⟨last, final, ended⟩ := ih next
            obtain ⟨_, grown⟩ := searched.linked.expand current
            have advanced : (search.expand state current).next = state.next + 1 := grown.next
            refine ⟨last, final, ended.imp_right (.imp_right fun count => count.trans ?_)⟩
            omega

/-- Every module but the source is the end of a dependency of its own. -/
theorem Searched.size_le (searched : search.Searched state found) :
    state.order.size ≤ search.graph.size + 1 := by
  have within : state.order.toList ⊆
      search.source :: search.graph.edges.toList.map search.direction.finish := by
    intro path member
    by_cases isSource : path = search.source
    · exact isSource ▸ List.mem_cons_self
    · have linked := (searched.linked.mem_previous_iff path).mpr ⟨member, isSource⟩
      obtain ⟨⟨_, edge, isEdge, finish⟩, _⟩ :=
        searched.links path _ (Std.HashMap.getElem?_eq_some_getElem linked)
      exact List.mem_cons_of_mem _
        (List.mem_map.mpr ⟨edge, Graph.mem_edges_of_mem_edgesFrom isEdge, finish⟩)
  have bound := List.Nodup.length_le_of_subset searched.linked.nodup within
  simpa [Graph.size] using bound

theorem Searched.length_found (searched : search.Searched state found) :
    found.length = state.order.size := by
  rw [← List.length_map (f := Prod.fst), searched.order, Array.length_toList]

/-- At the end the target is found or every module that was found is expanded. -/
theorem searched_final (search : PathSearch) (target : String) :
    ∃ found, search.Searched (search.final target) found ∧
      (target ∈ (search.final target).previous ∨ found.length ≤ (search.final target).next) := by
  obtain ⟨found, searched, ended⟩ :=
    (searched_initial search).run target (search.graph.size + 1)
  refine ⟨found, searched, ended.imp_right fun done => searched.length_found.trans_le ?_⟩
  refine done.elim id fun count => ?_
  rw [PathSearch.final, count]
  exact searched.size_le.trans (Nat.le_add_left _ _)

theorem run_add (search : PathSearch) (target : String) (steps more : Nat) (state : State) :
    search.run target (steps + more) state =
      search.run target more (search.run target steps state) := by
  induction steps generalizing state with
  | zero => rw [Nat.zero_add, PathSearch.run]
  | succ steps ih =>
      rw [Nat.succ_add, PathSearch.run, PathSearch.run]
      split
      next reached => cases more <;> simp [PathSearch.run, reached]
      next =>
        cases ended : search.step? state with
        | none => cases more <;> simp [PathSearch.run, ended]
        | some next => exact ih next

theorem run_of_done (search : PathSearch)
    (done : target ∈ state.previous ∨ state.order.size ≤ state.next) (steps : Nat) :
    search.run target steps state = state := by
  cases steps with
  | zero => rfl
  | succ steps =>
      rw [PathSearch.run]
      split
      next => rfl
      next missing =>
        have waits := done.resolve_left (mt Std.HashMap.contains_iff_mem.mpr missing)
        rw [step?, Array.getElem?_eq_none waits, Option.map_none]

/-- More steps than there are modules to expand change nothing. -/
theorem run_of_size_lt {steps : Nat} (enough : search.graph.size < steps) (target : String) :
    search.run target steps search.initial = search.final target := by
  obtain ⟨more, rfl⟩ := Nat.exists_eq_add_of_le (Nat.succ_le_of_lt enough)
  obtain ⟨_, searched, ended⟩ := searched_final search target
  rw [run_add]
  exact run_of_done search (ended.imp_right searched.length_found.ge.trans) more

/-- The source has no distance from itself, and every other module is linked to a nearer one. -/
theorem Searched.source_or_link (searched : search.Searched state found) {distance : Nat}
    (isFound : (current, distance) ∈ found) :
    (current = search.source ∧ distance = 0) ∨
      (current ≠ search.source ∧ ∃ earlier nearer, state.previous[current]? = some earlier ∧
        search.Leads earlier current ∧ distance = nearer + 1 ∧ (earlier, nearer) ∈ found) := by
  by_cases isSource : current = search.source
  · subst isSource
    have start := searched.layers.seeded search.source List.mem_cons_self
    exact .inl ⟨rfl, searched.layers.distance_unique isFound start⟩
  · have known : current ∈ state.order.toList := by
      rw [← searched.order]
      exact List.mem_map_of_mem isFound
    have linked := (searched.linked.mem_previous_iff current).mpr ⟨known, isSource⟩
    have link := Std.HashMap.getElem?_eq_some_getElem linked
    obtain ⟨leads, nearer, isEarlier, isCurrent⟩ := searched.links current _ link
    exact .inr ⟨isSource, _, nearer, link, leads,
      searched.layers.distance_unique isFound isCurrent, isEarlier⟩

/-- The links lead back to the source along a route that passes no module twice. -/
theorem Searched.trace (searched : search.Searched state found) {distance steps : Nat}
    (isFound : (current, distance) ∈ found) (enough : distance ≤ steps) (path : List String) :
    ∃ route, trace search.source state.previous steps current path = route ++ path ∧
      Route search.Leads search.source current route ∧ route.length = distance + 1 ∧
      route.Nodup ∧ ∀ passed ∈ route, ∃ nearer ≤ distance, (passed, nearer) ∈ found := by
  induction distance generalizing current steps path with
  | zero =>
      rcases searched.source_or_link isFound with ⟨rfl, _⟩ | ⟨_, _, nearer, _, _, next, _⟩
      · refine ⟨[search.source], ?_, ⟨rfl, rfl, .singleton _⟩, rfl, List.nodup_singleton _, ?_⟩
        · cases steps <;> simp [PathSearch.trace]
        · intro passed member
          exact ⟨0, le_rfl, List.mem_singleton.mp member ▸ isFound⟩
      · exact absurd next.symm (Nat.succ_ne_zero nearer)
  | succ distance ih =>
      rcases searched.source_or_link isFound with
        ⟨_, isZero⟩ | ⟨isOther, earlier, nearer, link, leads, next, isEarlier⟩
      · exact absurd isZero (Nat.succ_ne_zero distance)
      · obtain rfl : distance = nearer := Nat.succ.inj next
        obtain ⟨steps, rfl⟩ : ∃ fewer, steps = fewer + 1 := ⟨steps - 1, by omega⟩
        obtain ⟨route, same, isRoute, length, nodup, passes⟩ :=
          ih isEarlier (Nat.le_of_succ_le_succ enough) (current :: path)
        refine ⟨route ++ [current], ?_, isRoute.concat leads, by simp [length], ?_, ?_⟩
        · rw [PathSearch.trace, if_neg isOther, link]
          simpa using same
        · refine List.nodup_append.mpr ⟨nodup, List.nodup_singleton _, ?_⟩
          -- All modules on the route so far are nearer than the one that is added.
          rintro passed member _ last rfl
          rw [List.mem_singleton.mp last] at member
          obtain ⟨other, near, again⟩ := passes current member
          have same := searched.layers.distance_unique isFound again
          omega
        · intro passed member
          rcases List.mem_append.mp member with old | last
          · obtain ⟨other, near, again⟩ := passes passed old
            exact ⟨other, near.trans (Nat.le_succ _), again⟩
          · exact ⟨distance + 1, le_rfl, List.mem_singleton.mp last ▸ isFound⟩

/-- The links of a target that is found lead back along a shortest route. -/
theorem Searched.shortestRoute (searched : search.Searched state found)
    (reached : target ∈ state.previous) :
    ShortestRoute search.Leads search.source target
      (PathSearch.trace search.source state.previous state.previous.size target []) := by
  have known := ((searched.linked.mem_previous_iff target).mp reached).1
  rw [← searched.order] at known
  obtain ⟨⟨_, distance⟩, isFound, rfl⟩ := List.mem_map.mp known
  have size : found.length = state.previous.size + 1 :=
    searched.length_found.trans searched.linked.size.symm
  have short : distance < found.length := searched.layers.short _ isFound
  obtain ⟨route, same, isRoute, length, nodup, _⟩ :=
    searched.trace isFound (show distance ≤ state.previous.size by omega) []
  rw [same, List.append_nil]
  refine ⟨isRoute, nodup, fun steps walk => ?_⟩
  rw [length]
  exact Nat.succ_le_succ (searched.layers.distance_le isFound List.mem_cons_self walk)

end PathSearch

namespace Graph

variable {graph : Graph} {source target : String} {direction : Direction}
  {avoided : String → Bool}

/-- What is found is a shortest route. -/
theorem shortestRoute_of_pathAvoiding? {path : List String}
    (found : graph.pathAvoiding? source target direction avoided = some path) :
    ShortestRoute (graph.Leads direction fun path => avoided path = false) source target path := by
  unfold pathAvoiding? at found
  split at found
  · rename_i same
    obtain rfl : [source] = path := Option.some.inj found
    exact ⟨⟨rfl, by simp [same], .singleton _⟩, List.nodup_singleton _, fun _ _ => by simp⟩
  · obtain ⟨items, searched, _⟩ :=
      PathSearch.searched_final ⟨graph, direction, source, avoided⟩ target
    rw [Option.ite_none_right_eq_some] at found
    obtain ⟨reached, same⟩ := found
    rw [← Option.some.inj same]
    exact searched.shortestRoute (Std.HashMap.contains_iff_mem.mp reached)

/-- A path is found exactly if some walk leads to the target. -/
theorem isSome_pathAvoiding?_iff :
    (graph.pathAvoiding? source target direction avoided).isSome ↔
      ∃ length, Walk (graph.Leads direction fun path => avoided path = false)
        length source target := by
  constructor
  · intro isFound
    obtain ⟨path, found⟩ := Option.isSome_iff_exists.mp isFound
    obtain ⟨length, _, walk⟩ := (shortestRoute_of_pathAvoiding? found).toRoute.walk
    exact ⟨length, walk⟩
  · rintro ⟨length, walk⟩
    unfold pathAvoiding?
    split
    · rfl
    · rename_i apart
      obtain ⟨items, searched, ended⟩ :=
        PathSearch.searched_final ⟨graph, direction, source, avoided⟩ target
      suffices reached : target ∈
          (PathSearch.final ⟨graph, direction, source, avoided⟩ target).previous by
        simp [reached]
      rcases ended with reached | done
      · exact reached
      · obtain ⟨distance, isFound⟩ :=
          searched.layers.exists_found done List.mem_cons_self walk le_top
        refine (searched.linked.mem_previous_iff target).mpr ⟨?_, Ne.symm apart⟩
        rw [← searched.order]
        exact List.mem_map_of_mem isFound

/-- Returning to the source makes a walk only longer, so that it may be allowed or not. -/
theorem exists_walk_of_return {length : Nat}
    (walk : Walk (graph.Leads direction fun path => path = source ∨ avoided path = false)
      length source target) :
    ∃ shorter ≤ length,
      Walk (graph.Leads direction fun path => avoided path = false) shorter source target := by
  obtain ⟨start, isStart, shorter, le, rest⟩ :
      ∃ start ∈ [source], ∃ shorter ≤ length,
        Walk (graph.Leads direction fun path => avoided path = false) shorter start target :=
    walk.exists_afterLast
      (fun _ _ step => step.1.imp List.mem_singleton.mpr fun isOpen => ⟨isOpen, step.2⟩)
      (List.mem_singleton.mpr rfl)
  obtain rfl := List.mem_singleton.mp isStart
  exact ⟨shorter, le, rest⟩

/-- No path is found exactly if the target is another module than the source and no walk leads to
it that steps onto no avoided module, where the source is never avoided. What is found is a shortest
such walk, and it passes no avoided module after the source. -/
theorem pathAvoiding?_finds_shortestRoute (dependencies : List Dependency) (source target : String)
    (direction : Direction) (avoided : String → Bool) :
    ((ofDependencies dependencies).pathAvoiding? source target direction avoided = none ↔
      target ≠ source ∧ ∀ length, ¬ Walk
        (Follows dependencies direction fun path => path = source ∨ avoided path = false)
        length source target) ∧
    ∀ path, (ofDependencies dependencies).pathAvoiding? source target direction avoided = some path →
      ShortestRoute
          (Follows dependencies direction fun path => path = source ∨ avoided path = false)
          source target path ∧
        ∀ passed ∈ path.tail, avoided passed = false := by
  simp only [← leads_ofDependencies]
  constructor
  · rw [← Option.not_isSome_iff_eq_none, isSome_pathAvoiding?_iff, not_exists]
    constructor
    · intro noWalk
      refine ⟨?_, fun length walk => ?_⟩
      · rintro rfl
        exact noWalk 0 (.here target)
      · obtain ⟨shorter, _, rest⟩ := exists_walk_of_return walk
        exact noWalk shorter rest
    · rintro ⟨_, noWalk⟩ length walk
      exact noWalk length (walk.mono fun _ _ step => ⟨.inr step.1, step.2⟩)
  · intro path found
    have route := shortestRoute_of_pathAvoiding? found
    refine ⟨⟨⟨route.starts, route.ends, ?_⟩, route.nodup, fun length walk => ?_⟩, ?_⟩
    · exact route.chained.imp fun _ _ step => ⟨.inr step.1, step.2⟩
    · obtain ⟨shorter, le, rest⟩ := exists_walk_of_return walk
      exact (route.shortest shorter rest).trans (Nat.succ_le_succ le)
    · intro passed member
      obtain ⟨_, step⟩ := route.toRoute.entered member
      exact step.1

end Graph

end ChangeImpact
