/-
This file follows a search for a path look by look and shows that the links of a target that is
reached lead back to the source.
-/

import ChangeImpact.Proofs.Graph.Loop
import ChangeImpact.Proofs.Graph.PathSearch

namespace ChangeImpact

namespace PathSearch

/-- The links stay as they are, and others may be added. -/
def Keeps (previous later : Std.HashMap String String) : Prop :=
  ∀ path earlier : String, previous[path]? = some earlier → later[path]? = some earlier

/-- From a module its links lead back to the source over the modules in the list, all of them
linked but the source. -/
inductive Backtracks (source : String) (previous : Std.HashMap String String) :
    String → List String → Prop
  | arrive : Backtracks source previous source [source]
  | back {current earlier : String} {passed : List String} (apart : current ≠ source)
      (link : previous[current]? = some earlier)
      (rest : Backtracks source previous earlier passed) :
      Backtracks source previous current (current :: passed)

/-- The modules that were seen, the latest first. A new module is linked to one that was seen
before it. -/
inductive Rooted (source : String) : List String → Std.HashMap String String → Prop
  | root : Rooted source [source] ∅
  | link {seen : List String} {previous : Std.HashMap String String} {current next : String}
      (rooted : Rooted source seen previous) (new : next ∉ seen) (known : current ∈ seen) :
      Rooted source (next :: seen) (previous.insert next current)

variable {source current target : String} {previous later : Std.HashMap String String}
  {seen passed : List String}

namespace Keeps

theorem refl (previous : Std.HashMap String String) : Keeps previous previous :=
  fun _ _ link => link

theorem trans {last : Std.HashMap String String} (before : Keeps previous later)
    (after : Keeps later last) : Keeps previous last :=
  fun path earlier link => after path earlier (before path earlier link)

/-- A module without a link may be linked. -/
theorem insert (new : target ∉ previous) : Keeps previous (previous.insert target current) := by
  intro path earlier link
  have other : target ≠ path := by
    intro same
    rw [same, ← Std.HashMap.isSome_getElem?_iff_mem, link] at new
    exact new rfl
  rw [Std.HashMap.getElem?_insert, if_neg (by simpa using other), link]

theorem mem (keeps : Keeps previous later) (linked : target ∈ previous) : target ∈ later := by
  have link := keeps target _ (Std.HashMap.getElem?_eq_some_getElem linked)
  rw [← Std.HashMap.isSome_getElem?_iff_mem, link]
  rfl

theorem size_le (keeps : Keeps previous later) : previous.size ≤ later.size := by
  rw [← Std.HashMap.length_keys, ← Std.HashMap.length_keys]
  refine List.Nodup.length_le_of_subset Std.HashMap.nodup_keys fun path member => ?_
  exact Std.HashMap.mem_keys.mpr (keeps.mem (Std.HashMap.mem_keys.mp member))

end Keeps

namespace Backtracks

/-- Links that are kept lead the same way back. -/
theorem mono (backtracks : Backtracks source previous current passed)
    (keeps : Keeps previous later) : Backtracks source later current passed := by
  induction backtracks with
  | arrive => exact .arrive
  | back apart link _ ih => exact .back apart (keeps _ _ link) ih

/-- With a step for each link, the trace of a module is the way back in reverse. -/
theorem trace_eq (backtracks : Backtracks source previous current passed) {steps : Nat}
    (enough : passed.length ≤ steps + 1) (path : List String) :
    trace source previous steps current path = passed.reverse ++ path := by
  induction backtracks generalizing steps path with
  | arrive => cases steps <;> simp [trace]
  | @back current earlier passed apart link rest ih =>
      have nonempty : 0 < passed.length := by cases rest <;> simp
      obtain ⟨fewer, rfl⟩ : ∃ fewer, steps = fewer + 1 :=
        Nat.exists_eq_add_one.mpr (nonempty.trans_le (Nat.le_of_succ_le_succ enough))
      rw [trace, if_neg apart, link]
      have reversed : (current :: passed).reverse ++ path = passed.reverse ++ current :: path := by
        simp
      exact (ih (Nat.le_of_succ_le_succ enough) (current :: path)).trans reversed.symm

end Backtracks

namespace Rooted

theorem source_mem (rooted : Rooted source seen previous) : source ∈ seen := by
  induction rooted with
  | root => exact List.mem_singleton_self source
  | link _ _ _ ih => exact List.mem_cons_of_mem _ ih

theorem nodup (rooted : Rooted source seen previous) : seen.Nodup := by
  induction rooted with
  | root => exact List.nodup_singleton source
  | link _ new _ ih => exact List.nodup_cons.mpr ⟨new, ih⟩

/-- Exactly the modules that were seen after the source have a link. -/
theorem mem_previous_iff (rooted : Rooted source seen previous) :
    current ∈ previous ↔ current ∈ seen ∧ current ≠ source := by
  induction rooted with
  | root => simp
  | @link seen previous _ next rooted new known ih =>
      have apart : next ≠ source := fun same => new (same ▸ rooted.source_mem)
      rw [Std.HashMap.mem_insert, ih, List.mem_cons, beq_iff_eq]
      constructor
      · rintro (rfl | ⟨old, isOther⟩)
        · exact ⟨.inl rfl, apart⟩
        · exact ⟨.inr old, isOther⟩
      · rintro ⟨rfl | old, isOther⟩
        · exact .inl rfl
        · exact .inr ⟨old, isOther⟩

theorem not_mem_previous (rooted : Rooted source seen previous) (new : current ∉ seen) :
    current ∉ previous :=
  fun linked => new (rooted.mem_previous_iff.mp linked).1

theorem size_add_one (rooted : Rooted source seen previous) :
    previous.size + 1 = seen.length := by
  induction rooted with
  | root => rfl
  | link rooted new _ ih =>
      rw [Std.HashMap.size_insert, if_neg (rooted.not_mem_previous new), List.length_cons, ih]

/-- The links of a module lead back to the source past modules each of which was seen before the
one it follows. -/
theorem exists_backtracks (rooted : Rooted source seen previous) (member : current ∈ seen) :
    ∃ passed, Backtracks source previous current passed ∧ passed.Sublist seen := by
  induction rooted generalizing current with
  | root =>
      obtain rfl := List.mem_singleton.mp member
      exact ⟨_, .arrive, List.Sublist.refl _⟩
  | @link seen previous parent next rooted new known ih =>
      have keeps : Keeps previous (previous.insert next parent) :=
        .insert (rooted.not_mem_previous new)
      rcases List.mem_cons.mp member with rfl | old
      · obtain ⟨passed, backtracks, within⟩ := ih known
        have apart : current ≠ source := fun same => new (same ▸ rooted.source_mem)
        exact ⟨current :: passed,
          .back apart Std.HashMap.getElem?_insert_self (backtracks.mono keeps),
          within.cons_cons current⟩
      · obtain ⟨passed, backtracks, within⟩ := ih old
        exact ⟨passed, backtracks.mono keeps, within.cons next⟩

end Rooted

/-- How far a search has come: the modules that were seen, their links, the modules that wait, the
steps from the module taken last that were not looked at yet, and whether the target was seen. -/
structure Progress where
  seen : Std.HashSet String
  previous : Std.HashMap String String
  queue : List String
  pending : List (String × String)
  reached : Bool

/-- At the start the source waits. -/
def start (search : PathSearch) : Progress :=
  ⟨{search.source}, ∅, [search.source], [], false⟩

/-- A step onto a module that is avoided or was seen is passed over. Any other module is linked, and
it is put on the queue unless it is the target. -/
def look (search : PathSearch) (target : String) (progress : Progress) (step : String × String) :
    Progress :=
  if search.avoided step.2 || progress.seen.contains step.2 then progress
  else { progress with
    seen := progress.seen.insert step.2
    previous := progress.previous.insert step.2 step.1
    queue := if step.2 = target then progress.queue else progress.queue ++ [step.2]
    reached := step.2 = target }

/-- Looks at one more step from the module taken last, or else takes the module that has waited
longest. The search ends once the target is reached. -/
def advance? (search : PathSearch) (target : String) (progress : Progress) : Option Progress :=
  match progress.reached, progress.pending, progress.queue with
  | true, _, _ => none
  | false, step :: pending, _ => some (search.look target { progress with pending } step)
  | false, [], current :: queue => some { progress with
      queue
      pending := (search.graph.neighbors current search.direction).map (current, ·) }
  | false, [], [] => none

/-- The invariant of a search between its looks: only modules that were seen wait or are stepped
from, and the target has a link once it is reached. -/
structure Traced (search : PathSearch) (target : String) (progress : Progress)
    (seen : List String) : Prop where
  rooted : Rooted search.source seen progress.previous
  mem_seen_iff : ∀ path : String, path ∈ progress.seen ↔ path ∈ seen
  queued : ∀ path ∈ progress.queue, path ∈ seen
  stepped : ∀ step ∈ progress.pending, step.1 ∈ seen
  linked : progress.reached = true → target ∈ progress.previous

variable {search : PathSearch} {progress advanced : Progress} {state : State}

theorem traced_start (search : PathSearch) (target : String) :
    search.Traced target search.start [search.source] where
  rooted := .root
  mem_seen_iff := by
    intro path
    rw [start, Std.HashSet.singleton_eq_insert, Std.HashSet.mem_insert, List.mem_singleton,
      beq_iff_eq, eq_comm]
    exact or_iff_left Std.HashSet.not_mem_empty
  queued := fun _ member => member
  stepped := by simp [start]
  linked := by simp [start]

/-- A step is passed over exactly if a visit passes it over. -/
theorem Traced.passes_eq (traced : search.Traced target progress seen) (path : String) :
    (search.avoided path || progress.seen.contains path) =
      (search.avoided path || path == search.source || progress.previous.contains path) := by
  have known : path ∈ seen ↔ path = search.source ∨ path ∈ progress.previous := by
    rw [traced.rooted.mem_previous_iff]
    by_cases same : path = search.source
    · simp [same, traced.rooted.source_mem]
    · simp [same]
  rw [Bool.eq_iff_iff]
  simp only [Bool.or_eq_true, Std.HashSet.contains_iff_mem, traced.mem_seen_iff, known,
    beq_iff_eq, Std.HashMap.contains_iff_mem, or_assoc]

/-- A look keeps the invariant and the links. -/
theorem Traced.look (traced : search.Traced target progress seen) {step : String × String}
    (known : step.1 ∈ seen) :
    ∃ grown, search.Traced target (search.look target progress step) grown ∧
      Keeps progress.previous (search.look target progress step).previous := by
  unfold PathSearch.look
  split
  next => exact ⟨seen, traced, .refl _⟩
  next passes =>
    rw [Bool.or_eq_true, not_or, Std.HashSet.contains_iff_mem, traced.mem_seen_iff] at passes
    have new : step.2 ∉ seen := passes.2
    refine ⟨step.2 :: seen, ⟨traced.rooted.link new known, ?_, ?_, ?_, ?_⟩,
      .insert (traced.rooted.not_mem_previous new)⟩
    · intro path
      rw [Std.HashSet.mem_insert, traced.mem_seen_iff, List.mem_cons, beq_iff_eq, eq_comm]
    · intro path member
      simp only at member
      split at member
      next => exact List.mem_cons_of_mem _ (traced.queued path member)
      next =>
        rcases List.mem_append.mp member with waits | last
        · exact List.mem_cons_of_mem _ (traced.queued path waits)
        · exact List.mem_singleton.mp last ▸ List.mem_cons_self
    · exact fun other member => List.mem_cons_of_mem _ (traced.stepped other member)
    · intro isTarget
      exact of_decide_eq_true isTarget ▸ Std.HashMap.mem_insert_self

/-- Every step of a search keeps the invariant and the links. -/
theorem Traced.advance (traced : search.Traced target progress seen)
    (isNext : search.advance? target progress = some advanced) :
    ∃ grown, search.Traced target advanced grown ∧
      Keeps progress.previous advanced.previous := by
  obtain ⟨_, previous, queue, pending, reached⟩ := progress
  match reached, pending, queue, isNext with
  | false, step :: pending, queue, isNext =>
      obtain rfl := Option.some.inj isNext
      have rest : search.Traced target ⟨_, previous, queue, pending, false⟩ seen :=
        { traced with
          stepped := fun other member => traced.stepped other (List.mem_cons_of_mem _ member) }
      exact rest.look (traced.stepped step List.mem_cons_self)
  | false, [], current :: queue, isNext =>
      obtain rfl := Option.some.inj isNext
      refine ⟨seen, ⟨traced.rooted, traced.mem_seen_iff, ?_, ?_, traced.linked⟩, .refl _⟩
      · exact fun path member => traced.queued path (List.mem_cons_of_mem _ member)
      · intro step member
        obtain ⟨next, _, rfl⟩ := List.mem_map.mp member
        exact traced.queued current List.mem_cons_self

theorem Traced.after (traced : search.Traced target progress seen) (count : Nat) :
    ∃ grown, search.Traced target (runFor (search.advance? target) count progress) grown ∧
      Keeps progress.previous (runFor (search.advance? target) count progress).previous := by
  let holds (later : Progress) : Prop :=
    ∃ grown, search.Traced target later grown ∧ Keeps progress.previous later.previous
  have kept {later next : Progress} (before : holds later)
      (isNext : search.advance? target later = some next) : holds next := by
    obtain ⟨_, between, first⟩ := before
    obtain ⟨grown, advanced, second⟩ := between.advance isNext
    exact ⟨grown, advanced, first.trans second⟩
  exact runFor_invariant holds kept ⟨seen, traced, .refl _⟩ count

/-- Between two expansions a search that is followed look by look has the links and the queue of a
state, or it has stopped at the target and the state has further links. -/
inductive Mirrors (target : String) : Progress → State → Prop
  | going {seen : Std.HashSet String} {queue taken : List String} {state : State}
      (absent : target ∉ state.previous) (order : state.order.toList = taken ++ queue)
      (count : taken.length = state.next) :
      Mirrors target ⟨seen, state.previous, queue, [], false⟩ state
  | stopped {progress : Progress} {state : State} (reached : progress.reached = true)
      (linked : target ∈ state.previous) (keeps : Keeps progress.previous state.previous) :
      Mirrors target progress state

theorem mirrors_start (search : PathSearch) (target : String) :
    Mirrors target search.start search.initial := by
  have absent : target ∉ search.initial.previous := Std.HashMap.not_mem_empty
  have order : search.initial.order.toList = [] ++ [search.source] := rfl
  exact .going absent order rfl

/-- Visits keep the links. -/
theorem keeps_foldl_visit (search : PathSearch) (current : String) (near : List String)
    (state : State) :
    Keeps state.previous (near.foldl (search.visit current) state).previous := by
  induction near generalizing state with
  | nil => exact .refl _
  | cons next near ih =>
      have visited : Keeps state.previous (search.visit current state next).previous := by
        unfold visit
        split
        next => exact .refl _
        next passes =>
          rw [Bool.or_eq_true, not_or, Std.HashMap.contains_iff_mem] at passes
          exact .insert passes.2
      exact visited.trans (ih _)

/-- The looks at the neighbours of a module mirror the visits to them, up to the target. -/
theorem Traced.exists_runFor_visits (state : State) {known : Std.HashSet String}
    {queue taken near : List String} (traced : search.Traced target
      ⟨known, state.previous, queue, near.map (current, ·), false⟩ seen)
    (absent : target ∉ state.previous) (order : state.order.toList = taken ++ queue)
    (count : taken.length = state.next) :
    ∃ looks, Mirrors target
      (runFor (search.advance? target) looks
        ⟨known, state.previous, queue, near.map (current, ·), false⟩)
      (near.foldl (search.visit current) state) := by
  induction near generalizing known queue state seen with
  | nil => exact ⟨0, .going absent order count⟩
  | cons next near ih =>
      have rest : search.Traced target
          ⟨known, state.previous, queue, near.map (current, ·), false⟩ seen :=
        { traced with
          stepped := fun other member => traced.stepped other (List.mem_cons_of_mem _ member) }
      obtain ⟨grown, looked, _⟩ := rest.look (traced.stepped (current, next) List.mem_cons_self)
      have isNext : search.advance? target
          ⟨known, state.previous, queue, (next :: near).map (current, ·), false⟩ =
            some (search.look target
              ⟨known, state.previous, queue, near.map (current, ·), false⟩ (current, next)) := rfl
      unfold PathSearch.look at looked isNext
      rw [List.foldl_cons, visit, ← rest.passes_eq]
      split
      next passed =>
        rw [if_pos passed] at looked isNext
        obtain ⟨looks, mirrors⟩ := ih state looked absent order count
        exact ⟨looks + 1, by rwa [runFor_succ isNext]⟩
      next passes =>
        rw [if_neg passes] at looked isNext
        by_cases isTarget : next = target
        · subst isTarget
          have keeps := keeps_foldl_visit search current near { state with
            order := state.order.push next
            previous := state.previous.insert next current }
          refine ⟨1, ?_⟩
          rw [runFor_succ isNext]
          exact .stopped (decide_eq_true rfl) (keeps.mem Std.HashMap.mem_insert_self) keeps
        · simp only [isTarget, if_false, decide_false] at looked isNext
          have stillAbsent : target ∉ state.previous.insert next current := by
            rw [Std.HashMap.mem_insert, beq_iff_eq, not_or]
            exact ⟨isTarget, absent⟩
          have pushed : (state.order.push next).toList = taken ++ (queue ++ [next]) := by
            rw [Array.toList_push, order, List.append_assoc]
          obtain ⟨looks, mirrors⟩ := ih { state with
            order := state.order.push next
            previous := state.previous.insert next current } looked stillAbsent pushed count
          exact ⟨looks + 1, by rwa [runFor_succ isNext]⟩

/-- Every run is followed look by look. -/
theorem Mirrors.exists_runFor_run (mirrors : Mirrors target progress state)
    (traced : search.Traced target progress seen) (steps : Nat) :
    ∃ looks, Mirrors target (runFor (search.advance? target) looks progress)
      (search.run target steps state) := by
  induction steps generalizing progress state seen with
  | zero => exact ⟨0, mirrors⟩
  | succ steps ih =>
      cases mirrors with
      | stopped reached linked keeps =>
          refine ⟨0, ?_⟩
          rw [run_of_done search (.inl linked)]
          exact .stopped reached linked keeps
      | @going known queue taken _ absent order count =>
          have unlinked : ¬ state.previous.contains target = true :=
            mt Std.HashMap.contains_iff_mem.mp absent
          have front : state.order[state.next]? = queue[0]? := by
            rw [← Array.getElem?_toList, order, ← count, List.getElem?_append_right le_rfl,
              Nat.sub_self]
          rw [run, if_neg unlinked, step?_eq, front]
          cases queue with
          | nil => exact ⟨0, .going absent order count⟩
          | cons current queue =>
              obtain ⟨_, taking, _⟩ := traced.advance rfl
              have moved : state.order.toList = taken ++ [current] ++ queue := by
                rw [order, List.append_assoc, List.singleton_append]
              obtain ⟨looks, expanded⟩ := Traced.exists_runFor_visits
                { state with next := state.next + 1 } taking absent moved (by simp [count])
              obtain ⟨_, between, _⟩ := taking.after looks
              obtain ⟨more, last⟩ := ih expanded between
              refine ⟨1 + looks + more, ?_⟩
              rwa [runFor_add, runFor_add]

/-- The links of a target that is reached lead back to the source past no module twice, and further
links change nothing about it. -/
theorem Traced.exists_backtracks (traced : search.Traced target progress seen)
    (reached : progress.reached = true) :
    ∃ passed, Backtracks search.source progress.previous target passed ∧ passed.Nodup ∧
      ∀ later, Keeps progress.previous later → ∀ steps, progress.previous.size ≤ steps →
        trace search.source later steps target [] = passed.reverse := by
  have isSeen := (traced.rooted.mem_previous_iff.mp (traced.linked reached)).1
  obtain ⟨passed, backtracks, within⟩ := traced.rooted.exists_backtracks isSeen
  refine ⟨passed, backtracks, within.nodup traced.rooted.nodup, ?_⟩
  intro later keeps steps enough
  have short : passed.length ≤ progress.previous.size + 1 :=
    within.length_le.trans traced.rooted.size_add_one.ge
  have traces := (backtracks.mono keeps).trace_eq (short.trans (Nat.succ_le_succ enough)) []
  rwa [List.append_nil] at traces

/-- A search that mirrors its last state has ended. -/
theorem Mirrors.advance?_eq_none (mirrors : Mirrors target progress state)
    (ended : target ∈ state.previous ∨ state.order.size ≤ state.next) :
    search.advance? target progress = none := by
  cases mirrors with
  | stopped reached linked keeps => rw [advance?, reached]
  | @going _ queue taken _ absent order count =>
      have all : (taken ++ queue).length ≤ taken.length := by
        rw [← order, count]
        exact ended.resolve_left absent
      obtain rfl : queue = [] := by simpa using all
      rfl

/-- What a search finds that mirrors a state is the trace by the links of either. -/
theorem Mirrors.found_eq (mirrors : Mirrors target progress state)
    (traced : search.Traced target progress seen) :
    (if state.previous.contains target then
        some (trace search.source state.previous state.previous.size target [])
      else none) =
      if progress.reached = true then
        some (trace search.source progress.previous progress.previous.size target [])
      else none := by
  cases mirrors with
  | going absent => rw [if_neg (mt Std.HashMap.contains_iff_mem.mp absent), if_neg nofun]
  | stopped reached linked keeps =>
      obtain ⟨passed, _, _, traces⟩ := traced.exists_backtracks reached
      rw [if_pos (Std.HashMap.contains_iff_mem.mpr linked), if_pos reached,
        traces _ keeps _ keeps.size_le, traces _ (.refl _) _ le_rfl]

/-- A search for a path links modules until it reaches the target. At every moment the source has no
link, and the links there are stay as they are. Once the target is reached, its links lead back to
the source over modules that are all different, so that the trace of the target, with any number of
steps that is at least the number of links, is this way in the direction of the search. The search
ends, and this trace is what it finds. -/
theorem search_backtracks (search : PathSearch) (target : String) :
    (∀ looks,
      let progress := runFor (search.advance? target) looks search.start
      search.source ∉ progress.previous ∧
        (∀ more, Keeps progress.previous (runFor (search.advance? target) more progress).previous) ∧
        (progress.reached = true →
          ∃ passed, Backtracks search.source progress.previous target passed ∧ passed.Nodup ∧
            ∀ steps, progress.previous.size ≤ steps →
              trace search.source progress.previous steps target [] = passed.reverse)) ∧
    ∃ looks,
      let progress := runFor (search.advance? target) looks search.start
      search.advance? target progress = none ∧
        search.graph.pathAvoiding? search.source target search.direction search.avoided =
          if search.source = target then some [search.source]
          else if progress.reached = true then
            some (trace search.source progress.previous progress.previous.size target [])
          else none := by
  have start := traced_start search target
  constructor
  · intro looks progress
    obtain ⟨seen, traced, _⟩ := start.after looks
    refine ⟨fun linked => (traced.rooted.mem_previous_iff.mp linked).2 rfl, ?_, ?_⟩
    · intro more
      obtain ⟨_, _, keeps⟩ := traced.after more
      exact keeps
    · intro reached
      obtain ⟨passed, backtracks, nodup, traces⟩ := traced.exists_backtracks reached
      exact ⟨passed, backtracks, nodup, traces _ (.refl _)⟩
  · obtain ⟨found, searched, ended⟩ := searched_final search target
    rw [searched.length_found] at ended
    obtain ⟨looks, mirrors⟩ :=
      (mirrors_start search target).exists_runFor_run start (search.graph.size + 1)
    obtain ⟨seen, traced, _⟩ := start.after looks
    refine ⟨looks, mirrors.advance?_eq_none ended, ?_⟩
    rw [Graph.pathAvoiding?]
    split
    next => rfl
    next => exact mirrors.found_eq traced

end PathSearch

end ChangeImpact
