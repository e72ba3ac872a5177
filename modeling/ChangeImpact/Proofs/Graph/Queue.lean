/-
This file follows an exploration look by look and shows that its queue stays in order, so that it
ends when each module has been taken once.
-/

import ChangeImpact.Proofs.Graph.Loop
import ChangeImpact.Proofs.Graph.Reachable

namespace ChangeImpact

/-- A record is kept, or gives way to a stronger one of the same module at the same distance. -/
structure Reach.Strengthens (old new : Reach) : Prop where
  path : new.path = old.path
  distance : new.distance = old.distance
  stronger : new = old ∨ old.strength < new.strength

theorem Reach.Strengthens.refl (reach : Reach) : reach.Strengthens reach :=
  ⟨rfl, rfl, .inl rfl⟩

theorem Reach.Strengthens.trans {first second third : Reach} (before : first.Strengthens second)
    (after : second.Strengthens third) : first.Strengthens third where
  path := after.path.trans before.path
  distance := after.distance.trans before.distance
  stronger := by
    rcases after.stronger with rfl | later
    · exact before.stronger
    · rcases before.stronger with rfl | earlier
      · exact .inr later
      · exact .inr (Nat.lt_trans earlier later)

/-- A further record that is no nearer than those held strengthens one of them at most. -/
theorem Reaches.getElem?_gather {refused : String → Bool} {records : List Reach} {reach : Reach}
    (above : ∀ record ∈ records, record.distance ≤ reach.distance) {slot : Nat} {record : Reach}
    (held : records[slot]? = some record) :
    ∃ later, (gather refused records reach)[slot]? = some later ∧ record.Strengthens later := by
  have inside : slot < records.length := (List.getElem?_eq_some_iff.mp held).1
  unfold gather
  split
  · rw [List.getElem?_map, held]
    refine ⟨_, rfl, ?_⟩
    simp only
    split
    next better =>
      have near := above record (List.mem_of_getElem? held)
      rcases (Reach.isImprovedBy_iff record reach).mp better.2 with nearer | ⟨same, stronger⟩
      · exact absurd near (Nat.not_le.mpr nearer)
      · exact ⟨better.1.symm, same, .inr stronger⟩
    next => exact .refl record
  · split
    · exact ⟨record, held, .refl record⟩
    · exact ⟨record, by rw [List.getElem?_append_left inside, held], .refl record⟩

/-- The order of a queue: what was taken from it and what waits were put on it once each, in the
order of their distances; what waits is at most a step apart, and what comes next is one step beyond
the front of it. -/
structure Lined (names : List String) (taken queue : List (String × Nat)) (pending : List Reach) :
    Prop where
  nodup : ((taken ++ queue).map Prod.fst).Nodup
  ascending : (taken ++ queue).Pairwise fun earlier later => earlier.2 ≤ later.2
  near : ∀ item ∈ taken ++ queue, ∀ waiting ∈ queue, item.2 ≤ waiting.2 + 1
  short : ∀ item ∈ taken ++ queue, item.2 < (taken ++ queue).length
  known : ∀ item ∈ taken ++ queue, item.1 ∈ names
  above : ∀ reach ∈ pending, ∀ item ∈ taken ++ queue, item.2 ≤ reach.distance
  below : ∀ reach ∈ pending, ∀ waiting ∈ queue, reach.distance ≤ waiting.2 + 1
  next : ∀ reach ∈ pending, reach.path ∈ names ∧ reach.distance ≤ (taken ++ queue).length
  level : ∀ reach ∈ pending, ∀ other ∈ pending, other.distance = reach.distance

namespace Lined

variable {names : List String} {taken queue : List (String × Nat)} {pending : List Reach}
  {reach : Reach}

/-- Before anything is on the queue, the seeds come next. -/
theorem initial {seeds : List String} (known : ∀ seed ∈ seeds, seed ∈ names) :
    Lined names [] [] (seeds.map Reach.start) where
  nodup := List.nodup_nil
  ascending := .nil
  near := by simp
  short := by simp
  known := by simp
  above := by simp
  below := by simp
  next := by
    intro reach member
    obtain ⟨seed, isSeed, rfl⟩ := List.mem_map.mp member
    exact ⟨known seed isSeed, le_rfl⟩
  level := by
    intro reach member other isOther
    obtain ⟨_, _, rfl⟩ := List.mem_map.mp member
    obtain ⟨_, _, rfl⟩ := List.mem_map.mp isOther
    rfl

/-- What comes next may be passed over. -/
theorem pass (lined : Lined names taken queue (reach :: pending)) :
    Lined names taken queue pending :=
  { lined with
    above := fun other member => lined.above other (List.mem_cons_of_mem _ member)
    below := fun other member => lined.below other (List.mem_cons_of_mem _ member)
    next := fun other member => lined.next other (List.mem_cons_of_mem _ member)
    level := fun first isFirst second isSecond =>
      lined.level first (List.mem_cons_of_mem _ isFirst) second (List.mem_cons_of_mem _ isSecond) }

/-- A new module goes to the end of the queue. -/
theorem push (lined : Lined names taken queue (reach :: pending))
    (isNew : reach.path ∉ (taken ++ queue).map Prod.fst) :
    Lined names taken (queue ++ [reach.layer]) pending := by
  have here : reach ∈ reach :: pending := List.mem_cons_self
  have level {other : Reach} (member : other ∈ pending) : other.distance = reach.distance :=
    lined.level reach here other (List.mem_cons_of_mem _ member)
  have queued : taken ++ (queue ++ [reach.layer]) = taken ++ queue ++ [reach.layer] :=
    (List.append_assoc ..).symm
  have grown : (taken ++ queue).length < (taken ++ (queue ++ [reach.layer])).length := by
    simp only [List.length_append, List.length_singleton]
    omega
  have old_or_new {item : String × Nat} (member : item ∈ taken ++ (queue ++ [reach.layer])) :
      item ∈ taken ++ queue ∨ item = reach.layer := by
    rwa [queued, List.mem_append, List.mem_singleton] at member
  have waits_or_new {item : String × Nat} (member : item ∈ queue ++ [reach.layer]) :
      item ∈ queue ∨ item = reach.layer := by
    rwa [List.mem_append, List.mem_singleton] at member
  constructor
  case nodup =>
    rw [queued, List.map_append, List.nodup_append]
    refine ⟨lined.nodup, List.nodup_singleton _, ?_⟩
    rintro path old _ last rfl
    have same : path = reach.path := List.mem_singleton.mp last
    exact isNew (same ▸ old)
  case ascending =>
    rw [queued]
    refine List.pairwise_append.mpr ⟨lined.ascending, List.pairwise_singleton _ _, ?_⟩
    intro item old _ last
    rw [List.mem_singleton.mp last]
    exact lined.above reach here item old
  case near =>
    intro item member waiting isWaiting
    rcases old_or_new member with old | rfl
    · rcases waits_or_new isWaiting with waits | rfl
      · exact lined.near item old waiting waits
      · exact (lined.above reach here item old).trans (Nat.le_succ _)
    · rcases waits_or_new isWaiting with waits | rfl
      · exact lined.below reach here waiting waits
      · exact Nat.le_succ _
  case short =>
    intro item member
    rcases old_or_new member with old | rfl
    · exact (lined.short item old).trans grown
    · exact (lined.next reach here).2.trans_lt grown
  case known =>
    intro item member
    rcases old_or_new member with old | rfl
    · exact lined.known item old
    · exact (lined.next reach here).1
  case above =>
    intro other isOther item member
    rcases old_or_new member with old | rfl
    · exact lined.above other (List.mem_cons_of_mem _ isOther) item old
    · exact (level isOther).ge
  case below =>
    intro other isOther waiting isWaiting
    rcases waits_or_new isWaiting with waits | rfl
    · exact lined.below other (List.mem_cons_of_mem _ isOther) waiting waits
    · exact (level isOther).le.trans (Nat.le_succ _)
  case next =>
    intro other isOther
    have next := lined.next other (List.mem_cons_of_mem _ isOther)
    exact ⟨next.1, next.2.trans grown.le⟩
  case level => exact lined.pass.level

/-- The module that has waited longest may be taken when nothing else is to be looked at. -/
theorem take {path : String} {distance : Nat}
    (lined : Lined names taken ((path, distance) :: queue) [])
    (beyond : ∀ reach ∈ pending, reach.path ∈ names ∧ reach.distance = distance + 1) :
    Lined names (taken ++ [(path, distance)]) queue pending := by
  have queued : taken ++ [(path, distance)] ++ queue = taken ++ (path, distance) :: queue := by
    rw [List.append_assoc, List.singleton_append]
  have waits : (path, distance) ∈ (path, distance) :: queue := List.mem_cons_self
  have front := (List.pairwise_append.mp lined.ascending).2.1
  constructor
  case nodup => exact queued ▸ lined.nodup
  case ascending => exact queued ▸ lined.ascending
  case near =>
    rw [queued]
    exact fun item member waiting later =>
      lined.near item member waiting (List.mem_cons_of_mem _ later)
  case short => exact queued ▸ lined.short
  case known => exact queued ▸ lined.known
  case above =>
    intro reach member item isQueued
    rw [queued] at isQueued
    rw [(beyond reach member).2]
    exact lined.near item isQueued _ waits
  case below =>
    intro reach member waiting later
    rw [(beyond reach member).2]
    exact Nat.succ_le_succ (List.rel_of_pairwise_cons front later)
  case next =>
    intro reach member
    rw [queued, (beyond reach member).2]
    exact ⟨(beyond reach member).1, lined.short _ (List.mem_append_right _ waits)⟩
  case level =>
    intro reach member other isOther
    rw [(beyond reach member).2, (beyond other isOther).2]

end Lined

namespace Exploration

/-- How far an exploration has come: the records so far, the modules that were taken from the queue
and those that wait in it, each with the distance at which it was put there, and the ways from the
module taken last that were not looked at yet. -/
structure Progress where
  reaches : Reaches
  taken : List (String × Nat)
  queue : List (String × Nat)
  pending : List Reach

namespace Progress

/-- A module that has a record keeps the better one. A new module is recorded and put on the queue
unless it is refused. -/
def look (refused : String → Bool) (progress : Progress) (reach : Reach) : Progress :=
  { progress with
    reaches := progress.reaches.meet refused reach
    queue :=
      if progress.reaches.contains reach.path || refused reach.path then progress.queue
      else progress.queue ++ [(reach.path, reach.distance)] }

/-- At the start the seeds wait. -/
def start (seeds : List String) : Progress :=
  (seeds.map Reach.start).foldl (look fun _ => false) ⟨.empty, [], [], []⟩

end Progress

/-- Looks at one more way from the module taken last, or else takes the module that has waited
longest. -/
def advance? (exploration : Exploration) (progress : Progress) : Option Progress :=
  match progress.pending, progress.queue with
  | reach :: pending, _ => some ({ progress with pending }.look exploration.excluded reach)
  | [], (path, distance) :: queue => some { progress with
      taken := progress.taken ++ [(path, distance)]
      queue
      pending := exploration.candidates ⟨path, distance, none⟩ }
  | [], [] => none

/-- These are the seeds and the ends of dependencies, each once. -/
def names (exploration : Exploration) (seeds : List String) : List String :=
  distinct (seeds ++ exploration.graph.edges.toList.flatMap fun edge =>
    [edge.dependent, edge.provider])

/-- The invariant of an exploration between its looks: the queue is lined up, and what was put on it
are the modules with a record, each at the distance of its record. -/
structure InOrder (exploration : Exploration) (seeds : List String) (progress : Progress) :
    Prop where
  indexed : progress.reaches.Indexed
  recorded : progress.reaches.records.toList.map Reach.layer = progress.taken ++ progress.queue
  lined : Lined (exploration.names seeds) progress.taken progress.queue progress.pending

variable {exploration : Exploration} {seeds : List String} {progress : Progress} {reach : Reach}
  {refused : String → Bool}

theorem mem_names_of_mem_seeds {seed : String} (isSeed : seed ∈ seeds) :
    seed ∈ exploration.names seeds :=
  mem_distinct.mpr (List.mem_append_left _ isSeed)

theorem finish_mem_names {edge : Dependency} (isEdge : edge ∈ exploration.graph.edges.toList) :
    exploration.direction.finish edge ∈ exploration.names seeds := by
  refine mem_distinct.mpr (List.mem_append_right _ (List.mem_flatMap.mpr ⟨edge, isEdge, ?_⟩))
  cases exploration.direction <;> simp [Direction.finish]

/-- The modules with a record are those that were put on the queue. -/
theorem InOrder.contains_iff (order : exploration.InOrder seeds progress) {path : String} :
    progress.reaches.contains path = true ↔
      path ∈ (progress.taken ++ progress.queue).map Prod.fst := by
  rw [← order.recorded, map_fst_layer, Reaches.mem_paths_iff order.indexed, Reaches.contains,
    Std.HashMap.contains_iff_mem, ← Std.HashMap.isSome_getElem?_iff_mem, Option.isSome_iff_exists]

/-- No record is farther away than what comes next. -/
theorem InOrder.distance_le (order : exploration.InOrder seeds progress)
    (next : reach ∈ progress.pending) :
    ∀ record ∈ progress.reaches.records.toList, record.distance ≤ reach.distance := by
  intro record member
  exact order.lined.above reach next record.layer (order.recorded ▸ List.mem_map_of_mem member)

variable {reaches : Reaches} {taken queue : List (String × Nat)} {pending : List Reach}

/-- A look at what comes next keeps the invariant. -/
theorem InOrder.look (order : exploration.InOrder seeds ⟨reaches, taken, queue, reach :: pending⟩)
    (refused : String → Bool) :
    exploration.InOrder seeds (Progress.look refused ⟨reaches, taken, queue, pending⟩ reach) := by
  obtain ⟨indexed, records⟩ := Reaches.toList_meet order.indexed refused reach
  have passed_iff : (reaches.contains reach.path || refused reach.path) = true ↔
      reach.path ∈ reaches.records.toList.map Reach.path ∨ refused reach.path = true := by
    rw [Bool.or_eq_true, order.contains_iff, ← order.recorded, map_fst_layer]
  have layers := map_layer_gather refused (order.distance_le List.mem_cons_self)
  simp only [← records, ← passed_iff, order.recorded] at layers
  refine ⟨indexed, ?_, ?_⟩
  · refine layers.trans ?_
    simp only [Progress.look]
    split
    · rfl
    · exact List.append_assoc ..
  · simp only [Progress.look]
    split
    next => exact order.lined.pass
    next new =>
      rw [Bool.or_eq_true, not_or, order.contains_iff] at new
      exact order.lined.push new.1

theorem InOrder.lookAll {further : List Reach}
    (order : exploration.InOrder seeds ⟨reaches, taken, queue, pending ++ further⟩)
    (refused : String → Bool) :
    exploration.InOrder seeds
      (pending.foldl (Progress.look refused) ⟨reaches, taken, queue, further⟩) := by
  induction pending generalizing reaches queue with
  | nil => exact order
  | cons reach pending ih => exact ih (order.look refused)

/-- At the start the queue is in order. -/
theorem inOrder_start (exploration : Exploration) (seeds : List String) :
    exploration.InOrder seeds (.start seeds) := by
  have initial : exploration.InOrder seeds ⟨.empty, [], [], seeds.map Reach.start ++ []⟩ := by
    refine ⟨Reaches.indexed_empty, rfl, ?_⟩
    rw [List.append_nil]
    exact .initial fun _ => mem_names_of_mem_seeds
  exact initial.lookAll _

/-- Taking the module that has waited longest keeps the invariant. -/
theorem InOrder.take {path : String} {distance : Nat}
    (order : exploration.InOrder seeds ⟨reaches, taken, (path, distance) :: queue, []⟩) :
    exploration.InOrder seeds ⟨reaches, taken ++ [(path, distance)], queue,
      exploration.candidates ⟨path, distance, none⟩⟩ := by
  refine ⟨order.indexed, by simpa using order.recorded, order.lined.take fun reach member => ?_⟩
  obtain ⟨_, edge, isEdge, rfl⟩ := mem_candidates_iff.mp member
  exact ⟨finish_mem_names (Graph.mem_edges_of_mem_edgesFrom isEdge), rfl⟩

/-- Every step of an exploration keeps the invariant. -/
theorem InOrder.advance (order : exploration.InOrder seeds progress) {later : Progress}
    (advanced : exploration.advance? progress = some later) :
    exploration.InOrder seeds later := by
  obtain ⟨reaches, taken, queue, pending⟩ := progress
  match pending, queue, advanced with
  | reach :: pending, _, advanced => exact Option.some.inj advanced ▸ order.look _
  | [], (path, distance) :: queue, advanced => exact Option.some.inj advanced ▸ order.take

theorem InOrder.after (order : exploration.InOrder seeds progress) (count : Nat) :
    exploration.InOrder seeds (runFor exploration.advance? count progress) :=
  runFor_invariant (exploration.InOrder seeds) (fun kept advanced => kept.advance advanced) order
    count

/-- No more modules are put on the queue than there are seeds and ends of dependencies. -/
theorem InOrder.length_le (order : exploration.InOrder seeds progress) :
    (progress.taken ++ progress.queue).length ≤ (exploration.names seeds).length := by
  have within : (progress.taken ++ progress.queue).map Prod.fst ⊆ exploration.names seeds := by
    intro path member
    obtain ⟨item, isQueued, rfl⟩ := List.mem_map.mp member
    exact order.lined.known item isQueued
  simpa using List.Nodup.length_le_of_subset order.lined.nodup within

/-- Between two moments of an exploration the queue only grows behind what was put on it, and each
record stays where it is or gives way to a stronger one at the same distance. -/
structure Progress.Continues (before after : Progress) : Prop where
  queued : before.taken ++ before.queue <+: after.taken ++ after.queue
  records : ∀ (slot : Nat) (record : Reach), before.reaches.records[slot]? = some record →
    ∃ later, after.reaches.records[slot]? = some later ∧ record.Strengthens later

theorem Progress.Continues.refl (progress : Progress) : progress.Continues progress :=
  ⟨List.prefix_rfl, fun _ record held => ⟨record, held, .refl record⟩⟩

theorem Progress.Continues.trans {first second third : Progress}
    (before : first.Continues second) (after : second.Continues third) :
    first.Continues third := by
  refine ⟨before.queued.trans after.queued, fun slot record held => ?_⟩
  obtain ⟨between, isBetween, earlier⟩ := before.records slot record held
  obtain ⟨last, isLast, later⟩ := after.records slot between isBetween
  exact ⟨last, isLast, earlier.trans later⟩

/-- A look leaves the records their distances. -/
theorem InOrder.continues_look
    (order : exploration.InOrder seeds ⟨reaches, taken, queue, reach :: pending⟩)
    (refused : String → Bool) :
    Progress.Continues ⟨reaches, taken, queue, reach :: pending⟩
      (Progress.look refused ⟨reaches, taken, queue, pending⟩ reach) := by
  constructor
  · simp only [Progress.look]
    split
    · exact List.prefix_rfl
    · exact (List.prefix_append_right_inj taken).mpr (List.prefix_append _ _)
  · intro slot record held
    have records := (Reaches.toList_meet order.indexed refused reach).2
    rw [← Array.getElem?_toList] at held
    simp only [Progress.look, ← Array.getElem?_toList, records]
    exact Reaches.getElem?_gather (order.distance_le List.mem_cons_self) held

theorem InOrder.continues_advance (order : exploration.InOrder seeds progress) {later : Progress}
    (advanced : exploration.advance? progress = some later) : progress.Continues later := by
  obtain ⟨reaches, taken, queue, pending⟩ := progress
  match pending, queue, advanced with
  | reach :: pending, _, advanced => exact Option.some.inj advanced ▸ order.continues_look _
  | [], (path, distance) :: queue, advanced =>
      refine Option.some.inj advanced ▸ ⟨?_, fun _ record held => ⟨record, held, .refl record⟩⟩
      simp

theorem InOrder.continues_after (order : exploration.InOrder seeds progress) (count : Nat) :
    progress.Continues (runFor exploration.advance? count progress) := by
  let holds (later : Progress) : Prop :=
    exploration.InOrder seeds later ∧ progress.Continues later
  have kept {later next : Progress} (before : holds later)
      (advanced : exploration.advance? later = some next) : holds next :=
    ⟨before.1.advance advanced, before.2.trans (before.1.continues_advance advanced)⟩
  exact (runFor_invariant holds kept ⟨order, .refl progress⟩ count).2

/-- What is pending is looked at in its order. -/
theorem runFor_pending (exploration : Exploration) (reaches : Reaches)
    (taken queue : List (String × Nat)) (pending : List Reach) :
    runFor exploration.advance? pending.length ⟨reaches, taken, queue, pending⟩ =
      pending.foldl (Progress.look exploration.excluded) ⟨reaches, taken, queue, []⟩ := by
  induction pending generalizing reaches queue with
  | nil => rfl
  | cons reach pending ih => exact ih ..

/-- The looks meet the ways one after the other, and take nothing from the queue. -/
theorem foldl_look (refused : String → Bool) (ways : List Reach) (progress : Progress) :
    (ways.foldl (Progress.look refused) progress).reaches =
        ways.foldl (Reaches.meet refused) progress.reaches ∧
      (ways.foldl (Progress.look refused) progress).taken = progress.taken ∧
      (ways.foldl (Progress.look refused) progress).pending = progress.pending := by
  induction ways generalizing progress with
  | nil => exact ⟨rfl, rfl, rfl⟩
  | cons reach ways ih => exact ih _

/-- An exploration between two expansions: nothing is to be looked at, and as many modules were
taken as were expanded. -/
structure Stands (progress : Progress) (state : State) : Prop where
  reaches : progress.reaches = state.reaches
  taken : progress.taken.length = state.next
  pending : progress.pending = []

theorem stands_start (seeds : List String) : Stands (.start seeds) (initial seeds) := by
  obtain ⟨reaches, taken, pending⟩ :=
    foldl_look (fun _ => false) (seeds.map Reach.start) ⟨.empty, [], [], []⟩
  exact ⟨reaches, congrArg List.length taken, pending⟩

/-- The module that is to be expanded next waits at the front of the queue. -/
theorem InOrder.getElem?_queue (order : exploration.InOrder seeds progress) {state : State}
    (stands : Stands progress state) :
    progress.queue[0]? = state.reaches.records.toList[state.next]?.map Reach.layer := by
  rw [← stands.reaches, ← List.getElem?_map, order.recorded, ← stands.taken,
    List.getElem?_append_right le_rfl, Nat.sub_self]

/-- An expansion takes one module and looks at all that is next to it. -/
theorem InOrder.exists_runFor_expand (order : exploration.InOrder seeds progress) {state : State}
    (stands : Stands progress state) {record : Reach}
    (here : state.reaches.records.toList[state.next]? = some record) :
    ∃ count, Stands (runFor exploration.advance? count progress)
      (exploration.expand state record) := by
  have front := order.getElem?_queue stands
  obtain ⟨reaches, count, idle⟩ := stands
  obtain ⟨_, taken, queue, _⟩ := progress
  obtain rfl : _ = [] := idle
  obtain rfl : _ = state.reaches := reaches
  rw [here, Option.map_some] at front
  match queue, front with
  | _ :: queue, front =>
      obtain rfl := Option.some.inj front
      refine ⟨(exploration.candidates record).length + 1, ?_⟩
      have looked := exploration.runFor_pending state.reaches (taken ++ [record.layer]) queue
        (exploration.candidates record)
      obtain ⟨reaches, isTaken, pending⟩ := foldl_look exploration.excluded
        (exploration.candidates record) ⟨state.reaches, taken ++ [record.layer], queue, []⟩
      rw [← looked] at reaches isTaken pending
      refine ⟨reaches, ?_, pending⟩
      exact (congrArg List.length isTaken).trans (by simp [Exploration.expand, count])

/-- Every run is followed look by look. -/
theorem InOrder.exists_runFor_run (order : exploration.InOrder seeds progress) {state : State}
    (stands : Stands progress state) (steps : Nat) :
    ∃ count, Stands (runFor exploration.advance? count progress) (exploration.run steps state) := by
  induction steps generalizing progress state with
  | zero => exact ⟨0, stands⟩
  | succ steps ih =>
      unfold Exploration.run
      rw [step?_eq]
      cases here : state.reaches.records.toList[state.next]? with
      | none => exact ⟨0, stands⟩
      | some record =>
          obtain ⟨count, expanded⟩ := order.exists_runFor_expand stands here
          obtain ⟨more, last⟩ := ih (order.after count) expanded
          exact ⟨count + more, by rwa [runFor_add]⟩

/-- When every module that was found is expanded, nothing is left to do. -/
theorem InOrder.advance?_eq_none (order : exploration.InOrder seeds progress) {state : State}
    (stands : Stands progress state) (done : state.reaches.records.size ≤ state.next) :
    exploration.advance? progress = none := by
  have none_left : state.reaches.records.toList[state.next]? = none := List.getElem?_eq_none done
  have front := order.getElem?_queue stands
  rw [none_left, Option.map_none, List.getElem?_eq_none_iff, Nat.le_zero,
    List.length_eq_zero_iff] at front
  rw [advance?, stands.pending, front]

/-- At every moment of an exploration the distances of the modules that wait do not fall from the
front of the queue to its end and are at most a step apart, and no module was put on the queue
twice. Each module with a record was put on it at the distance of its record, which it keeps: its
record stays, or gives way to a stronger one at the same distance. No more modules are taken from
the queue than there are seeds and ends of dependencies, and no way that is looked at is longer than
that number. The exploration ends, with what is reachable as its records. -/
theorem queue_inOrder (exploration : Exploration) (seeds : List String) :
    (∀ count,
      let progress := runFor exploration.advance? count (.start seeds)
      progress.queue.Pairwise
          (fun earlier later => earlier.2 ≤ later.2 ∧ later.2 ≤ earlier.2 + 1) ∧
        ((progress.taken ++ progress.queue).map Prod.fst).Nodup ∧
        progress.reaches.records.toList.map Reach.layer = progress.taken ++ progress.queue ∧
        (∀ more, progress.Continues (runFor exploration.advance? more progress)) ∧
        progress.taken.length ≤ (exploration.names seeds).length ∧
        ∀ item ∈ progress.taken ++ progress.queue,
          item.2 + 1 ≤ (exploration.names seeds).length) ∧
    ∃ count, exploration.advance? (runFor exploration.advance? count (.start seeds)) = none ∧
      (runFor exploration.advance? count (.start seeds)).reaches.records.toList =
        exploration.graph.reachable seeds exploration.direction exploration.maxDepth
          exploration.excluded := by
  have start := inOrder_start exploration seeds
  constructor
  · intro count progress
    have order : exploration.InOrder seeds progress := start.after count
    refine ⟨?_, order.lined.nodup, order.recorded, order.continues_after, ?_, ?_⟩
    · have ascending := (List.pairwise_append.mp order.lined.ascending).2.1
      refine ascending.imp_of_mem fun {earlier later} isEarlier isLater le => ⟨le, ?_⟩
      exact order.lined.near later (List.mem_append_right _ isLater) earlier isEarlier
    · exact (List.length_append ▸ Nat.le_add_right ..).trans order.length_le
    · intro item member
      exact (Nat.succ_le_of_lt (order.lined.short item member)).trans order.length_le
  · obtain ⟨count, stands⟩ := start.exists_runFor_run (stands_start seeds) (exploration.steps seeds)
    have done := (explored_final exploration seeds).2
    refine ⟨count, (start.after count).advance?_eq_none stands done, ?_⟩
    rw [stands.reaches]
    rfl

end Exploration

end ChangeImpact
