/-
Handoff.Proofs.Executor.Figures — the figures of a queue are what happened to it.

The counters of a queue are kept beside its ring, and a push, a removal and a drain each change them
on their own. The journal is the other account: it says which messages were accepted and removed,
and in which order. Replaying that traffic on the ring that the run started with, in a memory that
refuses nothing, gives a ring like the one that the queue has now (`Ring.Alike`), and in it every
accepted push grows the ring exactly where the true one did. So the replay also tells how many
pushes enlarged the ring, which no event says.

The counters are words. Those of pushes and removals wrap; the one of growths cannot, since every
growth adds a slot and a ring does not grow to as many slots as a word can count.

  §1 alike rings   — `Ring.Alike`, `Alike.push`, `Alike.leaves`
  §2 the replay    — `Replay`, `Executor.replayed`, `Replay.removals`
  §3 the counters  — `Tallied`, `Tallied.flow`, `growths_push`
  §4 the figures   — `stats_exact`
-/
import Handoff.Proofs.Executor.Accounts

namespace Handoff

/-! ## §1 Alike rings -/

/-- The memory that refuses nothing. -/
def Memory.generous : Memory := ⟨0, fun _ => true⟩

theorem Memory.fault?_generous (slots : Nat) : generous.fault? slots = none := by
  simp [fault?, generous]

/-- How many times a placement enlarged the ring. -/
def Placement.growths : Placement → Nat
  | .inPlace => 0
  | .grew .. => 1

theorem Queue.growthOf_eq (placement : Placement) :
    growthOf placement = UInt64.ofNat placement.growths := by
  cases placement with
  | inPlace => rfl
  | grew => rfl

namespace Ring

variable {α : Type} {r s : Ring α}

/-- Two rings have the same items, equally many slots and the same ceiling; where in the row the
items are may differ. -/
structure Alike (r s : Ring α) : Prop where
  items : ∃ items, r.Holds items ∧ s.Holds items
  capacity_eq : s.capacity = r.capacity
  maxCapacity_eq : s.maxCapacity = r.maxCapacity

/-- To how many slots a ring grows depends on its slots and its ceiling alone. -/
theorem Alike.grownCapacity_eq (h : r.Alike s) : s.grownCapacity = r.grownCapacity := by
  unfold grownCapacity
  rw [h.capacity_eq, h.maxCapacity_eq]

/-- Where a ring can grow, one like it can grow as much if the memory refuses nothing. -/
theorem Alike.grow (h : r.Alike s) {memory : Memory} {larger : Ring α}
    (hgrow : r.grow memory = .ok larger) :
    ∃ other, s.grow .generous = .ok other ∧ larger.Alike other := by
  obtain ⟨items, hr, hs⟩ := h.items
  obtain ⟨hlarger, htarget, hmax⟩ := hr.grow hgrow
  have hother : s.grow .generous =
      .ok (s.moveInto (Array.replicate larger.capacity none)) := by
    rw [grow_eq, h.grownCapacity_eq, htarget]
    simp only [Memory.fault?_generous]
  obtain ⟨hheld, hcapacity, hceiling⟩ := hs.grow hother
  refine ⟨_, hother, ⟨items, hlarger, hheld⟩, capacity_moveInto s _, ?_⟩
  rw [hceiling, hmax, h.maxCapacity_eq]

/-- A push that a ring accepts is accepted by one like it, and enlarges both or neither. -/
theorem Alike.push (h : r.Alike s) {memory : Memory} {item : α} {placement : Placement}
    {stored : Ring α} (hpush : r.push memory item = .ok (placement, stored)) :
    ∃ other, s.push .generous item = .ok (placement, other) ∧ stored.Alike other := by
  obtain ⟨items, hr, hs⟩ := h.items
  have hall : ∀ {other : Ring α}, s.push .generous item = .ok (placement, other) →
      other.capacity = stored.capacity → stored.Alike other := by
    intro other hother hcapacity
    obtain ⟨hstored, hmax⟩ := hr.push hpush
    obtain ⟨hheld, hceiling⟩ := hs.push hother
    exact ⟨⟨_, hstored, hheld⟩, hcapacity, by rw [hceiling, hmax, h.maxCapacity_eq]⟩
  rcases hr.push_cases memory item with
    ⟨hroom, hplaced⟩ | ⟨hlast, ⟨larger, hgrow, hplaced⟩ | ⟨e, -, hplaced⟩⟩
  · rw [hplaced] at hpush
    cases hpush
    rcases hs.push_cases .generous item with ⟨-, hother⟩ | ⟨hlast, -⟩
    · exact ⟨_, hother, hall hother (by simp [h.capacity_eq])⟩
    · rw [h.capacity_eq] at hlast
      omega
  · rw [hplaced] at hpush
    cases hpush
    obtain ⟨wider, hwider, halike⟩ := h.grow hgrow
    rcases hs.push_cases .generous item with ⟨hroom, -⟩ | ⟨-, ⟨other, hgrown, hother⟩ | ⟨e, hno, -⟩⟩
    · rw [h.capacity_eq] at hroom
      omega
    · rw [hwider] at hgrown
      cases hgrown
      rw [h.capacity_eq, halike.capacity_eq] at hother
      exact ⟨_, hother, hall hother (by simp [halike.capacity_eq])⟩
    · rw [hwider] at hno
      cases hno
  · rw [hplaced] at hpush
    cases hpush

/-- Rings that are alike are alike after the same items have left them. -/
theorem Alike.leaves (h : r.Alike s) {items : List α} {rest others : Ring α}
    (hr : r.Leaves items rest) (hs : s.Leaves items others) : rest.Alike others := by
  obtain ⟨held, hheld, hsame⟩ := h.items
  obtain ⟨left, hleft, hrest⟩ := hr.holds
  obtain ⟨right, hright, hothers⟩ := hs.holds
  have hequal : left = right := by
    have hlists : items ++ left = items ++ right := by
      rw [hleft.unique hheld, hright.unique hsame]
    exact List.append_cancel_left hlists
  refine ⟨⟨left, hrest, hequal ▸ hothers⟩, ?_, ?_⟩
  · rw [hs.capacity_eq, hr.capacity_eq, h.capacity_eq]
  · rw [hs.maxCapacity_eq, hr.maxCapacity_eq, h.maxCapacity_eq]

/-- A ring never grows to as many slots as a word can count. -/
theorem grownCapacity_lt {target : Nat} (h : r.grownCapacity = .ok target) :
    target < wordLimit := by
  unfold grownCapacity at h
  split at h
  · cases h
  · split at h
    · cases h
      omega
    · split at h
      · cases h
      · cases h
        omega

/-- What a push does to the number of slots: nothing, or it adds some, below the word limit. -/
theorem Holds.capacity_push {memory : Memory} {item : α} {items : List α} {placement : Placement}
    {stored : Ring α} (h : r.Holds items) (hpush : r.push memory item = .ok (placement, stored)) :
    placement.growths = 0 ∧ stored.capacity = r.capacity ∨
      placement.growths = 1 ∧ r.capacity < stored.capacity ∧ stored.capacity < wordLimit := by
  rcases h.push_cases memory item with
    ⟨-, hplaced⟩ | ⟨-, ⟨larger, hgrow, hplaced⟩ | ⟨e, -, hplaced⟩⟩
  · rw [hplaced] at hpush
    cases hpush
    exact .inl ⟨rfl, capacity_store r item⟩
  · rw [hplaced] at hpush
    cases hpush
    have htarget := (h.grow hgrow).2.1
    rw [capacity_store]
    exact .inr ⟨rfl, (h.lt_grownCapacity htarget).1, grownCapacity_lt htarget⟩
  · rw [hplaced] at hpush
    cases hpush

end Ring

/-! ## §2 The replay -/

/-- A ring on which events are replayed, and how many pushes have enlarged it. -/
structure Replay where
  ring : Ring Message
  growths : Nat

namespace Replay

/-- One more event: an accepted message is pushed, a removed one popped. -/
def after (event : Event) (r : Replay) : Replay :=
  match event with
  | .accepted _ message =>
    match r.ring.push .generous message with
    | .ok (placement, ring) => ⟨ring, r.growths + placement.growths⟩
    | .error _ => r
  | .removed .. => { r with ring := r.ring.pop.2 }
  | .handled .. | .finished .. | .cancelled .. => r

theorem after_accepted {r : Replay} {message : Message} {placement : Placement}
    {ring : Ring Message} (actor : Actor)
    (h : r.ring.push .generous message = .ok (placement, ring)) :
    r.after (.accepted actor message) = ⟨ring, r.growths + placement.growths⟩ := by
  simp only [after, h]

/-- Replaying the removal of messages takes them off the ring, whether they were popped one by one
or drained. -/
theorem removals {r : Replay} {messages others : List Message} (actor : Actor)
    (h : r.ring.Holds (messages ++ others)) :
    ∃ ring, (messages.map (Event.removed actor)).reverse.foldr after r = { r with ring } ∧
      r.ring.Leaves messages ring := by
  rw [List.foldr_reverse]
  induction messages generalizing r with
  | nil => exact ⟨r.ring, rfl, ⟨others, h, h⟩, rfl, rfl⟩
  | cons message rest ih =>
    have hpopped := h.pop_cons.2
    obtain ⟨ring, hfold, hleaves⟩ := ih (r := { r with ring := r.ring.pop.2 }) hpopped
    obtain ⟨left, hall, hleft⟩ := hleaves.holds
    refine ⟨ring, hfold, ⟨left, ?_, hleft⟩, ?_, ?_⟩
    · rw [List.cons_append, hall.unique hpopped]
      exact h
    · exact hleaves.capacity_eq.trans (Ring.capacity_pop r.ring)
    · exact hleaves.maxCapacity_eq.trans (Ring.maxCapacity_pop r.ring)

end Replay

namespace Executor

/-- The traffic of the queue, replayed on the ring with which it started. -/
def replayed (x : Executor) (start : Ring Message) : Replay :=
  x.traffic.foldr Replay.after ⟨start, 0⟩

/-! ## §3 The counters -/

/-- The counters of the queue and the replay of its traffic say the same. -/
structure Tallied (start : Ring Message) (x : Executor) : Prop where
  alike : x.queue.ring.Alike (x.replayed start).ring
  pushed_eq : x.queue.pushed = UInt64.ofNat x.accepted.length
  popped_eq : x.queue.popped = UInt64.ofNat x.removed.length
  grows_eq : x.queue.grows = UInt64.ofNat (x.replayed start).growths
  /-- Every growth has added a slot, and the last one stayed below the word limit. -/
  growths_lt : (x.replayed start).growths = 0 ∨
    (x.replayed start).growths < x.queue.capacity ∧ x.queue.capacity < wordLimit

namespace Tallied

variable {start : Ring Message} {x y : Executor}

theorem still (hx : Tallied start x) (h : x.Still y) : Tallied start y := by
  have hreplayed : y.replayed start = x.replayed start := by
    unfold replayed
    rw [h.traffic_eq]
  have hstats := h.stats_eq
  simp only [Queue.stats, QueueStats.mk.injEq] at hstats
  obtain ⟨-, hcapacity, -, hpushed, hpopped, hgrows⟩ := hstats
  refine ⟨?_, ?_, ?_, ?_, ?_⟩
  · rw [h.ring_eq, hreplayed]
    exact hx.alike
  · rw [hpushed, h.accepted_eq]
    exact hx.pushed_eq
  · rw [hpopped, h.removed_eq]
    exact hx.popped_eq
  · rw [hgrows, hreplayed]
    exact hx.grows_eq
  · rw [hcapacity, hreplayed]
    exact hx.growths_lt

/-- Storing a message is a push in the replay, which grows its ring where the queue's grew. -/
theorem stored (hx : Tallied start x) {memory : Memory} {message : Message}
    {placement : Placement} {ring : Ring Message} (actor : Actor)
    (hpush : x.queue.ring.push memory message = .ok (placement, ring)) :
    Tallied start (x.stored actor message placement ring) ∧
      ((x.stored actor message placement ring).replayed start).growths =
        (x.replayed start).growths + placement.growths := by
  obtain ⟨other, hother, halike⟩ := hx.alike.push hpush
  have hreplayed : (x.stored actor message placement ring).replayed start =
      ⟨other, (x.replayed start).growths + placement.growths⟩ :=
    Replay.after_accepted actor hother
  obtain ⟨items, hitems, -⟩ := hx.alike.items
  have hlt := hx.growths_lt
  refine ⟨⟨?_, ?_, hx.popped_eq, ?_, ?_⟩, by rw [hreplayed]⟩
  · rw [hreplayed]
    exact halike
  · rw [accepted_stored, List.length_append, UInt64.ofNat_add, ← hx.pushed_eq]
    rfl
  · rw [hreplayed, UInt64.ofNat_add, ← hx.grows_eq, ← Queue.growthOf_eq]
    rfl
  · rw [hreplayed]
    show (x.replayed start).growths + placement.growths = 0 ∨
      (x.replayed start).growths + placement.growths < ring.capacity ∧ ring.capacity < wordLimit
    have hpos := hitems.capacity_pos
    have hcapacity : x.queue.capacity = x.queue.ring.capacity := rfl
    rcases hitems.capacity_push hpush with ⟨hsame, heq⟩ | ⟨hmore, hgrown, hword⟩
    · rw [hsame, heq]
      exact hlt
    · rw [hmore]
      exact .inr ⟨by omega, hword⟩

theorem taken (hx : Tallied start x) {messages : List Message} {ring : Ring Message}
    (actor : Actor) (leaves : x.queue.ring.Leaves messages ring) :
    Tallied start (x.taken actor messages ring) := by
  obtain ⟨items, hitems, hsame⟩ := hx.alike.items
  obtain ⟨others, hall, -⟩ := leaves.holds
  obtain ⟨rest, hfold, hleaves⟩ :=
    Replay.removals actor (r := x.replayed start) (hall.unique hitems ▸ hsame)
  have hreplayed : (x.taken actor messages ring).replayed start =
      { x.replayed start with ring := rest } := by
    have htraffic : (x.taken actor messages ring).traffic =
        (messages.map (Event.removed actor)).reverse ++ x.traffic := by
      unfold Executor.taken traffic
      rw [List.filter_append, List.filter_eq_self.mpr (by simp [Event.isTraffic])]
    rw [replayed, htraffic, List.foldr_append]
    exact hfold
  refine ⟨?_, ?_, ?_, ?_, ?_⟩
  · rw [hreplayed]
    exact hx.alike.leaves leaves hleaves
  · rw [accepted_taken]
    exact hx.pushed_eq
  · rw [removed_taken, List.length_append, UInt64.ofNat_add, ← hx.popped_eq]
    rfl
  · rw [hreplayed]
    exact hx.grows_eq
  · rw [hreplayed]
    show (x.replayed start).growths = 0 ∨
      (x.replayed start).growths < ring.capacity ∧ ring.capacity < wordLimit
    rw [leaves.capacity_eq]
    exact hx.growths_lt

theorem flow (hx : Tallied start x) (h : x.Flow y) : Tallied start y := by
  cases h with
  | still hstill => exact hx.still hstill
  | accept accepted =>
    obtain ⟨placement, ring, hpush, rfl⟩ := push_ok accepted
    exact (hx.stored _ hpush).1.still (.notifyReady _)
  | take actor _ leaves => exact hx.taken actor leaves
  | lineUp => exact ⟨hx.alike, hx.pushed_eq, hx.popped_eq, hx.grows_eq, hx.growths_lt⟩

theorem ofQueue {q : Queue Message} (hq : q.Fresh) : Tallied q.ring (Executor.ofQueue q) := by
  obtain ⟨memory, initial, max?, ring, hmade, heq⟩ := hq.create
  have hholds := (Ring.holds_create hmade).1
  rw [heq]
  exact ⟨⟨⟨[], hholds, hholds⟩, rfl, rfl⟩, rfl, rfl, rfl, .inl rfl⟩

end Tallied

theorem Reaches.tallied {q : Queue Message} (hq : q.Fresh) {x : Executor}
    (h : (ofQueue q).Reaches x) : Tallied q.ring x := by
  have hflows := h.flows hq
  clear h
  induction hflows with
  | refl => exact .ofQueue hq
  | tail _ hflow ih => exact ih.flow hflow

/-- The replay counts a push as a growth when the push has enlarged the ring, and else not. -/
theorem growths_push {q : Queue Message} (hq : q.Fresh) {x y : Executor}
    (h : (ofQueue q).Reaches x) {memory : Memory} {actor : Actor} {message : Message}
    (accepted : x.push memory actor message = .ok y) :
    (y.replayed q.ring).growths = (x.replayed q.ring).growths +
      if x.queue.capacity < y.queue.capacity then 1 else 0 := by
  have hx := h.tallied hq
  obtain ⟨items, hitems, -⟩ := hx.alike.items
  obtain ⟨placement, ring, hpush, rfl⟩ := push_ok accepted
  have hstill := Still.notifyReady (x.stored actor message placement ring)
  have hcapacity : (x.stored actor message placement ring).notifyReady.queue.capacity =
      ring.capacity := congrArg Ring.capacity hstill.ring_eq
  rw [replayed, hstill.traffic_eq, ← replayed, (hx.stored actor hpush).2, hcapacity]
  show _ = _ + if x.queue.ring.capacity < ring.capacity then 1 else 0
  rcases hitems.capacity_push hpush with ⟨hsame, heq⟩ | ⟨hmore, hgrown, -⟩
  · rw [hsame, heq, if_neg (Nat.lt_irrefl _)]
  · rw [hmore, if_pos hgrown]

/-! ## §4 The figures -/

/-- What the figures of a queue say about its run from a ring to the executor. -/
structure Exact (start : Ring Message) (x : Executor) (s : QueueStats) : Prop where
  /-- As many messages were accepted, counted in words. -/
  pushed_eq : s.pushed = UInt64.ofNat x.accepted.length
  /-- As many messages were removed, counted in words; a drain counts for all that it took. -/
  popped_eq : s.popped = UInt64.ofNat x.removed.length
  count_eq : s.count = x.queue.count
  count_add : s.count + x.removed.length = x.accepted.length
  count_word : UInt64.ofNat s.count = s.pushed - s.popped
  /-- As many pushes have enlarged the ring. -/
  grows_eq : s.grows.toNat = (x.replayed start).growths
  capacity_eq : s.capacity = (x.replayed start).ring.capacity
  items_eq : x.queue.toList = (x.replayed start).ring.toList

/-- **The figures of a queue are exact** after every operation of every run: they count the accepted
and the removed messages and the pushes that enlarged the ring, the number of queued items is the
difference of the first two, and asking for them changes nothing. -/
theorem stats_exact {q : Queue Message} (hq : q.Fresh) {x : Executor}
    (h : (ofQueue q).Reaches x) (memory : Memory) :
    ∃ s, x.perform memory .stats = (.stats s, x) ∧ Exact q.ring x s := by
  have hx := h.tallied hq
  obtain ⟨items, hitems, hreplayed⟩ := hx.alike.items
  have hcount : x.queue.count + x.removed.length = x.accepted.length := by
    rw [← (Reachable.conserves ⟨q, hq, h⟩).removed_append_toList, List.length_append,
      Nat.add_comm, Queue.toList, hitems.toList_eq, Queue.count, hitems.count_eq]
  have hgrowths : (x.replayed q.ring).growths < 2 ^ 64 := by
    rcases hx.growths_lt with h | ⟨hlt, hword⟩
    · omega
    · exact Nat.lt_trans hlt hword
  refine ⟨x.queue.stats, rfl, hx.pushed_eq, hx.popped_eq, rfl, hcount, ?_, ?_, ?_, ?_⟩
  · show UInt64.ofNat x.queue.count = x.queue.pushed - x.queue.popped
    rw [hx.pushed_eq, hx.popped_eq, ← hcount, UInt64.ofNat_add]
    simp
  · show x.queue.grows.toNat = _
    rw [hx.grows_eq]
    exact UInt64.toNat_ofNat_of_lt' hgrowths
  · exact hx.alike.capacity_eq.symm
  · rw [Queue.toList, hitems.toList_eq, hreplayed.toList_eq]

/-- Two pushes enlarge the ring, one of them a handler's; two more find it full, and a drain takes
four messages at once. -/
theorem stats_exact_drained :
    let c : Conditions := ⟨.ofSlotBytes 16, true⟩
    let start := ofQueue ⟨"work", ⟨#[none, none], 0, 0, some 5⟩, .quiet, [], 0, 0, 0⟩
    let handler := Script.handler ⟨[], [], [(1, 8), (1, 9)], []⟩
    let served := (start.step c 20 [.spawn "w" (.consume none 100 handler false),
      .submit (.tagged 1) none]).2
    let left := (served.step c 20 [.cancel "w", .submitMany 2 6, .submit (.tagged 7) none, .drain,
      .stop]).2
    served.queue.stats = ⟨"work", 4, 0, 3, 3, 1⟩ ∧
    left.queue.stats = ⟨"work", 5, 1, 8, 7, 2⟩ ∧
    ∃ s, left.perform c.memory .stats = (.stats s, left) ∧ Exact start.queue.ring left s := by
  intro c start handler served left
  have hmade : Queue.ofSettings c.memory ⟨"work", 2, some 5, 100⟩ = .ok start.queue := rfl
  have hfresh : start.queue.Fresh := .ofSettings hmade
  have hserved : start.Reaches served := Reaches.refl.step hfresh c 20 _ rfl
  have hleft : start.Reaches left := hserved.step hfresh c 20 _ (by decide +kernel)
  exact ⟨by decide +kernel, by decide +kernel, stats_exact hfresh hleft c.memory⟩

end Executor

end Handoff
