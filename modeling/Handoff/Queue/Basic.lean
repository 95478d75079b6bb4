/-
Handoff.Queue.Basic — a ring that tasks share.

A queue is a ring with a name, counters, and two ways of waiting: consumers wait for an item (the
signal `ready`), producers wait for room (the list `space`). Each operation returns, beside the new
queue, the tasks that it wakes: a push wakes at most one waiting consumer, a removal all waiting
producers. What a woken task does is no matter of the queue.

The counters are words and wrap; `grows` counts the pushes that enlarged the ring.
-/
import Handoff.Ring.Basic
import Handoff.Settings
import Handoff.Signal
import Handoff.Text.Quoted

namespace Handoff

/-! ## §1 The queue -/

/-- A ring with a name, the tasks that wait for items and for room, and counters. -/
structure Queue (α : Type) where
  name : String
  ring : Ring α
  ready : Signal
  space : List TaskId
  pushed : UInt64
  popped : UInt64
  grows : UInt64
  deriving DecidableEq, Repr

/-- The figures of a queue at one moment. -/
structure QueueStats where
  name : String
  capacity : Nat
  count : Nat
  pushed : UInt64
  popped : UInt64
  grows : UInt64
  deriving DecidableEq, Repr

namespace Queue

variable {α : Type}

/-- The queue around a ring, with no history. -/
def ofRing (name : String) (ring : Ring α) : Queue α := ⟨name, ring, .quiet, [], 0, 0, 0⟩

/-- The queue that the settings describe, if they are without fault and the memory suffices. -/
def ofSettings (memory : Memory) (s : QueueSettings) : Except Error (Queue α) :=
  match s.validate with
  | .error e => .error e
  | .ok () =>
    match Ring.create memory s.initialCapacity s.maxCapacity with
    | .error e => .error e
    | .ok ring => .ok (ofRing s.name ring)

/-- A queue that settings describe is one around the ring that they ask for. -/
theorem ofSettings_ok {memory : Memory} {s : QueueSettings} {q : Queue α}
    (made : ofSettings memory s = .ok q) :
    s.validate = .ok () ∧ ∃ ring, Ring.create memory s.initialCapacity s.maxCapacity = .ok ring ∧
      q = ofRing s.name ring := by
  unfold ofSettings at made
  split at made
  · cases made
  · next valid =>
    cases hring : Ring.create (α := α) memory s.initialCapacity s.maxCapacity with
    | error e => simp [hring] at made
    | ok ring =>
      simp only [hring, Except.ok.injEq] at made
      exact ⟨valid, ring, rfl, made.symm⟩

/-- A queue of `initial` slots with the standard name and no ceiling. -/
def withCapacity (memory : Memory) (initial : Nat) : Except Error (Queue α) :=
  match Ring.withCapacity memory initial with
  | .error e => .error e
  | .ok ring => .ok (ofRing QueueSettings.standard.name ring)

/-! ## §2 Reading -/

/-- The number of queued items. -/
def count (q : Queue α) : Nat := q.ring.count

/-- The number of slots. -/
def capacity (q : Queue α) : Nat := q.ring.capacity

/-- Whether no item is queued. -/
def isEmpty (q : Queue α) : Bool := q.ring.isEmpty

/-- The queued items, oldest first. -/
def toList (q : Queue α) : List α := q.ring.toList

/-- The figures of the queue. -/
def stats (q : Queue α) : QueueStats :=
  ⟨q.name, q.capacity, q.count, q.pushed, q.popped, q.grows⟩

/-- A copy of the oldest item. Making the copy can fail, which is then the answer; the queue is only
read either way. -/
def peekWith {ε : Type} (copy : α → Except ε α) (q : Queue α) : Except ε (Option α) :=
  match q.ring.peek with
  | none => .ok none
  | some item =>
    match copy item with
    | .error e => .error e
    | .ok duplicate => .ok (some duplicate)

/-- The oldest item, which stays queued. -/
def peek (q : Queue α) : Option α := q.ring.peek

/-! ## §3 Storing and taking items -/

/-- How many times a placement enlarged the ring. -/
def growthOf : Placement → UInt64
  | .inPlace => 0
  | .grew .. => 1

/-- Stores an item as the newest and notifies `ready`; the consumer woken is returned. -/
def push (memory : Memory) (q : Queue α) (item : α) :
    Except (Rejection α) (Option TaskId × Queue α) :=
  match q.ring.push memory item with
  | .error rejection => .error rejection
  | .ok (placement, ring) =>
    let (woken, ready) := q.ready.notifyOne
    .ok (woken,
      { q with ring, ready, pushed := q.pushed + 1, grows := q.grows + growthOf placement })

/-- Takes the oldest item. All producers that wait for room are woken, in the order in which they
came; they are returned. -/
def pop (q : Queue α) : Option α × List TaskId × Queue α :=
  match q.ring.pop with
  | (none, ring) => (none, [], { q with ring })
  | (some item, ring) => (some item, q.space, { q with ring, space := [], popped := q.popped + 1 })

/-- Takes all items, oldest first. If there was one, all producers that wait for room are woken. -/
def drain (q : Queue α) : List α × List TaskId × Queue α :=
  match q.ring.drain with
  | ([], ring) => ([], [], { q with ring })
  | (items, ring) =>
    (items, q.space,
      { q with ring, space := [], popped := q.popped + UInt64.ofNat items.length })

/-! ## §4 Before anyone is told

What a push or a removal does to the items, and what it tells others about it, are two things: tasks
that run side by side can see the queue between them. -/

/-- Stores an item as the newest; no consumer is told of it yet. -/
def store (memory : Memory) (q : Queue α) (item : α) : Except (Rejection α) (Queue α) :=
  match q.ring.push memory item with
  | .error rejection => .error rejection
  | .ok (placement, ring) =>
    .ok { q with ring, pushed := q.pushed + 1, grows := q.grows + growthOf placement }

/-- Tells a consumer of a stored item; the one woken is returned. -/
def announce (q : Queue α) : Option TaskId × Queue α :=
  let (woken, ready) := q.ready.notifyOne
  (woken, { q with ready })

/-- Takes the oldest item; no producer is told of the room yet. -/
def take (q : Queue α) : Option α × Queue α :=
  match q.ring.pop with
  | (none, ring) => (none, { q with ring })
  | (some item, ring) => (some item, { q with ring, popped := q.popped + 1 })

/-- Wakes all producers that wait for room; they are returned. -/
def release (q : Queue α) : List TaskId × Queue α := (q.space, { q with space := [] })

/-- A push stores its item and then announces it. -/
theorem push_eq (memory : Memory) (q : Queue α) (item : α) :
    q.push memory item = (q.store memory item).map announce := by
  unfold push store
  cases q.ring.push memory item with
  | error rejection => rfl
  | ok stored => rfl

/-- A removal takes its item and then, if there was one, wakes the producers. -/
theorem pop_eq (q : Queue α) :
    q.pop = match q.take with
      | (none, taken) => (none, [], taken)
      | (some item, taken) => (some item, taken.release) := by
  unfold pop take
  cases q.ring.pop with
  | mk item? ring => cases item? <;> rfl

/-! ## §5 Showing one -/

/-- The queue as a developer sees it; `id` stands for its identity. -/
def inspect (q : Queue α) (id : String) : String :=
  "WorkQueue \x7b id: " ++ id ++ ", name: " ++ Text.quoted q.name ++ ", .. \x7d"

end Queue

end Handoff
