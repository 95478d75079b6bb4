/-
Handoff.Ring.Basic — a growable ring of slots.

Items live in a row of slots that is read as a circle. The read cursor names the slot of the oldest
item, the write cursor the slot that the next item goes to, and the live items are those from the
first to the second. The cursors are equal exactly when the ring is empty, so one slot always stays
free: a push that would fill the last one enlarges the ring first, to twice its slots but never past
its ceiling, and moves the live items to the front of the new row.

A push that cannot be carried out changes nothing and hands the item back. Every operation is a
function from a ring to a ring, so "changes nothing" needs no theorem: a failed push returns no ring.

  §1 the ring and its sizes      — `capacity`, `count`, `isEmpty`
  §2 making one                  — `withCapacity`, `bounded`
  §3 growing                     — `grownCapacity`, `grow`
  §4 storing and taking items    — `push`, `pop`, `peek`, `drain`
  §5 showing one                 — `inspect`
-/
import Handoff.Error

namespace Handoff

/-! ## §1 The ring and its sizes -/

/-- A row of slots with a read cursor, a write cursor and an optional ceiling on the number of
slots. -/
structure Ring (α : Type) where
  slots : Array (Option α)
  readIndex : Nat
  writeIndex : Nat
  maxCapacity : Option Nat
  deriving DecidableEq, Repr

/-- Where a push put its item: into a free slot, or into a ring that first went from `old` slots to
`new` ones. -/
inductive Placement where
  | inPlace
  | grew (old new : Nat)
  deriving DecidableEq, Repr

namespace Ring

variable {α : Type}

/-- The number of slots. One of them always stays free. -/
def capacity (r : Ring α) : Nat := r.slots.size

/-- The number of live items: the way from the read cursor forward to the write cursor. -/
def count (r : Ring α) : Nat := (r.writeIndex + r.capacity - r.readIndex) % r.capacity

/-- Whether there is no live item. -/
def isEmpty (r : Ring α) : Bool := r.readIndex == r.writeIndex

/-! ## §2 Making one -/

/-- A row of `slots` vacant slots, if the memory hands them out. -/
def vacantSlots (memory : Memory) (slots : Nat) : Except Error (Array (Option α)) :=
  match memory.fault? slots with
  | some fault => .error (.allocation slots fault)
  | none => .ok (Array.replicate slots none)

/-- An empty ring of `initial` slots without a ceiling. -/
def withCapacity (memory : Memory) (initial : Nat) : Except Error (Ring α) :=
  if initial = 0 then .error (.invalidCapacity initial)
  else match vacantSlots memory initial with
    | .error e => .error e
    | .ok slots => .ok ⟨slots, 0, 0, none⟩

/-- An empty ring of `initial` slots that never grows past `max` slots. -/
def bounded (memory : Memory) (initial max : Nat) : Except Error (Ring α) :=
  if max < 2 then .error (.config (.bufferCeilingTooLow max))
  else if max < initial then .error (.config (.bufferCeilingBelowInitial max initial))
  else match withCapacity memory initial with
    | .error e => .error e
    | .ok r => .ok { r with maxCapacity := some max }

/-- An empty ring of `initial` slots, with the ceiling `max?` if there is one. -/
def create (memory : Memory) (initial : Nat) : Option Nat → Except Error (Ring α)
  | none => withCapacity memory initial
  | some max => bounded memory initial max

/-! ## §3 Growing -/

/-- The number of slots that the ring grows to: twice as many, but not past the ceiling. A capacity
that cannot be doubled within a word is an error, and so is a ring that is at its ceiling. -/
def grownCapacity (r : Ring α) : Except Error Nat :=
  if wordLimit ≤ 2 * r.capacity then .error (.capacityOverflow r.capacity)
  else match r.maxCapacity with
    | none => .ok (2 * r.capacity)
    | some max =>
      if max ≤ r.capacity then .error (.capacityExceeded r.capacity max)
      else .ok (min (2 * r.capacity) max)

/-- What the slot `offset` places after the read cursor holds. -/
def slotAt (r : Ring α) (offset : Nat) : Option α :=
  (r.slots[(r.readIndex + offset) % r.capacity]?).join

/-- The ring with its live items moved to the front of `slots`, a row of vacant slots. -/
def moveInto (r : Ring α) (slots : Array (Option α)) : Ring α where
  slots := (List.range r.count).foldl
    (fun row offset => row.setIfInBounds offset (r.slotAt offset)) slots
  readIndex := 0
  writeIndex := r.count
  maxCapacity := r.maxCapacity

/-- The ring with more slots, if it may grow and the memory hands them out. -/
def grow (memory : Memory) (r : Ring α) : Except Error (Ring α) :=
  match r.grownCapacity with
  | .error e => .error e
  | .ok target =>
    match vacantSlots memory target with
    | .error e => .error e
    | .ok slots => .ok (r.moveInto slots)

/-! ## §4 Storing and taking items -/

/-- The ring with `item` in the slot at the write cursor, and the cursor one slot further. -/
def store (r : Ring α) (item : α) : Ring α :=
  { r with
    slots := r.slots.setIfInBounds r.writeIndex (some item)
    writeIndex := (r.writeIndex + 1) % r.capacity }

/-- Whether an item would take the last free slot. -/
def isFull (r : Ring α) : Bool := (r.writeIndex + 1) % r.capacity == r.readIndex

/-- Stores an item as the newest, in a larger ring if it would take the last free slot. -/
def push (memory : Memory) (r : Ring α) (item : α) :
    Except (Rejection α) (Placement × Ring α) :=
  if r.isFull then
    match r.grow memory with
    | .error e => .error ⟨item, e⟩
    | .ok larger => .ok (.grew r.capacity larger.capacity, larger.store item)
  else .ok (.inPlace, r.store item)

/-- Takes the oldest item; its slot becomes vacant. -/
def pop (r : Ring α) : Option α × Ring α :=
  if r.isEmpty then (none, r)
  else
    (r.slotAt 0,
      { r with
        slots := r.slots.setIfInBounds r.readIndex none
        readIndex := (r.readIndex + 1) % r.capacity })

/-- The oldest item, which stays where it is. -/
def peek (r : Ring α) : Option α := if r.isEmpty then none else r.slotAt 0

/-- Takes items, oldest first, until there is none or `limit` were taken. -/
def popUpTo : Nat → Ring α → List α × Ring α
  | 0, r => ([], r)
  | limit + 1, r =>
    match r.pop with
    | (none, rest) => ([], rest)
    | (some item, rest) =>
      let (items, last) := popUpTo limit rest
      (item :: items, last)

/-- Takes all items, oldest first. -/
def drain (r : Ring α) : List α × Ring α := popUpTo r.count r

/-- The live items, oldest first. -/
def toList (r : Ring α) : List α := (List.range r.count).filterMap r.slotAt

/-! ## §5 Showing one -/

/-- An optional number as a developer sees it. -/
def inspectOption {β : Type} [ToString β] : Option β → String
  | none => "None"
  | some b => "Some(" ++ toString b ++ ")"

/-- The ring with its slots and cursors as a developer sees it. -/
def inspect [ToString α] (r : Ring α) : String :=
  "RingBuffer \x7b slots: [" ++ ", ".intercalate (r.slots.toList.map inspectOption) ++
    "], read_index: " ++ toString r.readIndex ++ ", write_index: " ++ toString r.writeIndex ++
    ", max_capacity: " ++ inspectOption r.maxCapacity ++ " \x7d"

end Ring

end Handoff
