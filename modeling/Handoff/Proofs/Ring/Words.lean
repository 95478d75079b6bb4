/-
Handoff.Proofs.Ring.Words — the cursors and capacities of a ring are words.

The definitions of a ring compute with numbers of any size, and a slot that is not in the row is
vacant. A machine computes with words: a sum can be too large for one, a difference can be below
zero, a remainder by zero is none, and a slot that is not in the row cannot be used. Here the
operations are written once more with arithmetic that stops at each of these (`Checked`), step by
step as a machine takes them.

In a ring that can be reached nothing ever stops, and both ways to compute agree. All of it comes
from one bound: the slots were handed out as one block, so twice their number is a word, and every
number that is computed is below that. The bound also settles what the check for doubling is for. It
never fails, although it comes before the look at the ceiling, and so it hides nothing from a
producer that waits for room.

  §1 checked arithmetic   — `Trap`, `Checked`
  §2 the ring in words    — `countInWords`, `pushInWords`, `popInWords`, `popUpToInWords`
  §3 the bound            — `InWords`, `Sound.inWords`
  §4 nothing stops        — `Sound.pushInWords_eq`, `Sound.grownCapacity_eq`, `computed_in_words`
-/
import Handoff.Proofs.Queue.Refusal

namespace Handoff

/-! ## §1 Checked arithmetic -/

/-- Why a machine stops. -/
inductive Trap where
  /-- A sum is not a word. -/
  | overflow
  /-- A difference is below zero. -/
  | underflow
  /-- A remainder by zero is asked for. -/
  | zeroModulus
  /-- A slot is not in its row. -/
  | noSlot
  deriving DecidableEq, Repr

/-- A computation that may stop. -/
abbrev Checked : Type → Type := Except Trap

namespace Checked

variable {α β γ : Type}

def add (a b : Nat) : Checked Nat := if a + b < wordLimit then .ok (a + b) else .error .overflow

def sub (a b : Nat) : Checked Nat := if b ≤ a then .ok (a - b) else .error .underflow

def mod (a b : Nat) : Checked Nat := if 0 < b then .ok (a % b) else .error .zeroModulus

/-- Reads a slot. -/
def read (row : Array (Option α)) (slot : Nat) : Checked (Option α) :=
  if h : slot < row.size then .ok row[slot] else .error .noSlot

/-- Overwrites a slot. -/
def write (row : Array (Option α)) (slot : Nat) (item? : Option α) :
    Checked (Array (Option α)) :=
  if h : slot < row.size then .ok (row.set slot item?) else .error .noSlot

theorem add_eq {a b : Nat} (h : a + b < wordLimit) : add a b = .ok (a + b) := if_pos h

theorem sub_eq {a b : Nat} (h : b ≤ a) : sub a b = .ok (a - b) := if_pos h

theorem mod_eq (a : Nat) {b : Nat} (h : 0 < b) : mod a b = .ok (a % b) := if_pos h

theorem read_eq {row : Array (Option α)} {slot : Nat} (h : slot < row.size) :
    read row slot = .ok (row[slot]?).join := by
  rw [read, dif_pos h, Array.getElem?_eq_getElem h]
  rfl

theorem write_eq {row : Array (Option α)} {slot : Nat} (h : slot < row.size) (item? : Option α) :
    write row slot item? = .ok (row.setIfInBounds slot item?) := by
  rw [write, dif_pos h, Array.setIfInBounds, dif_pos h]

@[simp] theorem ok_bind (b : β) (f : β → Checked γ) : (Except.ok b >>= f : Checked γ) = f b := rfl

@[simp] theorem pure_eq (b : β) : (pure b : Checked β) = .ok b := rfl

/-- A loop that never stops is the loop without the checks. -/
theorem foldlM_eq {f : β → γ → Checked β} {g : β → γ → β} (P : β → Prop) (steps : List γ)
    (step : ∀ b, P b → ∀ c ∈ steps, f b c = .ok (g b c) ∧ P (g b c)) {b : β} (hb : P b) :
    steps.foldlM f b = .ok (steps.foldl g b) := by
  induction steps generalizing b with
  | nil => rfl
  | cons c rest ih =>
    obtain ⟨hfirst, hnext⟩ := step b hb c List.mem_cons_self
    rw [List.foldlM_cons, hfirst, ok_bind, List.foldl_cons]
    exact ih (fun b hb c hc => step b hb c (List.mem_cons_of_mem _ hc)) hnext

end Checked

namespace Ring

variable {α : Type}

/-! ## §2 The ring in words -/

/-- The cursor one slot further. -/
def nextInWords (r : Ring α) (cursor : Nat) : Checked Nat := do
  let next ← Checked.add cursor 1
  Checked.mod next r.capacity

/-- The number of live items. -/
def countInWords (r : Ring α) : Checked Nat := do
  let beyond ← Checked.add r.writeIndex r.capacity
  let way ← Checked.sub beyond r.readIndex
  Checked.mod way r.capacity

/-- The ring with its live items moved to the front of `slots`. -/
def moveIntoInWords (r : Ring α) (slots : Array (Option α)) : Checked (Ring α) := do
  let count ← r.countInWords
  let row ← (List.range count).foldlM (fun row offset => do
    let beyond ← Checked.add r.readIndex offset
    let slot ← Checked.mod beyond r.capacity
    let item? ← Checked.read r.slots slot
    Checked.write row offset item?) slots
  return { r with slots := row, readIndex := 0, writeIndex := count }

/-- The ring with `item` in the slot at the write cursor, and the cursor one slot further. -/
def storeInWords (r : Ring α) (item : α) : Checked (Ring α) := do
  let slots ← Checked.write r.slots r.writeIndex (some item)
  let writeIndex ← r.nextInWords r.writeIndex
  return { r with slots, writeIndex }

/-- The ring with more slots, if it may grow and the memory hands them out. -/
def growInWords (memory : Memory) (r : Ring α) : Checked (Except Error (Ring α)) :=
  match r.grownCapacity with
  | .error e => return .error e
  | .ok target =>
    match vacantSlots memory target with
    | .error e => return .error e
    | .ok slots => do
      let larger ← r.moveIntoInWords slots
      return .ok larger

/-- Stores an item as the newest, in a larger ring if it would take the last free slot. -/
def pushInWords (memory : Memory) (r : Ring α) (item : α) :
    Checked (Except (Rejection α) (Placement × Ring α)) := do
  let next ← r.nextInWords r.writeIndex
  if next = r.readIndex then
    match ← r.growInWords memory with
    | .error e => return .error ⟨item, e⟩
    | .ok larger =>
      let stored ← larger.storeInWords item
      return .ok (.grew r.capacity larger.capacity, stored)
  else
    let stored ← r.storeInWords item
    return .ok (.inPlace, stored)

/-- Takes the oldest item; its slot becomes vacant. -/
def popInWords (r : Ring α) : Checked (Option α × Ring α) :=
  if r.isEmpty then return (none, r)
  else do
    let item? ← Checked.read r.slots r.readIndex
    let slots ← Checked.write r.slots r.readIndex none
    let readIndex ← r.nextInWords r.readIndex
    return (item?, { r with slots, readIndex })

/-- The oldest item, which stays where it is. -/
def peekInWords (r : Ring α) : Checked (Option α) :=
  if r.isEmpty then return none else Checked.read r.slots r.readIndex

/-- Takes items, oldest first, until there is none or `limit` were taken. -/
def popUpToInWords : Nat → Ring α → Checked (List α × Ring α)
  | 0, r => return ([], r)
  | limit + 1, r => do
    match ← r.popInWords with
    | (none, rest) => return ([], rest)
    | (some item, rest) =>
      let (items, last) ← popUpToInWords limit rest
      return (item :: items, last)

/-! ## §3 The bound -/

/-- All numbers that the operations compute from the cursors and the capacity are words, and all
slots that they use are in the row. -/
structure InWords (r : Ring α) : Prop where
  /-- Remainders are taken by the capacity alone. -/
  capacity_pos : 0 < r.capacity
  read_lt : r.readIndex < r.slots.size
  write_lt : r.writeIndex < r.slots.size
  read_next : r.readIndex + 1 < wordLimit
  write_next : r.writeIndex + 1 < wordLimit
  /-- The way from the read cursor to the write cursor is computed past the end of the row. -/
  beyond : r.writeIndex + r.capacity < wordLimit
  way : r.readIndex ≤ r.writeIndex + r.capacity
  /-- A growth goes through the live items, from the read cursor on. -/
  offset : ∀ offset < r.count, r.readIndex + offset < wordLimit ∧ r.place offset < r.slots.size
  doubled : 2 * r.capacity < wordLimit

namespace Sound

variable {r : Ring α}

theorem inWords (h : r.Sound) : r.InWords := by
  have hread := h.holds.read_lt
  have hwrite := h.holds.write_lt
  have hcount := h.holds.length_lt
  have hdouble := h.doubles
  rw [← h.holds.count_eq] at hcount
  refine ⟨h.holds.capacity_pos, hread, hwrite, ?_, ?_, ?_, ?_, fun offset hoffset => ⟨?_, ?_⟩,
    hdouble⟩
  · omega
  · omega
  · omega
  · omega
  · omega
  · exact place_lt r offset h.holds.capacity_pos

end Sound

/-! ## §4 Nothing stops -/

theorem storeInWords_eq {r : Ring α} {item : α} (pos : 0 < r.capacity) (slot : r.writeIndex < r.slots.size)
    (next : r.writeIndex + 1 < wordLimit) : r.storeInWords item = .ok (r.store item) := by
  rw [storeInWords, Checked.write_eq slot, Checked.ok_bind, nextInWords, Checked.add_eq next,
    Checked.ok_bind, Checked.mod_eq _ pos, Checked.ok_bind]
  rfl

namespace InWords

variable {r : Ring α}

theorem nextInWords_eq {cursor : Nat} (h : r.InWords) (next : cursor + 1 < wordLimit) :
    r.nextInWords cursor = .ok ((cursor + 1) % r.capacity) := by
  rw [nextInWords, Checked.add_eq next, Checked.ok_bind, Checked.mod_eq _ h.capacity_pos]

theorem countInWords_eq (h : r.InWords) : r.countInWords = .ok r.count := by
  rw [countInWords, Checked.add_eq h.beyond, Checked.ok_bind, Checked.sub_eq h.way,
    Checked.ok_bind, Checked.mod_eq _ h.capacity_pos, count]

theorem moveIntoInWords_eq (h : r.InWords) {slots : Array (Option α)} (room : r.count ≤ slots.size) :
    r.moveIntoInWords slots = .ok (r.moveInto slots) := by
  have hloop : ∀ row : Array (Option α), row.size = slots.size →
      ∀ offset ∈ List.range r.count, (do
        let beyond ← Checked.add r.readIndex offset
        let slot ← Checked.mod beyond r.capacity
        let item? ← Checked.read r.slots slot
        Checked.write row offset item?) = .ok (row.setIfInBounds offset (r.slotAt offset)) ∧
      (row.setIfInBounds offset (r.slotAt offset)).size = slots.size := by
    intro row hrow offset hoffset
    have hlt : offset < r.count := List.mem_range.mp hoffset
    obtain ⟨hword, hplace⟩ := h.offset offset hlt
    refine ⟨?_, by rw [Array.size_setIfInBounds, hrow]⟩
    rw [Checked.add_eq hword, Checked.ok_bind, Checked.mod_eq _ h.capacity_pos, Checked.ok_bind]
    show (do let item? ← Checked.read r.slots (r.place offset); Checked.write row offset item?) = _
    rw [Checked.read_eq hplace, Checked.ok_bind, Checked.write_eq (by omega), slotAt_def]
  rw [moveIntoInWords, h.countInWords_eq, Checked.ok_bind,
    Checked.foldlM_eq (fun row => row.size = slots.size) _ hloop rfl, Checked.ok_bind]
  rfl

theorem popInWords_eq (h : r.InWords) : r.popInWords = .ok r.pop := by
  have hzero : r.slotAt 0 = (r.slots[r.readIndex]?).join := by
    rw [slotAt_def, place_zero h.read_lt]
  unfold popInWords pop
  split
  · rfl
  · rw [Checked.read_eq h.read_lt, Checked.ok_bind, Checked.write_eq h.read_lt, Checked.ok_bind,
      h.nextInWords_eq h.read_next, Checked.ok_bind, hzero]
    rfl

theorem peekInWords_eq (h : r.InWords) : r.peekInWords = .ok r.peek := by
  unfold peekInWords peek
  split
  · rfl
  · rw [Checked.read_eq h.read_lt, slotAt_def, place_zero h.read_lt]

end InWords

namespace Sound

variable {r : Ring α}

theorem growInWords_eq (h : r.Sound) (memory : Memory) :
    r.growInWords memory = .ok (r.grow memory) := by
  unfold growInWords grow
  cases htarget : r.grownCapacity with
  | error e => rfl
  | ok target =>
    cases hslots : vacantSlots (α := α) memory target with
    | error e =>
      simp only [hslots]
      rfl
    | ok slots =>
      have hgrow : r.grow memory = .ok (r.moveInto slots) := by simp only [grow, htarget, hslots]
      have hlarger := (h.holds.grow hgrow).1.length_lt
      have hsize : (r.moveInto slots).capacity = slots.size := size_fill r.slotAt _ slots
      rw [hsize, ← h.holds.count_eq] at hlarger
      simp only [hslots, h.inWords.moveIntoInWords_eq (Nat.le_of_lt hlarger)]
      rfl

/-- A growth leaves the write cursor behind the last item. -/
theorem writeIndex_of_grow {memory : Memory} {larger : Ring α}
    (grown : r.grow memory = .ok larger) : larger.writeIndex = r.count := by
  rw [grow_eq] at grown
  split at grown
  · cases grown
  · split at grown
    · cases grown
    · cases grown
      rfl

theorem pushInWords_eq (h : r.Sound) (memory : Memory) (item : α) :
    r.pushInWords memory item = .ok (r.push memory item) := by
  have hwords := h.inWords
  have hlast := h.holds.length_lt
  rw [← h.holds.count_eq] at hlast
  rw [pushInWords, hwords.nextInWords_eq hwords.write_next, Checked.ok_bind, Ring.push, isFull]
  by_cases hfull : (r.writeIndex + 1) % r.capacity = r.readIndex
  · rw [if_pos hfull, if_pos (beq_iff_eq.mpr hfull), h.growInWords_eq, Checked.ok_bind]
    cases hgrow : r.grow memory with
    | error e => rfl
    | ok larger =>
      have hlarger := (h.holds.grow hgrow).1
      have hcursor := writeIndex_of_grow hgrow
      have hdouble := h.doubles
      have hstored : larger.storeInWords item = .ok (larger.store item) :=
        storeInWords_eq hlarger.capacity_pos hlarger.write_lt (by omega)
      simp only [hstored]
      rfl
  · have hroom : ((r.writeIndex + 1) % r.capacity == r.readIndex) = false := by simpa using hfull
    rw [if_neg hfull, hroom,
      storeInWords_eq hwords.capacity_pos hwords.write_lt hwords.write_next, Checked.ok_bind]
    rfl

theorem popUpToInWords_eq (h : r.Sound) (limit : Nat) :
    r.popUpToInWords limit = .ok (r.popUpTo limit) := by
  induction limit generalizing r with
  | zero => rfl
  | succ limit ih =>
    rw [popUpToInWords, popUpTo, h.inWords.popInWords_eq, Checked.ok_bind]
    cases hpop : r.pop with
    | mk item? rest =>
      cases item? with
      | none => rfl
      | some item =>
        have hrest : rest.Sound := (h.pop_some hpop).1
        simp only [ih hrest]
        rfl

/-- Only the ceiling keeps a ring from growing to twice its slots. -/
theorem grownCapacity_eq (h : r.Sound) :
    r.grownCapacity = match r.maxCapacity with
      | none => .ok (2 * r.capacity)
      | some max =>
        if max ≤ r.capacity then .error (.capacityExceeded r.capacity max)
        else .ok (min (2 * r.capacity) max) := by
  unfold grownCapacity
  exact if_neg (Nat.not_le.mpr h.doubles)

theorem not_capacityOverflow {memory : Memory} {item : α} {rejection : Rejection α}
    (h : r.Sound) (refused : r.push memory item = .error rejection) (capacity : Nat) :
    rejection.error ≠ .capacityOverflow capacity := by
  have hwhy := ((push_eq_error_iff h memory item rejection).mp refused).2
  intro hoverflow
  rw [hoverflow] at hwhy
  cases hwhy

end Sound

/-- **No number leaves the words**: in a ring that can be reached every sum, difference and remainder
can be computed in words, every slot that is used is in the row, and the operations in words do what
the operations do. So the check for doubling changes nothing: the capacity to grow to is twice the
slots unless the ceiling says otherwise, no push fails for that check, and at the ceiling every push,
also to the queue around the ring, is rejected because of the ceiling. -/
theorem computed_in_words {r : Ring α} (reached : r.Reached) :
    r.InWords ∧
    (r.countInWords = .ok r.count ∧ r.peekInWords = .ok r.peek ∧
      (∀ memory item, r.pushInWords memory item = .ok (r.push memory item)) ∧
      ∀ limit, r.popUpToInWords limit = .ok (r.popUpTo limit)) ∧
    (r.grownCapacity = match r.maxCapacity with
      | none => .ok (2 * r.capacity)
      | some max =>
        if max ≤ r.capacity then .error (.capacityExceeded r.capacity max)
        else .ok (min (2 * r.capacity) max)) ∧
    (∀ memory item rejection capacity, r.push memory item = .error rejection →
      rejection.error ≠ .capacityOverflow capacity) ∧
    ∀ max, r.maxCapacity = some max → r.count + 1 = max → ∀ memory item (q : Queue α),
      q.ring = r → q.push memory item = .error ⟨item, .capacityExceeded max max⟩ := by
  have hsound := reached.sound
  have hwords := hsound.inWords
  refine ⟨hwords, ⟨hwords.countInWords_eq, hwords.peekInWords_eq, hsound.pushInWords_eq,
    hsound.popUpToInWords_eq⟩, hsound.grownCapacity_eq, ?_, ?_⟩
  · intro memory item rejection capacity refused
    exact hsound.not_capacityOverflow refused capacity
  · rintro max ceiling last memory item q rfl
    rw [Queue.push_eq_error_iff, push_eq_error_iff hsound]
    exact ⟨rfl, .full ceiling last⟩

/-- The longest row that there can be: two more than twice its slots are too many for a word. And a
ring whose items lie across the end of its row grows to its ceiling, where the next push fails. -/
theorem computed_in_words_edge :
    let memory : Memory := ⟨1, fun _ => true⟩
    let longest : Ring Nat := ⟨Array.replicate maxBlockBytes none, 0, 0, some maxBlockBytes⟩
    let wrapped : Ring Nat := ⟨#[some 3, none, some 2], 2, 1, some 4⟩
    let grown : Ring Nat := ⟨#[some 2, some 3, some 4, none], 0, 3, some 4⟩
    longest.Reached ∧ 2 * longest.capacity + 2 = wordLimit ∧
      longest.pushInWords memory 7 = .ok (.ok (.inPlace, longest.store 7)) ∧
      wrapped.Reached ∧ wrapped.pushInWords memory 4 = .ok (.ok (.grew 3 4, grown)) ∧
      grown.Reached ∧ grown.pushInWords memory 5 = .ok (.error ⟨5, .capacityExceeded 4 4⟩) := by
  intro memory longest wrapped grown
  have hsized : 0 < memory.slotBytes := Nat.one_pos
  have hmade : create memory maxBlockBytes (some maxBlockBytes) = .ok longest := by
    simp [create, bounded, withCapacity, vacantSlots, Memory.fault?, memory, longest, maxBlockBytes]
  have hlongest : longest.Reached := .create hsized hmade
  have hempty := (holds_create hmade).1
  have hcapacity : longest.capacity = maxBlockBytes := (holds_create hmade).2.1
  have hstored : longest.push memory 7 = .ok (.inPlace, longest.store 7) := by
    rcases hempty.push_cases memory 7 with ⟨-, hpush⟩ | ⟨hlast, -⟩
    · exact hpush
    · rw [hcapacity] at hlast
      exact absurd hlast (by decide)
  have hthree : create memory 3 (some 4) = .ok (⟨#[none, none, none], 0, 0, some 4⟩ : Ring Nat) :=
    rfl
  have hwrapped := ((((((Reached.create hsized hthree).answer (.push memory 0) hsized).answer
    (.push memory 1) hsized).answer .pop trivial).answer .pop trivial).answer (.push memory 2)
    hsized).answer (.push memory 3) hsized
  rw [show (answer _ (.push memory 3)).2 = wrapped by decide +kernel] at hwrapped
  have hgrew : wrapped.push memory 4 = .ok (.grew 3 4, grown) := by decide +kernel
  have hgrown := hwrapped.answer (.push memory 4) hsized
  rw [show (answer wrapped (.push memory 4)).2 = grown by decide +kernel] at hgrown
  have hrefused : grown.push memory 5 = .error ⟨5, .capacityExceeded 4 4⟩ := by decide +kernel
  obtain ⟨-, ⟨-, -, hedge, -⟩, -⟩ := computed_in_words hlongest
  obtain ⟨-, ⟨-, -, hgrows, -⟩, -⟩ := computed_in_words hwrapped
  obtain ⟨-, ⟨-, -, hrefuses, -⟩, -⟩ := computed_in_words hgrown
  refine ⟨hlongest, by rw [hcapacity]; rfl, ?_, hwrapped, ?_, hgrown, ?_⟩
  · rw [hedge, hstored]
  · rw [hgrows, hgrew]
  · rw [hrefuses, hrefused]

end Ring

end Handoff
