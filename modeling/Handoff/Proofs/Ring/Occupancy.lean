/-
Handoff.Proofs.Ring.Occupancy — which slots of a ring are occupied.

The live items fill one window of the row: it starts at the read cursor, is as long as there are
items, and goes on at the front where it passes the end. `Tidy` says that the window and the
occupied slots are the same. So a slot outside holds nothing: neither an item that was taken nor one
that was moved to a longer row is kept, and a slot inside is never vacant.

The second half matters to whoever takes items, since a vacant slot in the window would look like
the end of them. `popChecked` takes an item and checks its slot, and `Empties` is the loop that goes
on until there is no item, with no limit on its length. Both do what `pop` and `drain` do.

  §1 the window            — `offsetOf`, `Tidy`, `Holds.tidy`
  §2 taking with a check   — `popChecked`, `Empties`, `Holds.empties_iff`
  §3 every run             — `slots_occupied_iff`
-/
import Handoff.Proofs.Ring.Refinement

namespace Handoff.Ring

variable {α : Type}

/-! ## §1 The window -/

/-- How many places after the read cursor a slot lies. -/
def offsetOf (r : Ring α) (slot : Nat) : Nat := (slot + r.capacity - r.readIndex) % r.capacity

/-- The slot at the offset of a slot is that slot. -/
theorem place_offsetOf {r : Ring α} {slot : Nat} (hr : r.readIndex < r.capacity)
    (hs : slot < r.capacity) : r.place (r.offsetOf slot) = slot := by
  rw [place, offsetOf, Nat.add_mod_mod,
    show r.readIndex + (slot + r.capacity - r.readIndex) = slot + r.capacity by omega,
    Nat.add_mod_right, Nat.mod_eq_of_lt hs]

/-- Whether a slot holds an item. -/
def occupied (r : Ring α) (slot : Nat) : Bool := (r.slots[slot]?).join.isSome

/-- The cursors lie within the row, one slot at least is free, the row is not longer than the
ceiling, and the occupied slots are those of the window. -/
structure Tidy (r : Ring α) : Prop where
  read_lt : r.readIndex < r.capacity
  write_lt : r.writeIndex < r.capacity
  count_lt : r.count < r.capacity
  capacity_pos : 1 ≤ r.capacity
  capacity_le : ∀ max, r.maxCapacity = some max → r.capacity ≤ max
  occupied_iff : ∀ slot < r.capacity, r.occupied slot ↔ r.offsetOf slot < r.count

namespace Holds

variable {r : Ring α} {items : List α}

theorem occupied_iff (h : r.Holds items) {slot : Nat} (hs : slot < r.capacity) :
    r.occupied slot ↔ r.offsetOf slot < r.count := by
  have hoffset : r.offsetOf slot < r.capacity := Nat.mod_lt _ h.capacity_pos
  have hslot : (r.slots[slot]?).join = items[r.offsetOf slot]? := by
    rw [← h.slotAt_eq _ hoffset, slotAt_def, place_offsetOf h.read_lt hs]
  rw [occupied, hslot, h.count_eq]
  simp

theorem tidy (h : r.Holds items) : r.Tidy where
  read_lt := h.read_lt
  write_lt := h.write_lt
  count_lt := h.count_eq ▸ h.length_lt
  capacity_pos := h.capacity_pos
  capacity_le := h.capacity_le
  occupied_iff := fun _ hs => h.occupied_iff hs

end Holds

/-! ## §2 Taking with a check -/

/-- Takes the oldest item, after a look at its slot. If the slot is vacant, its number is the
error. -/
def popChecked (r : Ring α) : Except Nat (Option α × Ring α) :=
  if r.isEmpty || r.occupied r.readIndex then .ok r.pop else .error r.readIndex

/-- Items are taken, each after a look at its slot, until there is none. -/
inductive Empties : Ring α → List α → Ring α → Prop where
  | done {r rest : Ring α} (last : r.popChecked = .ok (none, rest)) : Empties r [] rest
  | more {r next rest : Ring α} {item : α} {items : List α}
      (first : r.popChecked = .ok (some item, next)) (others : Empties next items rest) :
      Empties r (item :: items) rest

namespace Holds

variable {r : Ring α} {items : List α}

/-- The slot that an item is taken from is occupied. -/
theorem popChecked_eq (h : r.Holds items) : r.popChecked = .ok r.pop := by
  unfold popChecked
  rw [if_pos]
  cases items with
  | nil => simp [h.isEmpty_eq]
  | cons item rest =>
    have hslot : (r.slots[r.readIndex]?).join = some item := by
      rw [← place_zero h.read_lt, ← slotAt_def, h.slotAt_zero, List.head?_cons]
    simp [occupied, hslot]

theorem drain_nil (h : r.Holds []) : r.drain = ([], r) := by
  rw [Ring.drain, h.count_eq]
  rfl

/-- To take all items is to take the first one, and then all others. -/
theorem drain_cons {item : α} {rest : List α} (h : r.Holds (item :: rest)) :
    r.drain = (item :: r.pop.2.drain.1, r.pop.2.drain.2) := by
  obtain ⟨hitem, hrest⟩ := h.pop_cons
  have hpop : r.pop = (some item, r.pop.2) := by rw [← hitem]
  rw [Ring.drain, h.count_eq, Ring.drain, hrest.count_eq, List.length_cons, Ring.popUpTo, hpop]

/-- Taking items until there is none, with no limit, takes what `drain` takes. -/
theorem empties_drain (h : r.Holds items) : r.Empties r.drain.1 r.drain.2 := by
  induction items generalizing r with
  | nil =>
    rw [h.drain_nil]
    exact .done (by rw [h.popChecked_eq, h.pop_nil])
  | cons item rest ih =>
    obtain ⟨hitem, hrest⟩ := h.pop_cons
    rw [h.drain_cons]
    exact .more (by rw [h.popChecked_eq, ← hitem]) (ih hrest)

/-- No slot looks like the end of the items before they end. -/
theorem empties_iff (h : r.Holds items) (taken : List α) (rest : Ring α) :
    r.Empties taken rest ↔ (taken, rest) = r.drain := by
  constructor
  · intro hempties
    induction hempties generalizing items with
    | done last =>
      rw [h.popChecked_eq, Except.ok.injEq] at last
      cases items with
      | nil =>
        rw [h.pop_nil] at last
        cases last
        exact h.drain_nil.symm
      | cons item others =>
        have hitem := h.pop_cons.1
        rw [last] at hitem
        cases hitem
    | more first _ ih =>
      rw [h.popChecked_eq, Except.ok.injEq] at first
      cases items with
      | nil =>
        rw [h.pop_nil] at first
        cases first
      | cons item others =>
        obtain ⟨hitem, hrest⟩ := h.pop_cons
        rw [first, Option.some.injEq] at hitem
        rw [first] at hrest
        rw [h.drain_cons, first, ← ih hrest, hitem]
  · intro heq
    obtain ⟨rfl, rfl⟩ := Prod.ext_iff.mp heq
    exact h.empties_drain

end Holds

/-! ## §3 Every run -/

/-- No request changes the ceiling. -/
theorem Plain.maxCapacity_answer (p : Plain α) (request : Request α) :
    (p.answer request).2.maxCapacity = p.maxCapacity := by
  cases request with
  | push memory item =>
    simp only [Plain.answer, Plain.push]
    split
    · rfl
    · split <;> rfl
  | pop | peek | drain | count | isEmpty | capacity => rfl

theorem Plain.maxCapacity_answerAll (requests : List (Request α)) (p : Plain α) :
    (answerAll Plain.answer requests p).2.maxCapacity = p.maxCapacity := by
  induction requests generalizing p with
  | nil => rfl
  | cons request rest ih => exact (ih _).trans (p.maxCapacity_answer request)

/-- **The occupied slots are those of the window**, after any sequence of requests to a ring that was
made, whatever pushes were rejected on the way: the cursors lie within the row and one slot is free;
the slot that an item is taken from is not vacant; and taking items until there is none takes as
many as there were. -/
theorem slots_occupied_iff {memory : Memory} {initial : Nat} {max? : Option Nat} {made : Ring α}
    (h : create memory initial max? = .ok made) (requests : List (Request α)) :
    let r := (answerAll answer requests made).2
    r.Tidy ∧ r.maxCapacity = max? ∧ r.popChecked = .ok r.pop ∧
      (∀ taken rest, r.Empties taken rest ↔ (taken, rest) = r.drain) ∧
      r.drain.1.length = r.count ∧ r.drain.2.count = 0 := by
  intro r
  have hsimulates := ((simulates_create h).answerAll requests).2
  have hheld : r.Holds _ := hsimulates.holds
  obtain ⟨hdrained, hleft⟩ := hheld.drain
  refine ⟨hheld.tidy, ?_, hheld.popChecked_eq, hheld.empties_iff, ?_, hleft.count_eq⟩
  · rw [hsimulates.maxCapacity_eq, Plain.maxCapacity_answerAll]
  · rw [hdrained, hheld.count_eq]

/-- The items lie across the end of a row that was clamped to its ceiling, after a growth was refused
and a push rejected at the ceiling: of its five slots the two between the cursors are vacant, though
both held an item before. -/
theorem slots_occupied_iff_wrapped :
    let memory := Memory.ofSlotBytes 16
    let requests : List (Request Nat) :=
      [.push memory 1, .push (memory.limitedTo 3) 2, .push memory 2, .push memory 3, .pop, .pop,
        .push memory 4, .push memory 5, .push memory 6, .pop, .push memory 7, .pop, .push memory 8,
        .push memory 9, .pop]
    let r := (answerAll answer requests ⟨#[none, none], 0, 0, some 5⟩).2
    create memory 2 (some 5) = .ok (⟨#[none, none], 0, 0, some 5⟩ : Ring Nat) ∧
      r = ⟨#[some 8, none, none, some 6, some 7], 3, 1, some 5⟩ ∧
      r.occupied 0 = true ∧ r.occupied 2 = false ∧ r.Empties [6, 7, 8] r.drain.2 := by
  intro memory requests r
  have hmade : create memory 2 (some 5) =
      .ok (⟨#[none, none], 0, 0, some 5⟩ : Ring Nat) := rfl
  obtain ⟨htidy, -, -, hempties, -, -⟩ := slots_occupied_iff hmade requests
  have hr : r = ⟨#[some 8, none, none, some 6, some 7], 3, 1, some 5⟩ := by decide +kernel
  have hinside : r.offsetOf 0 < r.count := by decide +kernel
  have houtside : ¬ r.offsetOf 2 < r.count := by decide +kernel
  refine ⟨hmade, hr, (htidy.occupied_iff 0 ?_).mpr hinside, ?_, (hempties _ _).mpr ?_⟩
  · decide +kernel
  · exact Bool.eq_false_iff.mpr (mt (htidy.occupied_iff 2 (by decide +kernel)).mp houtside)
  · decide +kernel

end Handoff.Ring
