/-
Handoff.Proofs.Ring.Refinement — a ring answers like a plain list.

`Plain` is what a caller has to know of a ring: the items, oldest first, the capacity and the
ceiling. It has no slots and no cursors. A `Request` is one call, and a push brings its own memory,
so that a sequence of requests fixes which growths are refused on the way.

`answerAll_create` says that a ring gives the answers of the plain list to every sequence of
requests, and that what it holds afterwards is what the list holds: where the cursors stand, whether
the items lie across the end of the row, and how often the ring grew before can not be told from
outside.

  §1 requests        — `Request`, `Answer`, `answerAll`
  §2 the two sides   — `Plain`, `Plain.answer`, `Ring.answer`
  §3 the simulation  — `Simulates`, one request
  §4 all requests    — `answerAll_create`
-/
import Handoff.Proofs.Ring.Representation

namespace Handoff.Ring

variable {α : Type}

/-! ## §1 Requests -/

/-- One call to a ring. -/
inductive Request (α : Type) where
  /-- Stores an item; a growth asks `memory` for the slots. -/
  | push (memory : Memory) (item : α)
  | pop
  | peek
  | drain
  | count
  | isEmpty
  | capacity

/-- What a call returns. -/
inductive Answer (α : Type) where
  | stored (placement : Placement)
  | rejected (rejection : Rejection α)
  | item (item : Option α)
  | items (items : List α)
  | number (number : Nat)
  | flag (flag : Bool)
  deriving DecidableEq, Repr

/-- The answers to requests that are made one after the other, and the state after the last. -/
def answerAll {σ : Type} (answer : σ → Request α → Answer α × σ) :
    List (Request α) → σ → List (Answer α) × σ
  | [], s => ([], s)
  | request :: rest, s =>
    let (given, next) := answer s request
    let (others, last) := answerAll answer rest next
    (given :: others, last)

/-! ## §2 The two sides -/

/-- A list of items with a capacity and a ceiling. -/
structure Plain (α : Type) where
  items : List α
  capacity : Nat
  maxCapacity : Option Nat
  deriving DecidableEq, Repr

namespace Plain

/-- The capacity after a growth: twice as much, clamped to the ceiling. -/
def target (p : Plain α) : Nat :=
  match p.maxCapacity with
  | none => 2 * p.capacity
  | some max => min (2 * p.capacity) max

/-- Why the list cannot grow, if it cannot. -/
def growthFault? (memory : Memory) (p : Plain α) : Option Error :=
  if wordLimit ≤ 2 * p.capacity then some (.capacityOverflow p.capacity)
  else if p.maxCapacity = some p.capacity then some (.capacityExceeded p.capacity p.capacity)
  else (memory.fault? p.target).map (.allocation p.target)

/-- Appends an item. The list grows first if there would not be a free slot left. -/
def push (memory : Memory) (p : Plain α) (item : α) : Answer α × Plain α :=
  if p.items.length + 1 < p.capacity then
    (.stored .inPlace, { p with items := p.items ++ [item] })
  else match p.growthFault? memory with
    | some error => (.rejected ⟨item, error⟩, p)
    | none =>
      (.stored (.grew p.capacity p.target),
        { p with items := p.items ++ [item], capacity := p.target })

/-- What the plain list answers. -/
def answer (p : Plain α) : Request α → Answer α × Plain α
  | .push memory item => p.push memory item
  | .pop => (.item p.items.head?, { p with items := p.items.tail })
  | .peek => (.item p.items.head?, p)
  | .drain => (.items p.items, { p with items := [] })
  | .count => (.number p.items.length, p)
  | .isEmpty => (.flag p.items.isEmpty, p)
  | .capacity => (.number p.capacity, p)

end Plain

/-- What a ring answers. A rejected push leaves the ring that was there. -/
def answer (r : Ring α) : Request α → Answer α × Ring α
  | .push memory item =>
    match r.push memory item with
    | .ok (placement, stored) => (.stored placement, stored)
    | .error rejection => (.rejected rejection, r)
  | .pop => (.item r.pop.1, r.pop.2)
  | .peek => (.item r.peek, r)
  | .drain => (.items r.drain.1, r.drain.2)
  | .count => (.number r.count, r)
  | .isEmpty => (.flag r.isEmpty, r)
  | .capacity => (.number r.capacity, r)

/-- What a caller can learn of a ring. -/
def plain (r : Ring α) : Plain α := ⟨r.toList, r.capacity, r.maxCapacity⟩

/-! ## §3 The simulation -/

/-- The ring holds the items of the list and has its capacity and its ceiling. -/
structure Simulates (r : Ring α) (p : Plain α) : Prop where
  holds : r.Holds p.items
  capacity_eq : r.capacity = p.capacity
  maxCapacity_eq : r.maxCapacity = p.maxCapacity

namespace Simulates

variable {r : Ring α} {p : Plain α}

theorem plain_eq (h : r.Simulates p) : r.plain = p := by
  rw [plain, h.holds.toList_eq, h.capacity_eq, h.maxCapacity_eq]

/-- A growth fails exactly as that of the list, and leads to the capacity of the list. -/
theorem grow (h : r.Simulates p) (memory : Memory) :
    (∃ e, p.growthFault? memory = some e ∧ r.grow memory = .error e) ∨
    (p.growthFault? memory = none ∧
      ∃ larger, r.grow memory = .ok larger ∧ larger.capacity = p.target) := by
  obtain ⟨hheld, hcap, hmax⟩ := h
  rw [grow_eq, grownCapacity, Plain.growthFault?, hcap, hmax]
  by_cases hword : wordLimit ≤ 2 * p.capacity
  · exact .inl ⟨.capacityOverflow p.capacity, by rw [if_pos hword], by rw [if_pos hword]⟩
  rw [if_neg hword, if_neg hword]
  cases hceiling : p.maxCapacity with
  | none =>
    rw [if_neg (by simp)]
    have htarget : p.target = 2 * p.capacity := by rw [Plain.target, hceiling]
    rw [htarget]
    cases hfault : memory.fault? (2 * p.capacity) with
    | some fault => exact .inl ⟨.allocation _ fault, rfl, by simp [hfault]⟩
    | none => exact .inr ⟨rfl, _, by simp only [hfault], capacity_moveInto r _⟩
  | some max =>
    have hle : p.capacity ≤ max := by
      rw [← hcap]
      exact hheld.capacity_le max (by rw [hmax, hceiling])
    by_cases hfull : max = p.capacity
    · subst hfull
      exact .inl ⟨.capacityExceeded p.capacity p.capacity, by simp, by simp⟩
    · rw [if_neg (by simpa using hfull)]
      have htarget : p.target = min (2 * p.capacity) max := by rw [Plain.target, hceiling]
      have hroom : ¬ max ≤ p.capacity := by omega
      rw [htarget]
      cases hfault : memory.fault? (min (2 * p.capacity) max) with
      | some fault => exact .inl ⟨.allocation _ fault, rfl, by simp [hroom, hfault]⟩
      | none => exact .inr ⟨rfl, _, by simp [hroom, hfault], capacity_moveInto r _⟩

/-- A push of the ring is a push of the list. -/
theorem push (h : r.Simulates p) (memory : Memory) (item : α) :
    (r.answer (.push memory item)).1 = (p.push memory item).1 ∧
      (r.answer (.push memory item)).2.Simulates (p.push memory item).2 := by
  obtain ⟨hheld, hcap, hmax⟩ := h
  rcases hheld.push_cases memory item with ⟨hroom, hpush⟩ | ⟨hfull, hpush⟩
  · rw [answer, hpush, Plain.push, if_pos (by omega)]
    exact ⟨rfl, hheld.store item hroom, (capacity_store r item).trans hcap, hmax⟩
  · rw [answer, Plain.push, if_neg (by omega)]
    rcases grow ⟨hheld, hcap, hmax⟩ memory with
      ⟨e, hfault, herror⟩ | ⟨hfault, larger, hgrow, htarget⟩
    · rcases hpush with ⟨larger, hgrow, -⟩ | ⟨e', herror', hpush⟩
      · rw [hgrow] at herror
        cases herror
      · rw [herror] at herror'
        cases herror'
        rw [hpush, hfault]
        exact ⟨rfl, hheld, hcap, hmax⟩
    · rcases hpush with ⟨larger', hgrow', hpush⟩ | ⟨e, herror, -⟩
      · rw [hgrow] at hgrow'
        cases hgrow'
        obtain ⟨hlarger, hgrown, hceiling⟩ := hheld.grow hgrow
        have hlt := (hheld.lt_grownCapacity hgrown).1
        rw [hpush, hfault, htarget, hcap]
        exact ⟨rfl, hlarger.store item (by omega), (capacity_store larger item).trans htarget,
          hceiling.trans hmax⟩
      · rw [hgrow] at herror
        cases herror

/-- The ring and the list give the same answer, and go on alike. -/
theorem answer (h : r.Simulates p) (request : Request α) :
    (r.answer request).1 = (p.answer request).1 ∧
      (r.answer request).2.Simulates (p.answer request).2 := by
  cases request with
  | push memory item => exact h.push memory item
  | pop =>
    obtain ⟨hitem, hrest⟩ := h.holds.pop
    exact ⟨congrArg Answer.item hitem, hrest, (capacity_pop r).trans h.capacity_eq,
      (maxCapacity_pop r).trans h.maxCapacity_eq⟩
  | peek => exact ⟨congrArg Answer.item h.holds.peek_eq, h⟩
  | drain =>
    obtain ⟨hitems, hrest⟩ := h.holds.drain
    exact ⟨congrArg Answer.items hitems, hrest, (capacity_drain r).trans h.capacity_eq,
      (maxCapacity_drain r).trans h.maxCapacity_eq⟩
  | count => exact ⟨congrArg Answer.number h.holds.count_eq, h⟩
  | isEmpty => exact ⟨congrArg Answer.flag h.holds.isEmpty_eq, h⟩
  | capacity => exact ⟨congrArg Answer.number h.capacity_eq, h⟩

/-- The simulation goes on over any number of requests. -/
theorem answerAll (h : r.Simulates p) (requests : List (Request α)) :
    (answerAll Ring.answer requests r).1 = (answerAll Plain.answer requests p).1 ∧
      (answerAll Ring.answer requests r).2.Simulates (answerAll Plain.answer requests p).2 := by
  induction requests generalizing r p with
  | nil => exact ⟨rfl, h⟩
  | cons request rest ih =>
    obtain ⟨hgiven, hnext⟩ := h.answer request
    obtain ⟨hothers, hlast⟩ := ih hnext
    exact ⟨by simp only [Ring.answerAll, hgiven, hothers], hlast⟩

end Simulates

/-! ## §4 All requests -/

theorem simulates_create {memory : Memory} {initial : Nat} {max? : Option Nat} {r : Ring α}
    (h : create memory initial max? = .ok r) : r.Simulates ⟨[], initial, max?⟩ := by
  obtain ⟨hheld, hcap, hmax⟩ := holds_create h
  exact ⟨hheld, hcap, hmax⟩

/-- **A ring is a plain list**: from its making on it gives the answers that the list gives, to any
sequence of requests and whatever growths are refused on the way, and it ends up holding what the
list holds. -/
theorem answerAll_create {memory : Memory} {initial : Nat} {max? : Option Nat} {r : Ring α}
    (h : create memory initial max? = .ok r) (requests : List (Request α)) :
    Prod.map id plain (answerAll Ring.answer requests r) =
      answerAll Plain.answer requests ⟨[], initial, max?⟩ := by
  obtain ⟨hanswers, hlast⟩ := (simulates_create h).answerAll requests
  exact Prod.ext hanswers hlast.plain_eq

/-- A growth that is refused, one that is clamped to the ceiling, items across the end of the row,
and a push at the ceiling. -/
theorem answerAll_create_wrapped :
    create (.ofSlotBytes 16) 2 (some 3) = .ok (⟨#[none, none], 0, 0, some 3⟩ : Ring Nat) ∧
    Prod.map id plain (answerAll Ring.answer
      [.push (.ofSlotBytes 16) 1, .push (.limitedTo (.ofSlotBytes 16) 2) 2,
        .push (.ofSlotBytes 16) 2, .pop, .push (.ofSlotBytes 16) 3, .push (.ofSlotBytes 16) 4,
        .peek, .count, .drain, .isEmpty, .capacity]
      (⟨#[none, none], 0, 0, some 3⟩ : Ring Nat)) =
    ([.stored .inPlace, .rejected ⟨2, .allocation 3 .refused⟩, .stored (.grew 2 3), .item (some 1),
      .stored .inPlace, .rejected ⟨4, .capacityExceeded 3 3⟩, .item (some 2), .number 2,
      .items [2, 3], .flag true, .number 3], ⟨[], 3, some 3⟩) := by
  have hmade : create (.ofSlotBytes 16) 2 (some 3)
      = .ok (⟨#[none, none], 0, 0, some 3⟩ : Ring Nat) := rfl
  exact ⟨hmade, (answerAll_create hmade _).trans rfl⟩

end Handoff.Ring
