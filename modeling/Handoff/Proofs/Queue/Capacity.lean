/-
Handoff.Proofs.Queue.Capacity — the capacity of a queue and its count of growths.

What pushes, removals and drains do to a queue they do to its ring, and beside that a push counts
whether it enlarged the ring. So a run of a queue is a run of requests to its ring
(`ring_performAll`), and its count of growths is the number of answers that say so.

For the ring, `Climbs` settles the rest: in every run the capacity and the number of growths are
fixed by the settings and by the largest count, whatever the order of pushes and removals was and
whichever growths were refused on the way.

  §1 operations        — `Operation`, `perform`, `performAll`
  §2 the ring of a run — `ring_perform`, `ring_performAll`
  §3 the capacity      — `capacity_eq_rung`
-/
import Handoff.Proofs.Ring.HighWater
import Handoff.Queue.Basic

namespace Handoff.Queue

variable {α : Type}

/-! ## §1 Operations -/

/-- One call that changes a queue. -/
inductive Operation (α : Type) where
  /-- Stores an item; a growth asks `memory` for the slots. -/
  | push (memory : Memory) (item : α)
  | pop
  | drain

/-- What the operation asks of the ring. -/
def Operation.request : Operation α → Ring.Request α
  | .push memory item => .push memory item
  | .pop => .pop
  | .drain => .drain

/-- The queue after an operation. A rejected push leaves the queue that was there. -/
def perform (q : Queue α) : Operation α → Queue α
  | .push memory item =>
    match q.push memory item with
    | .ok (_, stored) => stored
    | .error _ => q
  | .pop => q.pop.2.2
  | .drain => q.drain.2.2

/-- The queue after operations that are made one after the other. -/
def performAll (q : Queue α) (operations : List (Operation α)) : Queue α :=
  operations.foldl perform q

/-! ## §2 The ring of a run -/

/-- An operation does to the ring what it asks of it, and a push counts a growth. -/
theorem ring_perform (q : Queue α) (operation : Operation α) :
    (q.perform operation).ring = (q.ring.answer operation.request).2 ∧
      (q.perform operation).grows =
        q.grows + UInt64.ofNat (Ring.growths [(q.ring.answer operation.request).1]) := by
  cases operation with
  | push memory item =>
    simp only [perform, push, Operation.request, Ring.answer]
    cases hpush : q.ring.push memory item with
    | error rejection => exact ⟨rfl, (UInt64.add_zero _).symm⟩
    | ok stored =>
      obtain ⟨placement, ring⟩ := stored
      cases placement <;> exact ⟨rfl, rfl⟩
  | pop =>
    simp only [perform, pop, Operation.request, Ring.answer]
    obtain ⟨item | item, ring⟩ := q.ring.pop <;> exact ⟨rfl, (UInt64.add_zero _).symm⟩
  | drain =>
    simp only [perform, drain, Operation.request, Ring.answer]
    obtain ⟨items | items, ring⟩ := q.ring.drain <;> exact ⟨rfl, (UInt64.add_zero _).symm⟩

/-- A run of a queue is a run of its ring, with the growths counted in words. -/
theorem ring_performAll (q : Queue α) (operations : List (Operation α)) :
    let run := Ring.answerAll Ring.answer (operations.map Operation.request) q.ring
    (q.performAll operations).ring = run.2 ∧
      (q.performAll operations).grows = q.grows + UInt64.ofNat (Ring.growths run.1) := by
  induction operations generalizing q with
  | nil => exact ⟨rfl, (UInt64.add_zero _).symm⟩
  | cons operation rest ih =>
    obtain ⟨hring, hgrows⟩ := q.ring_perform operation
    obtain ⟨hlast, hall⟩ := ih (q.perform operation)
    rw [hring] at hlast hall
    refine ⟨hlast, hall.trans ?_⟩
    rw [hgrows, UInt64.add_assoc, ← UInt64.ofNat_add, Ring.growths, Ring.growths,
      ← List.countP_append]
    rfl

end Handoff.Queue

namespace Handoff.Ring

variable {α : Type}

/-! ## §3 The capacity -/

/-- **The capacity depends on the high-water mark alone.** After any requests to a ring that was
made, pushes among them that were rejected and growths that were refused, the number of growths is
the least `k` for which the rung `k` lies above the largest count so far, and the capacity is that
rung: the initial capacity doubled once for each growth, but not past the ceiling. The capacity never
shrinks; a push that leaves a slot free does not change it; and another run with the same largest
count ends with the same capacity after as many growths. A queue shows these figures as its own. -/
theorem capacity_eq_rung {memory : Memory} {initial : Nat} {max? : Option Nat} {made : Ring α}
    (h : create memory initial max? = .ok made) (requests : List (Request α)) :
    let run := answerAll answer requests made
    let peak := highWater answer count requests made
    IsLeast {k | peak < rung initial max? k} (growths run.1) ∧
    run.2.capacity = rung initial max? (growths run.1) ∧
    run.2.capacity = clamp max? (initial * 2 ^ growths run.1) ∧
    (∀ more, run.2.capacity ≤ (answerAll answer more run.2).2.capacity) ∧
    (∀ memory' item, run.2.count + 1 < run.2.capacity →
      ∃ stored, run.2.push memory' item = .ok (.inPlace, stored) ∧
        stored.capacity = run.2.capacity) ∧
    (∀ memory' (made' : Ring α) others, create memory' initial max? = .ok made' →
      highWater answer count others made' = peak →
      (answerAll answer others made').2.capacity = run.2.capacity ∧
        growths (answerAll answer others made').1 = growths run.1) ∧
    ∀ (q : Queue α) operations, q.ring = made → q.grows = 0 →
      operations.map Queue.Operation.request = requests →
      (q.performAll operations).stats.capacity = run.2.capacity ∧
        (q.performAll operations).stats.grows.toNat = growths run.1 := by
  intro run peak
  obtain ⟨p, hsimulates, hclimbs⟩ := climbs_answerAll h requests
  have hheld : run.2.Holds p.items := hsimulates.holds
  have hcapacity : run.2.capacity = rung initial max? (growths run.1) :=
    hsimulates.capacity_eq.trans hclimbs.capacity_eq
  have hinitial := (climbs_create h).capacity_le
  refine ⟨hclimbs.isLeast, hcapacity, hcapacity.trans (rung_eq hinitial _), ?_, ?_, ?_, ?_⟩
  · intro more
    rw [hsimulates.capacity_eq, (hsimulates.answerAll more).2.capacity_eq]
    exact hclimbs.capacity_mono more
  · intro memory' item hroom
    rw [hheld.count_eq] at hroom
    rcases hheld.push_cases memory' item with ⟨-, hpush⟩ | ⟨hlast, -⟩
    · exact ⟨_, hpush, capacity_store run.2 item⟩
    · omega
  · -- Two least elements of one set of rungs are the same.
    intro memory' made' others h' hpeak
    obtain ⟨p', hsimulates', hclimbs'⟩ := climbs_answerAll h' others
    rw [hpeak] at hclimbs'
    have hgrowths : growths (answerAll answer others made').1 = growths run.1 :=
      hclimbs'.isLeast.unique hclimbs.isLeast
    refine ⟨?_, hgrowths⟩
    rw [hsimulates'.capacity_eq, hclimbs'.capacity_eq, hgrowths, hcapacity]
  · rintro q operations rfl hzero rfl
    obtain ⟨hring, hgrows⟩ := q.ring_performAll operations
    have hword : growths run.1 < 2 ^ 64 := by
      rcases hclimbs.grown_lt with hnone | ⟨hlt, hword⟩
      · rw [show growths run.1 = 0 from hnone]
        decide
      · exact Nat.lt_trans hlt hword
    refine ⟨congrArg Ring.capacity hring, ?_⟩
    show (q.performAll operations).grows.toNat = _
    rw [hgrows, hzero, UInt64.zero_add]
    exact UInt64.toNat_ofNat_of_lt' hword

/-- A row of three slots is wrapped when it first has to grow; one growth is refused, the next one
succeeds, and a third would double the six slots but is clamped to the ceiling of ten. Popping all
items and storing them again changes nothing, until a push finds the ring at its ceiling. -/
theorem capacity_eq_rung_wrapped :
    let memory := Memory.ofSlotBytes 16
    let push := Queue.Operation.push (α := Nat) memory
    let operations : List (Queue.Operation Nat) :=
      [push 1, .pop, push 2, push 3, .push (memory.limitedTo 5) 4, push 4, push 5, push 6, push 7,
        .drain, push 8, push 9, .pop, push 10, push 11, push 12, push 13, push 14, push 15, push 16,
        push 17, push 18]
    let start : Ring Nat := ⟨#[none, none, none], 0, 0, some 10⟩
    let requests := operations.map Queue.Operation.request
    create memory 3 (some 10) = .ok start ∧
      highWater answer count requests start = 9 ∧
      IsLeast {k | 9 < rung 3 (some 10) k} 2 ∧
      (answerAll answer requests start).2.capacity = min 10 (3 * 2 ^ 2) ∧
      ((Queue.ofRing "work" start).performAll operations).stats.grows.toNat = 2 := by
  intro memory push operations start requests
  have hmade : create memory 3 (some 10) = .ok start := rfl
  obtain ⟨hleast, -, hpower, -, -, -, hqueue⟩ := capacity_eq_rung hmade requests
  have hpeak : highWater answer count requests start = 9 := by decide +kernel
  have hgrowths : growths (answerAll answer requests start).1 = 2 := by decide +kernel
  have hfigures := hqueue (.ofRing "work" start) operations rfl rfl rfl
  rw [hgrowths] at hleast hpower hfigures
  rw [hpeak] at hleast
  exact ⟨hmade, hpeak, hleast, hpower, hfigures.2⟩

end Handoff.Ring
