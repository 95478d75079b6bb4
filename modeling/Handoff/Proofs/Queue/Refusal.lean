/-
Handoff.Proofs.Queue.Refusal — a push that fails leaves no trace.

A queue is overwritten by its pushes: the ring first, then the counters, then the signal `ready`
(`Queue.pushInPlace`). A ring that refuses an item is left as it was, and then nothing of the rest
is written. With `Ring.push_eq_error_iff`, which says when a ring refuses an item, this is all that
the owner of a rejected item can want to know: why it was rejected, and that it and the queue are
what they were.

  §1 pushing in place   — `Queue.pushInPlace_eq`
  §2 rejected pushes    — `push_rejected_iff`
-/
import Handoff.Proofs.Ring.InPlace
import Handoff.Proofs.Ring.Refusal
import Handoff.Queue.Basic

namespace Handoff.Queue

variable {α : Type}

/-! ## §1 Pushing in place -/

/-- What is done to the ring of a queue. -/
def onRing {ε β : Type} (m : InPlace (Ring α) ε β) : InPlace (Queue α) ε β :=
  ExceptT.mk fun q => ((m.runOn q.ring).1, { q with ring := (m.runOn q.ring).2 })

@[simp] theorem runOn_onRing {ε β : Type} (m : InPlace (Ring α) ε β) (q : Queue α) :
    (onRing m).runOn q = ((m.runOn q.ring).1, { q with ring := (m.runOn q.ring).2 }) := rfl

/-- Stores an item as the newest, counts it, and notifies `ready`; the consumer woken is
returned. -/
def pushInPlace (memory : Memory) (item : α) :
    InPlace (Queue α) (Rejection α) (Option TaskId) := do
  let placement ← onRing (Ring.pushInPlace memory item)
  modify fun q => { q with grows := q.grows + growthOf placement }
  modify fun q => { q with pushed := q.pushed + 1 }
  let (woken, ready) := (← get).ready.notifyOne
  modify fun q => { q with ready }
  return woken

/-- A push in place leaves the queue that the push returns, or the queue that was there. -/
theorem pushInPlace_eq (memory : Memory) {q : Queue α} {items : List α} (h : q.ring.Holds items)
    (item : α) :
    (pushInPlace memory item).runOn q = match q.push memory item with
      | .ok (woken, stored) => (.ok woken, stored)
      | .error rejection => (.error rejection, q) := by
  have hring := Ring.pushInPlace_eq memory h item
  unfold pushInPlace push
  cases hpush : q.ring.push memory item with
  | error rejection =>
    rw [hpush] at hring
    simp only [InPlace.runOn_bind, runOn_onRing, hring]
  | ok stored =>
    rw [hpush] at hring
    simp only [InPlace.runOn_bind, runOn_onRing, InPlace.runOn_modify, InPlace.runOn_get,
      InPlace.runOn_pure, hring]

/-! ## §2 Rejected pushes -/

/-- A queue rejects what its ring rejects. -/
theorem push_eq_error_iff {q : Queue α} (memory : Memory) (item : α) (rejection : Rejection α) :
    q.push memory item = .error rejection ↔ q.ring.push memory item = .error rejection := by
  unfold push
  cases hpush : q.ring.push memory item with
  | error other => simp only [Except.error.injEq]
  | ok stored => exact iff_of_false (fun h => by cases h) (fun h => by cases h)

/-- **Pushes fail exactly when they must, and leave no trace**: a ring that can be reached rejects
an item at its ceiling, or where it has to grow and the memory refuses, and never else; the item is
handed back, and the ring, or the queue around it with its counters and its waiting tasks, is left
as it was. -/
theorem push_rejected_iff {r : Ring α} (reached : r.Reached) (memory : Memory) (item : α) :
    (∀ rejection, r.push memory item = .error rejection ↔
      rejection.item = item ∧ r.Refuses memory rejection.error) ∧
    ((∃ stored, r.push memory item = .ok stored) ↔ ∀ error, ¬ r.Refuses memory error) ∧
    (Ring.pushInPlace memory item).runOn r = (match r.push memory item with
      | .ok (placement, stored) => (.ok placement, stored)
      | .error rejection => (.error rejection, r)) ∧
    ∀ q : Queue α, q.ring = r →
      (∀ rejection, q.push memory item = .error rejection ↔
        r.push memory item = .error rejection) ∧
      (Queue.pushInPlace memory item).runOn q = (match q.push memory item with
        | .ok (woken, stored) => (.ok woken, stored)
        | .error rejection => (.error rejection, q)) := by
  have hsound := reached.sound
  have hiff := Ring.push_eq_error_iff hsound memory item
  refine ⟨hiff, ?_, Ring.pushInPlace_eq memory hsound.holds item, ?_⟩
  · constructor
    · rintro ⟨stored, hstored⟩ error hrefuses
      have herror := (hiff ⟨item, error⟩).mpr ⟨rfl, hrefuses⟩
      rw [hstored] at herror
      cases herror
    · intro hnone
      cases hpush : r.push memory item with
      | ok stored => exact ⟨stored, rfl⟩
      | error rejection => exact absurd ((hiff rejection).mp hpush).2 (hnone _)
  · rintro q rfl
    exact ⟨push_eq_error_iff memory item, Queue.pushInPlace_eq memory hsound.holds item⟩

/-- The items lie across the end of the row when the memory refuses to let the ring grow, and the
queue around it is left with its permit and its waiting producer. -/
theorem push_rejected_iff_wrapped :
    let memory := Memory.ofSlotBytes 16
    let r : Ring Nat := ⟨#[none, some 2, some 3], 1, 0, some 5⟩
    let q : Queue Nat := ⟨"work", r, ⟨[], true⟩, [7], 3, 1, 0⟩
    r.Reached ∧ r.Refuses (memory.limitedTo 4) (.allocation 5 .refused) ∧
      (Queue.pushInPlace (memory.limitedTo 4) 4).runOn q =
        (.error ⟨4, .allocation 5 .refused⟩, q) := by
  intro memory r q
  have hmade : Ring.create memory 3 (some 5) =
      .ok (⟨#[none, none, none], 0, 0, some 5⟩ : Ring Nat) := rfl
  have hsized : 0 < memory.slotBytes := by decide
  have hreached := ((((Ring.Reached.create hsized hmade).answer (.push memory 1) hsized).answer
    (.push memory 2) hsized).answer .pop trivial).answer (.push memory 3) hsized
  rw [show (Ring.answer _ (.push memory 3)).2 = r by decide +kernel] at hreached
  obtain ⟨hiff, -, -, hqueue⟩ := push_rejected_iff hreached (memory.limitedTo 4) 4
  exact ⟨hreached, ((hiff ⟨4, .allocation 5 .refused⟩).mp rfl).2, (hqueue q rfl).2⟩

end Handoff.Queue
