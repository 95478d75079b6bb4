/-
Handoff.Proofs.Ring.InPlace — a push that overwrites the ring.

`Ring.push` returns a new ring, so a push that fails has nothing to undo. A ring that is shared is
overwritten instead, and then the order of the steps matters: a growth moves the items out of their
slots one after the other, and an error after the first of them would leave a torn ring behind.
`pushInPlace` is the push in this form, in a monad that keeps what was written before an error.

`pushInPlace_eq` says that both forms agree. The ring that it leaves after an error is the ring that
was there, slot by slot: whatever can fail comes before the first write. And a slot is read before
it is vacated, because different offsets are different places of the row.

  §1 overwriting a state   — `InPlace`, `InPlace.runOn`
  §2 moving items out      — `takeSlot`, `moveOut`
  §3 growing and pushing   — `growInPlace_eq`, `pushInPlace_eq`
-/
import Handoff.Proofs.Ring.Representation

namespace Handoff

/-! ## §1 Overwriting a state -/

/-- A computation that overwrites a state. What it wrote before an error stays written. -/
abbrev InPlace (σ ε : Type) : Type → Type := ExceptT ε (StateM σ)

namespace InPlace

variable {σ ε δ β γ : Type}

/-- How the computation ends, and the state that it leaves. -/
def runOn (m : InPlace σ ε β) (s : σ) : Except ε β × σ := StateT.run (ExceptT.run m) s

@[simp] theorem runOn_bind (m : InPlace σ ε β) (f : β → InPlace σ ε γ) (s : σ) :
    runOn (m >>= f) s = match m.runOn s with
      | (.ok b, t) => (f b).runOn t
      | (.error e, t) => (.error e, t) := by
  show (StateT.run (ExceptT.run (m >>= f)) s : Id _) = _
  rw [ExceptT.run_bind, StateT.run_bind]
  unfold runOn
  show (match StateT.run (ExceptT.run m) s with | (r, t) => _ : Id _) = _
  rcases (StateT.run (ExceptT.run m) s : Id _) with ⟨e | b, t⟩
  · rfl
  · rfl

@[simp] theorem runOn_pure (b : β) (s : σ) : runOn (pure b : InPlace σ ε β) s = (.ok b, s) := rfl

@[simp] theorem runOn_get (s : σ) : runOn (get : InPlace σ ε σ) s = (.ok s, s) := rfl

@[simp] theorem runOn_modify (f : σ → σ) (s : σ) :
    runOn (modify f : InPlace σ ε Unit) s = (.ok (), f s) := rfl

@[simp] theorem runOn_ofExcept (e : Except ε β) (s : σ) :
    runOn (MonadExcept.ofExcept e : InPlace σ ε β) s = (e, s) := by
  cases e <;> rfl

/-- Another error in the place of each error. -/
@[simp] theorem runOn_adapt (f : ε → δ) (m : InPlace σ ε β) (s : σ) :
    runOn (ExceptT.adapt f m : InPlace σ δ β) s = ((m.runOn s).1.mapError f, (m.runOn s).2) := rfl

end InPlace

namespace Ring

variable {α : Type}

/-! ## §2 Moving items out -/

/-- Takes what a slot holds and leaves the slot vacant. -/
def takeSlot (slot : Nat) : InPlace (Ring α) Error (Option α) :=
  modifyGet fun r => ((r.slots[slot]?).join, { r with slots := r.slots.setIfInBounds slot none })

/-- Moves what is at these offsets to the slots of another row that have their numbers. -/
def moveOut : List Nat → Array (Option α) → InPlace (Ring α) Error (Array (Option α))
  | [], row => return row
  | offset :: rest, row => do
    let r ← get
    let item ← takeSlot (r.place offset)
    moveOut rest (row.setIfInBounds offset item)

/-- The slot that is vacated at one offset is not the slot of another offset. -/
theorem slotAt_vacated {r : Ring α} {i j : Nat} (hr : r.readIndex < r.capacity)
    (hi : i < r.capacity) (hj : j < r.capacity) (h : i ≠ j) :
    slotAt { r with slots := r.slots.setIfInBounds (r.place i) none } j = r.slotAt j := by
  have hcap : capacity { r with slots := r.slots.setIfInBounds (r.place i) none } = r.capacity := by
    simp [capacity]
  unfold slotAt
  rw [hcap]
  show ((r.slots.setIfInBounds (r.place i) none)[r.place j]?).join = (r.slots[r.place j]?).join
  rw [Array.getElem?_setIfInBounds_ne (place_ne hr hi hj h)]

/-- The other row gets what the ring held at the offsets before the first slot was vacated. -/
theorem moveOut_eq {offsets : List Nat} (hnodup : offsets.Nodup) {r : Ring α}
    (hr : r.readIndex < r.capacity) (hlt : ∀ i ∈ offsets, i < r.capacity)
    (row : Array (Option α)) :
    ∃ slots, (moveOut offsets row).runOn r =
      (.ok (offsets.foldl (fun row offset => row.setIfInBounds offset (r.slotAt offset)) row),
        { r with slots }) := by
  induction offsets generalizing r row with
  | nil => exact ⟨r.slots, rfl⟩
  | cons offset rest ih =>
    rw [List.nodup_cons] at hnodup
    have hoffset := hlt offset List.mem_cons_self
    have hrest : ∀ i ∈ rest, i < r.capacity := fun i hi => hlt i (List.mem_cons_of_mem _ hi)
    let vacated : Ring α := { r with slots := r.slots.setIfInBounds (r.place offset) none }
    have hcap : vacated.capacity = r.capacity := by simp [vacated, capacity]
    have hsame : ∀ i ∈ rest, vacated.slotAt i = r.slotAt i := by
      intro i hi
      exact slotAt_vacated hr hoffset (hrest i hi) fun heq => hnodup.1 (heq ▸ hi)
    obtain ⟨slots, hmoved⟩ := ih hnodup.2 (r := vacated) (by rw [hcap]; exact hr)
      (by rw [hcap]; exact hrest) (row.setIfInBounds offset (r.slotAt offset))
    refine ⟨slots, ?_⟩
    show (moveOut rest (row.setIfInBounds offset (r.slotAt offset))).runOn vacated = _
    rw [hmoved, List.foldl_cons]
    congr 2
    exact List.foldl_ext _ _ _ fun row i hi => by rw [hsame i hi]

/-! ## §3 Growing and pushing -/

/-- Gives the ring a longer row and moves the items to the front of it. The capacities before and
after are returned. -/
def growInPlace (memory : Memory) : InPlace (Ring α) Error (Nat × Nat) := do
  let r ← get
  let target ← MonadExcept.ofExcept r.grownCapacity
  let vacant ← MonadExcept.ofExcept (vacantSlots memory target)
  let row ← moveOut (List.range r.count) vacant
  modify fun s => { s with slots := row, readIndex := 0, writeIndex := r.count }
  return (r.capacity, target)

/-- Stores an item as the newest, in a longer row if it would take the last free slot. -/
def pushInPlace (memory : Memory) (item : α) : InPlace (Ring α) (Rejection α) Placement := do
  let r ← get
  let placement ←
    if r.isFull then do
      let (old, new) ← ExceptT.adapt (Rejection.mk item) (growInPlace memory)
      pure (.grew old new)
    else pure .inPlace
  modify (·.store item)
  return placement

variable {r : Ring α} {items : List α}

/-- Growing in place leaves the larger ring, or the ring that was there. -/
theorem growInPlace_eq (memory : Memory) (h : r.Holds items) :
    (growInPlace memory).runOn r = match r.grow memory with
      | .ok larger => (.ok (r.capacity, larger.capacity), larger)
      | .error e => (.error e, r) := by
  have hlt : ∀ i ∈ List.range r.count, i < r.capacity := by
    intro i hi
    rw [List.mem_range, h.count_eq] at hi
    exact Nat.lt_trans hi h.length_lt
  unfold growInPlace grow
  cases htarget : r.grownCapacity with
  | error e => simp only [InPlace.runOn_bind, InPlace.runOn_get, InPlace.runOn_ofExcept, htarget]
  | ok target =>
    cases hvacant : vacantSlots (α := α) memory target with
    | error e =>
      simp only [InPlace.runOn_bind, InPlace.runOn_get, InPlace.runOn_ofExcept, htarget, hvacant]
    | ok vacant =>
      have hgrown : r.grow memory = .ok (r.moveInto vacant) := by
        simp only [grow, htarget, hvacant]
      have hcap : target = (r.moveInto vacant).capacity := by
        have hgrew := (h.grow hgrown).2.1
        rwa [htarget, Except.ok.injEq] at hgrew
      obtain ⟨slots, hmoved⟩ := moveOut_eq List.nodup_range h.read_lt hlt vacant
      simp only [InPlace.runOn_bind, InPlace.runOn_get, InPlace.runOn_ofExcept,
        InPlace.runOn_modify, InPlace.runOn_pure, htarget, hvacant, hmoved, ← hcap]
      rfl

/-- A push in place leaves the ring that the push returns, or the ring that was there. -/
theorem pushInPlace_eq (memory : Memory) (h : r.Holds items) (item : α) :
    (pushInPlace memory item).runOn r = match r.push memory item with
      | .ok (placement, stored) => (.ok placement, stored)
      | .error rejection => (.error rejection, r) := by
  have hgrow := growInPlace_eq memory h
  unfold pushInPlace push
  cases hfull : r.isFull with
  | false =>
    simp only [InPlace.runOn_bind, InPlace.runOn_get, InPlace.runOn_modify, InPlace.runOn_pure,
      hfull, Bool.false_eq_true, if_false]
  | true =>
    cases hlarger : r.grow memory with
    | error e =>
      rw [hlarger] at hgrow
      simp only [InPlace.runOn_bind, InPlace.runOn_get, InPlace.runOn_adapt, hfull, if_true, hgrow,
        Except.mapError]
    | ok larger =>
      rw [hlarger] at hgrow
      simp only [InPlace.runOn_bind, InPlace.runOn_get, InPlace.runOn_adapt, InPlace.runOn_modify,
        InPlace.runOn_pure, hfull, if_true, hgrow, Except.mapError]

end Ring

end Handoff
