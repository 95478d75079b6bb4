/-
Handoff.Proofs.Ring.Representation — which items a ring holds, and what its operations do to them.

`r.Holds items` says that `r` holds `items`, oldest first. The places of the row are counted from
the read cursor on: the place `j` holds the item `j`, and every place past the last item is vacant.
The write cursor stands at the first vacant place, one place always stays free, and the row is not
longer than the ceiling. One statement about all places covers the live items and the vacant slots
alike, so nothing more has to be kept by an operation.

After this module no proof looks at slots and cursors: each operation has its lemma on the items.

  §1 places          — `place`, and what two places have to do with each other
  §2 the relation    — `Holds`, and what can be read off it
  §3 storing, taking — `Holds.store`, `Holds.pop`, `Holds.popUpTo`, `Holds.drain`
  §4 growing         — `Holds.moveInto`, `Holds.grow`
  §5 making, pushing — `holds_create`, `Holds.push`
-/
import Mathlib.Data.List.Basic
import Handoff.Ring.Basic

namespace Handoff.Ring

variable {α : Type}

/-! ## §1 Places -/

/-- The slot that is `offset` places after the read cursor. -/
def place (r : Ring α) (offset : Nat) : Nat := (r.readIndex + offset) % r.capacity

/-- Going on from a slot of the row leads past the end of the row at most once. -/
theorem add_mod_of_lt {a b c : Nat} (ha : a < c) (hb : b ≤ c) :
    (a + b) % c = if a + b < c then a + b else a + b - c := by
  split
  · next h => exact Nat.mod_eq_of_lt h
  · next h =>
    rw [Nat.mod_eq_sub_mod (by omega)]
    exact Nat.mod_eq_of_lt (by omega)

theorem slotAt_def (r : Ring α) (offset : Nat) :
    r.slotAt offset = (r.slots[r.place offset]?).join := rfl

theorem place_lt (r : Ring α) (offset : Nat) (h : 0 < r.capacity) :
    r.place offset < r.slots.size :=
  Nat.mod_lt _ h

theorem place_zero {r : Ring α} (h : r.readIndex < r.capacity) : r.place 0 = r.readIndex := by
  rw [place, Nat.add_zero, Nat.mod_eq_of_lt h]

/-- Going all the way round leads back. -/
theorem place_capacity {r : Ring α} (h : r.readIndex < r.capacity) :
    r.place r.capacity = r.readIndex := by
  rw [place, Nat.add_mod_right, Nat.mod_eq_of_lt h]

/-- Different offsets within one round are different places. -/
theorem place_ne {r : Ring α} {i j : Nat} (hr : r.readIndex < r.capacity)
    (hi : i < r.capacity) (hj : j < r.capacity) (h : i ≠ j) : r.place i ≠ r.place j := by
  unfold place
  rw [add_mod_of_lt hr (by omega), add_mod_of_lt hr (by omega)]
  split <;> split <;> omega

/-! ## §2 The relation -/

/-- The ring holds `items`, oldest first, and nothing else. -/
structure Holds (r : Ring α) (items : List α) : Prop where
  read_lt : r.readIndex < r.capacity
  write_eq : r.writeIndex = r.place items.length
  length_lt : items.length < r.capacity
  /-- A place holds the item of its number, or is vacant if there is none. -/
  slotAt_eq : ∀ offset < r.capacity, r.slotAt offset = items[offset]?
  capacity_le : ∀ max, r.maxCapacity = some max → r.capacity ≤ max

namespace Holds

variable {r : Ring α} {items : List α}

theorem capacity_pos (h : r.Holds items) : 0 < r.capacity := by
  have := h.read_lt
  omega

theorem write_lt (h : r.Holds items) : r.writeIndex < r.capacity := by
  rw [h.write_eq]
  exact place_lt r _ h.capacity_pos

/-- The write cursor, with the way past the end of the row spelled out. -/
theorem write_cases (h : r.Holds items) :
    r.writeIndex = if r.readIndex + items.length < r.capacity then r.readIndex + items.length
      else r.readIndex + items.length - r.capacity := by
  rw [h.write_eq]
  exact add_mod_of_lt h.read_lt (by have := h.length_lt; omega)

theorem count_eq (h : r.Holds items) : r.count = items.length := by
  have hw := h.write_cases
  have hr := h.read_lt
  have hl := h.length_lt
  unfold count
  split at hw
  · rw [hw, Nat.mod_eq_sub_mod (by omega)]
    rw [show r.readIndex + items.length + r.capacity - r.readIndex - r.capacity
      = items.length by omega]
    exact Nat.mod_eq_of_lt hl
  · rw [hw, show r.readIndex + items.length - r.capacity + r.capacity - r.readIndex
      = items.length by omega]
    exact Nat.mod_eq_of_lt hl

theorem isEmpty_eq (h : r.Holds items) : r.isEmpty = items.isEmpty := by
  have hw := h.write_cases
  have hr := h.read_lt
  have hl := h.length_lt
  cases items with
  | nil =>
    simp only [List.length_nil, Nat.add_zero, if_pos hr] at hw
    simp [isEmpty, hw]
  | cons a rest =>
    simp only [List.length_cons] at hw hl
    have hne : r.readIndex ≠ r.writeIndex := by split at hw <;> omega
    simp [isEmpty, hne]

/-- An item would take the last free slot exactly if all slots but one hold an item. -/
theorem isFull_eq (h : r.Holds items) :
    r.isFull = decide (items.length + 1 = r.capacity) := by
  have hw := h.write_cases
  have hr := h.read_lt
  have hl := h.length_lt
  have hn := add_mod_of_lt h.write_lt (b := 1) (by omega)
  rw [Bool.eq_iff_iff, decide_eq_true_iff, isFull, beq_iff_eq, hn]
  split at hw <;> split <;> omega

theorem slotAt_zero (h : r.Holds items) : r.slotAt 0 = items.head? := by
  rw [h.slotAt_eq 0 h.capacity_pos]
  exact List.head?_eq_getElem?.symm

theorem toList_eq (h : r.Holds items) : r.toList = items := by
  have hl := h.length_lt
  have hslots : ∀ offset ∈ List.range items.length, r.slotAt offset = items[offset]? := by
    intro offset hoffset
    exact h.slotAt_eq offset (by have := List.mem_range.mp hoffset; omega)
  unfold toList
  rw [h.count_eq, List.filterMap_congr hslots]
  clear hslots hl h
  induction items with
  | nil => rfl
  | cons a rest ih =>
    rw [List.length_cons, List.range_succ_eq_map, List.filterMap_cons, List.filterMap_map]
    simpa using ih

/-- A ring holds one list only. -/
theorem unique {others : List α} (h : r.Holds items) (h' : r.Holds others) : items = others := by
  rw [← h.toList_eq, h'.toList_eq]

/-- A ring that holds some list holds its live items. -/
theorem of_exists (h : ∃ others, r.Holds others) : r.Holds r.toList := by
  obtain ⟨others, h⟩ := h
  rwa [h.toList_eq]

end Holds

/-! ## §3 Storing and taking items -/

@[simp] theorem capacity_store (r : Ring α) (item : α) : (r.store item).capacity = r.capacity := by
  simp [store, capacity]

@[simp] theorem maxCapacity_store (r : Ring α) (item : α) :
    (r.store item).maxCapacity = r.maxCapacity := rfl

@[simp] theorem capacity_pop (r : Ring α) : r.pop.2.capacity = r.capacity := by
  unfold pop
  split <;> simp [capacity]

@[simp] theorem maxCapacity_pop (r : Ring α) : r.pop.2.maxCapacity = r.maxCapacity := by
  unfold pop
  split <;> rfl

/-- Taking items one after the other keeps what taking one item keeps. -/
theorem popUpTo_keeps {β : Type} (f : Ring α → β) (hf : ∀ r : Ring α, f r.pop.2 = f r)
    (limit : Nat) (r : Ring α) : f (r.popUpTo limit).2 = f r := by
  induction limit generalizing r with
  | zero => rfl
  | succ limit ih =>
    rw [popUpTo, ← hf r]
    match r.pop with
    | (none, rest) => rfl
    | (some _, rest) => exact ih rest

@[simp] theorem capacity_drain (r : Ring α) : r.drain.2.capacity = r.capacity :=
  popUpTo_keeps capacity capacity_pop _ r

@[simp] theorem maxCapacity_drain (r : Ring α) : r.drain.2.maxCapacity = r.maxCapacity :=
  popUpTo_keeps maxCapacity maxCapacity_pop _ r

namespace Holds

variable {r : Ring α} {items : List α}

theorem store (h : r.Holds items) (item : α) (hroom : items.length + 1 < r.capacity) :
    (r.store item).Holds (items ++ [item]) := by
  have hcap := capacity_store r item
  have hplace : ∀ offset, (r.store item).place offset = r.place offset := by
    intro offset
    unfold place
    rw [hcap]
    rfl
  refine ⟨hcap ▸ h.read_lt, ?_, ?_, ?_, hcap ▸ h.capacity_le⟩
  · rw [hplace, List.length_append, List.length_singleton]
    show (r.writeIndex + 1) % r.capacity = r.place (items.length + 1)
    rw [h.write_eq, place, Nat.mod_add_mod, Nat.add_assoc]
    rfl
  · rw [hcap, List.length_append, List.length_singleton]
    exact hroom
  · intro offset hoffset
    rw [hcap] at hoffset
    rw [slotAt_def, hplace]
    show ((r.slots.setIfInBounds r.writeIndex (some item))[r.place offset]?).join = _
    rw [h.write_eq]
    by_cases heq : offset = items.length
    · subst heq
      simp [place_lt r _ h.capacity_pos]
    · have hne := place_ne h.read_lt h.length_lt hoffset (Ne.symm heq)
      rw [Array.getElem?_setIfInBounds_ne hne, ← slotAt_def, h.slotAt_eq offset hoffset]
      by_cases hlt : offset < items.length
      · rw [List.getElem?_append_left hlt]
      · rw [List.getElem?_eq_none (by omega), List.getElem?_eq_none (by simp; omega)]

theorem pop_nil (h : r.Holds []) : r.pop = (none, r) := by
  unfold Ring.pop
  rw [h.isEmpty_eq]
  rfl

/-- Taking an item yields the oldest one, and the ring then holds the others. -/
theorem pop_cons {item : α} {rest : List α} (h : r.Holds (item :: rest)) :
    r.pop.1 = some item ∧ r.pop.2.Holds rest := by
  have hl : rest.length + 1 < r.capacity := by simpa using h.length_lt
  have hpos := h.capacity_pos
  have hpop : r.pop = (r.slotAt 0,
      { r with
        slots := r.slots.setIfInBounds r.readIndex none
        readIndex := (r.readIndex + 1) % r.capacity }) := by
    unfold Ring.pop
    rw [h.isEmpty_eq]
    rfl
  have hcap := capacity_pop r
  -- The place of an offset in the ring that is left is the next place in the ring before.
  have hplace : ∀ offset, r.pop.2.place offset = r.place (offset + 1) := by
    intro offset
    unfold place
    rw [hcap, hpop]
    show ((r.readIndex + 1) % r.capacity + offset) % r.capacity = _
    rw [Nat.mod_add_mod]
    congr 1
    omega
  have hslots : r.pop.2.slots = r.slots.setIfInBounds (r.place 0) none := by
    rw [hpop, place_zero h.read_lt]
  refine ⟨by rw [hpop, h.slotAt_zero]; rfl, ?_, ?_, ?_, ?_, ?_⟩
  · rw [hcap, hpop]
    exact Nat.mod_lt _ hpos
  · rw [hplace, hpop]
    exact h.write_eq
  · omega
  · intro offset hoffset
    rw [hcap] at hoffset
    rw [slotAt_def, hplace, hslots]
    by_cases hwrap : offset + 1 < r.capacity
    · have hne := place_ne h.read_lt hpos hwrap (Nat.succ_ne_zero offset).symm
      rw [Array.getElem?_setIfInBounds_ne hne, ← slotAt_def, h.slotAt_eq _ hwrap]
      rfl
    · -- Going all the way round leads to the slot that was just made vacant.
      rw [show offset + 1 = r.capacity by omega, place_capacity h.read_lt, place_zero h.read_lt,
        List.getElem?_eq_none (by omega)]
      simp [show r.readIndex < r.slots.size from h.read_lt]
  · rw [hcap, hpop]
    exact h.capacity_le

theorem pop (h : r.Holds items) : r.pop.1 = items.head? ∧ r.pop.2.Holds items.tail := by
  cases items with
  | nil =>
    rw [h.pop_nil]
    exact ⟨rfl, h⟩
  | cons item rest => exact h.pop_cons

theorem peek_eq (h : r.Holds items) : r.peek = items.head? := by
  unfold peek
  rw [h.isEmpty_eq, h.slotAt_zero]
  cases items <;> rfl

theorem popUpTo (h : r.Holds items) (limit : Nat) :
    (r.popUpTo limit).1 = items.take limit ∧ (r.popUpTo limit).2.Holds (items.drop limit) := by
  induction limit generalizing r items with
  | zero => exact ⟨rfl, h⟩
  | succ limit ih =>
    cases items with
    | nil =>
      rw [Ring.popUpTo, h.pop_nil]
      exact ⟨rfl, h⟩
    | cons item rest =>
      obtain ⟨hitem, hrest⟩ := h.pop_cons
      obtain ⟨htaken, hleft⟩ := ih hrest
      have hpop : r.pop = (some item, r.pop.2) := by rw [← hitem]
      rw [Ring.popUpTo, hpop]
      exact ⟨by rw [List.take_succ_cons, ← htaken], hleft⟩

/-- Taking all items ends because there is none left and not because of its limit. -/
theorem drain (h : r.Holds items) : r.drain.1 = items ∧ r.drain.2.Holds [] := by
  have hd := h.popUpTo r.count
  rw [h.count_eq, List.take_length, List.drop_length] at hd
  rwa [Ring.drain, h.count_eq]

end Holds

/-- The ring `rest` is what is left of `r` when its oldest items `items` were taken. -/
structure Leaves (r : Ring α) (items : List α) (rest : Ring α) : Prop where
  holds : ∃ others, r.Holds (items ++ others) ∧ rest.Holds others
  capacity_eq : rest.capacity = r.capacity
  maxCapacity_eq : rest.maxCapacity = r.maxCapacity

theorem Holds.leaves_pop {r : Ring α} {item : α} {others : List α} (h : r.Holds (item :: others)) :
    r.Leaves [item] r.pop.2 :=
  ⟨⟨others, h, h.pop_cons.2⟩, capacity_pop r, maxCapacity_pop r⟩

theorem Holds.leaves_drain {r : Ring α} {items : List α} (h : r.Holds items) :
    r.Leaves items r.drain.2 :=
  ⟨⟨[], by rwa [List.append_nil], h.drain.2⟩, capacity_drain r, maxCapacity_drain r⟩

/-! ## §4 Growing -/

/-- Places of a row are filled one after the other without making the row longer. -/
theorem size_fill (f : Nat → Option α) (places : List Nat) (row : Array (Option α)) :
    (places.foldl (fun row offset => row.setIfInBounds offset (f offset)) row).size = row.size := by
  induction places generalizing row with
  | nil => rfl
  | cons place rest ih => rw [List.foldl_cons, ih, Array.size_setIfInBounds]

/-- A vacant row whose first `n` places are filled. -/
theorem getElem?_fill (f : Nat → Option α) (target n j : Nat) (hn : n ≤ target) (hj : j < target) :
    ((List.range n).foldl (fun row offset => row.setIfInBounds offset (f offset))
      (Array.replicate target none))[j]? = some (if j < n then f j else none) := by
  induction n with
  | zero => simp [hj]
  | succ n ih =>
    rw [List.range_succ, List.foldl_append, List.foldl_cons, List.foldl_nil]
    by_cases heq : j = n
    · subst heq
      simp [size_fill, hj]
    · rw [Array.getElem?_setIfInBounds_ne (Ne.symm heq), ih (by omega)]
      rcases Nat.lt_or_gt_of_ne heq with hlt | hgt
      · rw [if_pos hlt, if_pos (by omega)]
      · rw [if_neg (by omega), if_neg (by omega)]

@[simp] theorem capacity_moveInto (r : Ring α) (target : Nat) :
    (r.moveInto (Array.replicate target none)).capacity = target := by
  simp [moveInto, capacity, size_fill]

@[simp] theorem maxCapacity_moveInto (r : Ring α) (slots : Array (Option α)) :
    (r.moveInto slots).maxCapacity = r.maxCapacity := rfl

/-- Moving the items to a row in which they leave a slot free keeps them, in their order. -/
theorem Holds.moveInto {r : Ring α} {items : List α} (h : r.Holds items) {target : Nat}
    (hroom : items.length < target) (hmax : ∀ max, r.maxCapacity = some max → target ≤ max) :
    (r.moveInto (Array.replicate target none)).Holds items := by
  have hl := h.length_lt
  have hcap := capacity_moveInto r target
  -- The read cursor stands at the front, so a place is the slot of its number.
  have hplace : ∀ offset < target,
      (r.moveInto (Array.replicate target none)).place offset = offset := by
    intro offset hoffset
    rw [place, hcap]
    show (0 + offset) % target = offset
    rw [Nat.zero_add, Nat.mod_eq_of_lt hoffset]
  refine ⟨?_, ?_, by omega, ?_, ?_⟩
  · rw [hcap]
    show 0 < target
    omega
  · rw [hplace _ hroom, ← h.count_eq]
    rfl
  · intro offset hoffset
    rw [hcap] at hoffset
    rw [slotAt_def, hplace offset hoffset]
    show (((List.range r.count).foldl _ (Array.replicate target none))[offset]?).join = _
    rw [h.count_eq, getElem?_fill _ _ _ _ (by omega) hoffset]
    by_cases hlt : offset < items.length
    · rw [if_pos hlt, h.slotAt_eq offset (by omega)]
      rfl
    · rw [if_neg hlt, List.getElem?_eq_none (by omega)]
      rfl
  · rw [hcap]
    exact hmax

/-- A ring that may grow becomes longer, and not longer than its ceiling. -/
theorem Holds.lt_grownCapacity {r : Ring α} {items : List α} (h : r.Holds items) {target : Nat}
    (hg : r.grownCapacity = .ok target) :
    r.capacity < target ∧ ∀ max, r.maxCapacity = some max → target ≤ max := by
  have hpos := h.capacity_pos
  unfold grownCapacity at hg
  split at hg
  · cases hg
  · split at hg
    · next hmax =>
      cases hg
      exact ⟨by omega, fun max hsome => by rw [hmax] at hsome; cases hsome⟩
    · next ceiling hmax =>
      split at hg
      · cases hg
      · cases hg
        refine ⟨by omega, fun max hsome => ?_⟩
        rw [hmax] at hsome
        cases hsome
        omega

theorem grow_eq (memory : Memory) (r : Ring α) :
    r.grow memory = match r.grownCapacity with
      | .error e => .error e
      | .ok target =>
        match memory.fault? target with
        | some fault => .error (.allocation target fault)
        | none => .ok (r.moveInto (Array.replicate target none)) := by
  unfold grow vacantSlots
  cases r.grownCapacity with
  | error e => rfl
  | ok target => cases hfault : memory.fault? target <;> simp only [hfault]

/-- A ring that grew holds what it held before. -/
theorem Holds.grow {memory : Memory} {r larger : Ring α} {items : List α} (h : r.Holds items)
    (hg : r.grow memory = .ok larger) :
    larger.Holds items ∧ r.grownCapacity = .ok larger.capacity ∧
      larger.maxCapacity = r.maxCapacity := by
  rw [grow_eq] at hg
  split at hg
  · cases hg
  · next target htarget =>
    obtain ⟨hlt, hmax⟩ := h.lt_grownCapacity htarget
    have hl := h.length_lt
    split at hg
    · cases hg
    · cases hg
      exact ⟨h.moveInto (by omega) hmax, by rw [htarget, capacity_moveInto], rfl⟩

/-! ## §5 Making and pushing -/

theorem holds_withCapacity {memory : Memory} {initial : Nat} {r : Ring α}
    (h : withCapacity memory initial = .ok r) :
    r.Holds [] ∧ r.capacity = initial ∧ r.maxCapacity = none := by
  unfold withCapacity vacantSlots at h
  split at h
  · cases h
  · next hne =>
    cases hfault : memory.fault? initial with
    | some fault => simp [hfault] at h
    | none =>
      simp only [hfault, Except.ok.injEq] at h
      subst h
      have hpos : 0 < initial := Nat.pos_of_ne_zero hne
      refine ⟨⟨by simpa [capacity] using hpos, by simp [place, capacity],
        by simpa [capacity] using hpos, ?_, fun max hmax => by cases hmax⟩, by simp [capacity], rfl⟩
      intro offset _
      rw [slotAt, Array.getElem?_replicate, List.getElem?_nil]
      split <;> rfl

/-- A ring that was just made is empty and has the capacity and the ceiling that were asked for. -/
theorem holds_create {memory : Memory} {initial : Nat} {max? : Option Nat} {r : Ring α}
    (h : create memory initial max? = .ok r) :
    r.Holds [] ∧ r.capacity = initial ∧ r.maxCapacity = max? := by
  cases max? with
  | none => exact holds_withCapacity h
  | some max =>
    simp only [create, bounded] at h
    split at h
    · cases h
    · split at h
      · cases h
      · next hle =>
        cases hmade : withCapacity (α := α) memory initial with
        | error e => simp [hmade] at h
        | ok made =>
          simp only [hmade, Except.ok.injEq] at h
          subst h
          obtain ⟨hheld, hcap, -⟩ := holds_withCapacity hmade
          refine ⟨⟨hheld.read_lt, hheld.write_eq, hheld.length_lt, hheld.slotAt_eq, ?_⟩, hcap, rfl⟩
          intro ceiling hceiling
          cases hceiling
          show made.capacity ≤ max
          omega

/-- What a push can do: it stores the item in place as long as that leaves a slot free; else it
stores it in a larger ring, or fails with the error of growing. -/
theorem Holds.push_cases {r : Ring α} {items : List α} (h : r.Holds items) (memory : Memory)
    (item : α) :
    (items.length + 1 < r.capacity ∧ r.push memory item = .ok (.inPlace, r.store item)) ∨
    (items.length + 1 = r.capacity ∧
      ((∃ larger, r.grow memory = .ok larger ∧
          r.push memory item = .ok (.grew r.capacity larger.capacity, larger.store item)) ∨
        ∃ e, r.grow memory = .error e ∧ r.push memory item = .error ⟨item, e⟩)) := by
  have hl := h.length_lt
  have hfull := h.isFull_eq
  unfold Ring.push
  by_cases heq : items.length + 1 = r.capacity
  · right
    refine ⟨heq, ?_⟩
    rw [hfull, if_pos (decide_eq_true heq)]
    cases r.grow memory with
    | error e => exact .inr ⟨e, rfl, rfl⟩
    | ok larger => exact .inl ⟨larger, rfl, rfl⟩
  · left
    refine ⟨by omega, ?_⟩
    rw [hfull, if_neg (by simpa using heq)]

/-- A ring that refuses an item because it is full stands at its ceiling, with one slot free. -/
theorem Holds.full_of_push {memory : Memory} {r : Ring α} {items : List α} {item : α}
    {rejection : Rejection α} (h : r.Holds items)
    (hp : r.push memory item = .error rejection) (hfull : rejection.isFull = true) :
    ∃ max, r.maxCapacity = some max ∧ r.capacity = max ∧ items.length + 1 = max := by
  rcases h.push_cases memory item with ⟨-, hpush⟩ | ⟨hlast, ⟨larger, -, hpush⟩ | ⟨e, hgrow, hpush⟩⟩
  · rw [hpush] at hp
    cases hp
  · rw [hpush] at hp
    cases hp
  · rw [hpush] at hp
    cases hp
    have he : e.isFull = true := hfull
    rw [grow_eq, grownCapacity] at hgrow
    by_cases hword : wordLimit ≤ 2 * r.capacity
    · rw [if_pos hword] at hgrow
      cases hgrow
      cases he
    rw [if_neg hword] at hgrow
    cases hmax : r.maxCapacity with
    | none =>
      simp only [hmax] at hgrow
      split at hgrow <;> cases hgrow
      cases he
    | some max =>
      have hle := h.capacity_le max hmax
      by_cases hceiling : max ≤ r.capacity
      · exact ⟨max, rfl, by omega, by omega⟩
      · simp only [hmax, if_neg hceiling] at hgrow
        split at hgrow <;> cases hgrow
        cases he

/-- A ring that stands at its ceiling with one slot free accepts nothing. -/
theorem Holds.push_full {memory : Memory} {r : Ring α} {items : List α} {item : α}
    (h : r.Holds items) (hmax : r.maxCapacity = some r.capacity)
    (hlast : items.length + 1 = r.capacity) :
    ∃ rejection, r.push memory item = .error rejection := by
  rcases h.push_cases memory item with ⟨hroom, -⟩ | ⟨-, ⟨larger, hgrow, -⟩ | ⟨e, -, hpush⟩⟩
  · omega
  · have hlt := h.lt_grownCapacity (h.grow hgrow).2.1
    have hle := hlt.2 r.capacity hmax
    omega
  · exact ⟨_, hpush⟩

/-- An accepted item is the newest. -/
theorem Holds.push {memory : Memory} {r stored : Ring α} {items : List α} {item : α}
    {placement : Placement} (h : r.Holds items)
    (hp : r.push memory item = .ok (placement, stored)) :
    stored.Holds (items ++ [item]) ∧ stored.maxCapacity = r.maxCapacity := by
  rcases h.push_cases memory item with
    ⟨hroom, hpush⟩ | ⟨hfull, ⟨larger, hgrow, hpush⟩ | ⟨e, -, hpush⟩⟩
  · rw [hpush] at hp
    cases hp
    exact ⟨h.store item hroom, rfl⟩
  · rw [hpush] at hp
    cases hp
    obtain ⟨hheld, hcap, hmax⟩ := h.grow hgrow
    have hlt := (h.lt_grownCapacity hcap).1
    exact ⟨hheld.store item (by omega), hmax⟩
  · rw [hpush] at hp
    cases hp

end Handoff.Ring
