/-
Handoff.Proofs.Ring.Refusal — when a ring refuses an item, and why.

A ring takes every item, with two exceptions. It is at its ceiling and one slot is free, or it has
to grow and the memory does not hand out the slots (`Refuses`). That twice the capacity might not be
a word is a third way to fail, and it never happens: the slots were handed out once, in one block,
and two such blocks have fewer bytes than a word can count, as long as a slot has a byte at least.
So the check for it, which comes first, never hides that the ring is at its ceiling.

  §1 rings that can be reached   — `Reached`, `Sound`, `Reached.sound`
  §2 refused items               — `Refuses`, `push_eq_error_iff`
  §3 storing and taking          — `AtCeiling`, `Sound.push_ok`, `Sound.push_error`, `Sound.pop_some`
  §4 rings that do not grow      — `Capped`, `Holds.isFull_of_capped`, `Holds.capped_push`
-/
import Handoff.Proofs.Ring.Refinement

namespace Handoff.Ring

variable {α : Type}

/-! ## §1 Rings that can be reached -/

/-- The request asks no memory whose slots have no byte. -/
def Request.Sized : Request α → Prop
  | .push memory _ => 0 < memory.slotBytes
  | _ => True

/-- The ring was made, and then requests were made of it, all with slots of a byte at least. -/
inductive Reached : Ring α → Prop where
  | create {memory : Memory} {initial : Nat} {max? : Option Nat} {r : Ring α}
      (sized : 0 < memory.slotBytes) (made : create memory initial max? = .ok r) : Reached r
  | answer {r : Ring α} (reached : Reached r) (request : Request α) (sized : request.Sized) :
      Reached (r.answer request).2

/-- Twice as many slots as one block of memory can have is still a word. -/
theorem two_mul_lt_wordLimit {memory : Memory} {slots : Nat} (sized : 0 < memory.slotBytes)
    (granted : memory.fault? slots = none) : 2 * slots < wordLimit := by
  have hbytes : slots * memory.slotBytes ≤ maxBlockBytes := by
    unfold Memory.fault? at granted
    split at granted
    · cases granted
    · next h => exact Nat.not_lt.mp h
  have hslots : slots * 1 ≤ slots * memory.slotBytes := Nat.mul_le_mul_left slots sized
  have hword : wordLimit = 2 * maxBlockBytes + 2 := rfl
  omega

/-- A ring that was made has slots that were handed out. -/
theorem fault?_of_create {memory : Memory} {initial : Nat} {max? : Option Nat} {r : Ring α}
    (made : create memory initial max? = .ok r) : memory.fault? initial = none := by
  have hslots : ∀ start : Ring α, withCapacity memory initial = .ok start →
      memory.fault? initial = none := by
    intro start h
    unfold withCapacity vacantSlots at h
    split at h
    · cases h
    · cases hfault : memory.fault? initial with
      | none => rfl
      | some fault => simp [hfault] at h
  cases max? with
  | none => exact hslots r made
  | some max =>
    simp only [create, bounded] at made
    split at made
    · cases made
    · split at made
      · cases made
      · cases hmade : withCapacity (α := α) memory initial with
        | error e => simp [hmade] at made
        | ok start => exact hslots start hmade

/-- A ring that grew has slots that were handed out. -/
theorem fault?_of_grow {memory : Memory} {r larger : Ring α}
    (grown : r.grow memory = .ok larger) : memory.fault? larger.capacity = none := by
  rw [grow_eq] at grown
  split at grown
  · cases grown
  · split at grown
    · cases grown
    · next hfault =>
      cases grown
      rwa [capacity_moveInto]

/-- The ring holds its live items, and twice its capacity is a word. -/
structure Sound (r : Ring α) : Prop where
  holds : r.Holds r.toList
  doubles : 2 * r.capacity < wordLimit

namespace Sound

variable {r stored : Ring α} {memory : Memory} {item : α}

theorem push {placement : Placement} (h : r.Sound) (sized : 0 < memory.slotBytes)
    (accepted : r.push memory item = .ok (placement, stored)) : stored.Sound := by
  refine ⟨.of_exists ⟨_, (h.holds.push accepted).1⟩, ?_⟩
  rcases h.holds.push_cases memory item with
    ⟨-, hpush⟩ | ⟨-, ⟨larger, hgrow, hpush⟩ | ⟨e, -, hpush⟩⟩
  · rw [hpush] at accepted
    cases accepted
    rw [capacity_store]
    exact h.doubles
  · rw [hpush] at accepted
    cases accepted
    rw [capacity_store]
    exact two_mul_lt_wordLimit sized (fault?_of_grow hgrow)
  · rw [hpush] at accepted
    cases accepted

theorem answer (h : r.Sound) {request : Request α} (sized : request.Sized) :
    (r.answer request).2.Sound := by
  cases request with
  | push memory item =>
    cases hpush : r.push memory item with
    | ok stored =>
      simp only [Ring.answer, hpush]
      exact h.push sized hpush
    | error rejection =>
      simp only [Ring.answer, hpush]
      exact h
  | pop => exact ⟨.of_exists ⟨_, h.holds.pop.2⟩, (capacity_pop r).symm ▸ h.doubles⟩
  | drain => exact ⟨.of_exists ⟨_, h.holds.drain.2⟩, (capacity_drain r).symm ▸ h.doubles⟩
  | peek => exact h
  | count => exact h
  | isEmpty => exact h
  | capacity => exact h

end Sound

theorem Reached.sound {r : Ring α} (h : r.Reached) : r.Sound := by
  induction h with
  | create sized made =>
    obtain ⟨hholds, hcap, -⟩ := holds_create made
    exact ⟨.of_exists ⟨_, hholds⟩, hcap ▸ two_mul_lt_wordLimit sized (fault?_of_create made)⟩
  | answer _ _ sized ih => exact ih.answer sized

/-! ## §2 Refused items -/

/-- Why the ring cannot take an item, with slots from this memory. -/
inductive Refuses (r : Ring α) (memory : Memory) : Error → Prop where
  /-- It holds as many items as its ceiling admits. -/
  | full {max : Nat} (ceiling : r.maxCapacity = some max) (last : r.count + 1 = max) :
      Refuses r memory (.capacityExceeded max max)
  /-- It is below its ceiling, all slots but one hold an item, and the slots to grow to are not
  handed out. -/
  | unallocated {fault : AllocationFault}
      (room : ∀ max, r.maxCapacity = some max → r.count + 1 ≠ max)
      (last : r.count + 1 = r.capacity) (refused : memory.fault? r.plain.target = some fault) :
      Refuses r memory (.allocation r.plain.target fault)

variable {r : Ring α}

/-- The two reasons are those of the plain list, where doubling always succeeds. -/
theorem refuses_iff (h : r.Sound) (memory : Memory) (error : Error) :
    r.Refuses memory error ↔
      r.count + 1 = r.capacity ∧ r.plain.growthFault? memory = some error := by
  have hcount := h.holds.count_eq
  have hlength := h.holds.length_lt
  have hle := h.holds.capacity_le
  have hword : ¬ wordLimit ≤ 2 * r.plain.capacity := Nat.not_le.mpr h.doubles
  rw [Plain.growthFault?, if_neg hword]
  constructor
  · rintro (⟨ceiling, last⟩ | ⟨room, last, refused⟩)
    · have hcap := hle _ ceiling
      have hlast : r.count + 1 = r.capacity := by omega
      have hceiling : r.plain.maxCapacity = some r.plain.capacity := by
        show r.maxCapacity = some r.capacity
        rw [ceiling, ← hlast, last]
      rw [if_pos hceiling, ← last]
      exact ⟨hlast, by rw [hlast]; rfl⟩
    · have hceiling : ¬ r.plain.maxCapacity = some r.plain.capacity := fun heq => room _ heq last
      rw [if_neg hceiling, refused]
      exact ⟨last, rfl⟩
  · rintro ⟨last, hfault⟩
    split at hfault
    · next hceiling =>
      cases hfault
      exact .full hceiling last
    · next hroom =>
      obtain ⟨fault, hrefused, rfl⟩ := Option.map_eq_some_iff.mp hfault
      refine .unallocated (fun max hmax heq => hroom ?_) last hrefused
      have hcap := hle max hmax
      have hsame : max = r.capacity := by omega
      show r.maxCapacity = some r.capacity
      rw [hmax, hsame]

/-- An item is rejected for one of the two reasons, and whenever there is one. -/
theorem push_eq_error_iff (h : r.Sound) (memory : Memory) (item : α) (rejection : Rejection α) :
    r.push memory item = .error rejection ↔
      rejection.item = item ∧ r.Refuses memory rejection.error := by
  have hgrow := Simulates.grow (r := r) (p := r.plain) ⟨h.holds, rfl, rfl⟩ memory
  rw [refuses_iff h, h.holds.count_eq]
  rcases h.holds.push_cases memory item with
    ⟨hroom, hpush⟩ | ⟨hlast, ⟨larger, hgrown, hpush⟩ | ⟨e, hfails, hpush⟩⟩
  · rw [hpush]
    exact iff_of_false (fun h => by cases h) (fun h => by omega)
  · rw [hpush]
    rcases hgrow with ⟨e, -, hfails⟩ | ⟨hfault, -⟩
    · rw [hgrown] at hfails
      cases hfails
    · rw [hfault]
      exact iff_of_false (fun h => by cases h) (fun h => by cases h.2.2)
  · rw [hpush]
    rcases hgrow with ⟨e', hfault, hfails'⟩ | ⟨-, larger, hgrown, -⟩
    · rw [hfails, Except.error.injEq] at hfails'
      rw [hfault, ← hfails']
      constructor
      · rintro h
        cases h
        exact ⟨rfl, hlast, rfl⟩
      · rintro ⟨hitem, -, herror⟩
        rw [Option.some.injEq] at herror
        rw [herror, ← hitem]
    · rw [hfails] at hgrown
      cases hgrown

/-! ## §3 Storing and taking

What whoever uses a sound ring has to know of one push and of one removal. -/

/-- The ring holds as many items as its ceiling admits. -/
def AtCeiling (r : Ring α) : Prop := r.maxCapacity = some (r.count + 1)

namespace Sound

variable {r rest stored : Ring α} {memory : Memory} {item : α}

theorem push_ok {placement : Placement} (h : r.Sound)
    (accepted : r.push memory item = .ok (placement, stored)) :
    stored.toList = r.toList ++ [item] ∧ stored.maxCapacity = r.maxCapacity ∧ ¬ r.AtCeiling := by
  obtain ⟨hheld, hmax⟩ := h.holds.push accepted
  refine ⟨hheld.toList_eq, hmax, fun hceiling => ?_⟩
  have hrefused := (push_eq_error_iff h memory item ⟨item, _⟩).mpr ⟨rfl, .full hceiling rfl⟩
  rw [accepted] at hrefused
  cases hrefused

theorem push_error {rejection : Rejection α} (h : r.Sound)
    (refused : r.push memory item = .error rejection) :
    rejection.isFull = true ∧ r.AtCeiling ∨
      rejection.isFull = false ∧ ∃ slots fault, rejection.error = .allocation slots fault := by
  have hwhy := ((push_eq_error_iff h memory item rejection).mp refused).2
  unfold Rejection.isFull
  generalize rejection.error = error at hwhy
  cases hwhy with
  | full ceiling last => exact .inl ⟨rfl, by rw [AtCeiling, ceiling, last]⟩
  | unallocated room last refused => exact .inr ⟨rfl, _, _, rfl⟩

theorem pop_none (h : r.Sound) (empty : r.pop = (none, rest)) : r.toList = [] ∧ rest = r := by
  have hhead := h.holds.pop.1
  rw [empty] at hhead
  have hnil : r.toList = [] := List.head?_eq_none_iff.mp hhead.symm
  have hpop := (hnil ▸ h.holds : r.Holds []).pop_nil
  rw [empty, Prod.mk.injEq] at hpop
  exact ⟨hnil, hpop.2⟩

theorem pop_some (h : r.Sound) (found : r.pop = (some item, rest)) :
    rest.Sound ∧ r.toList = item :: rest.toList ∧ rest.maxCapacity = r.maxCapacity := by
  have hsound : (r.answer .pop).2.Sound := h.answer trivial
  rw [Ring.answer, found] at hsound
  obtain ⟨hhead, htail⟩ := h.holds.pop
  rw [found] at hhead htail
  refine ⟨hsound, ?_, ?_⟩
  · rw [htail.toList_eq]
    exact List.eq_cons_of_mem_head? hhead.symm
  · have hmax := maxCapacity_pop r
    rwa [found] at hmax

end Sound

/-! ## §4 Rings that do not grow

A ring at its ceiling asks for no memory, and so it refuses an item for one reason only. -/

/-- The ring has as many slots as its ceiling admits, and they can be doubled within a word. -/
structure Capped (r : Ring α) : Prop where
  ceiling : r.maxCapacity = some r.capacity
  doubles : 2 * r.capacity < wordLimit

section Capped

variable {r : Ring α} {items : List α} {memory : Memory} {item : α}

/-- A ring that refuses an item because it is full is capped. -/
theorem Holds.capped {rejection : Rejection α} (h : r.Holds items)
    (rejected : r.push memory item = .error rejection) (full : rejection.isFull = true) :
    r.Capped := by
  obtain ⟨max, hmax, hcap, -⟩ := h.full_of_push rejected full
  refine ⟨by rw [hmax, hcap], ?_⟩
  by_contra hword
  rcases h.push_cases memory item with ⟨-, hpush⟩ | ⟨-, ⟨larger, -, hpush⟩ | ⟨e, hgrow, hpush⟩⟩
  · rw [hpush] at rejected
    cases rejected
  · rw [hpush] at rejected
    cases rejected
  · rw [hpush] at rejected
    cases rejected
    rw [grow_eq, grownCapacity, if_pos (Nat.not_lt.mp hword)] at hgrow
    cases hgrow
    cases full

/-- A capped ring does not try to grow: it refuses an item only because it is full. -/
theorem Capped.grow_eq (capped : r.Capped) :
    r.grow memory = .error (.capacityExceeded r.capacity r.capacity) := by
  rw [Ring.grow_eq, grownCapacity, if_neg (Nat.not_le.mpr capped.doubles), capped.ceiling]
  simp only [if_pos (Nat.le_refl _)]

theorem Holds.isFull_of_capped {rejection : Rejection α} (h : r.Holds items) (capped : r.Capped)
    (rejected : r.push memory item = .error rejection) : rejection.isFull = true := by
  rcases h.push_cases memory item with ⟨-, hpush⟩ | ⟨-, ⟨larger, -, hpush⟩ | ⟨e, hgrow, hpush⟩⟩
  · rw [hpush] at rejected
    cases rejected
  · rw [hpush] at rejected
    cases rejected
  · rw [capped.grow_eq] at hgrow
    cases hgrow
    rw [hpush] at rejected
    cases rejected
    rfl

theorem Holds.capped_push {placement : Placement} {stored : Ring α} (h : r.Holds items)
    (capped : r.Capped) (accepted : r.push memory item = .ok (placement, stored)) :
    stored.Capped := by
  rcases h.push_cases memory item with ⟨-, hpush⟩ | ⟨-, ⟨larger, hgrow, -⟩ | ⟨e, -, hpush⟩⟩
  · rw [hpush] at accepted
    cases accepted
    exact ⟨capped.ceiling.trans (congrArg some (capacity_store r item).symm),
      (capacity_store r item).symm ▸ capped.doubles⟩
  · rw [capped.grow_eq] at hgrow
    cases hgrow
  · rw [hpush] at accepted
    cases accepted

theorem Capped.pop (capped : r.Capped) : r.pop.2.Capped := by
  obtain ⟨hceiling, hdoubles⟩ := capped
  exact ⟨by rw [maxCapacity_pop, capacity_pop, hceiling], by rwa [capacity_pop]⟩

end Capped

end Handoff.Ring
