/-
Handoff.Proofs.Ring.HighWater — the capacity of a ring tells its high-water mark.

A push decides by two cursors whether the ring has to grow, and over a run those cursors go round
the row, back to its front, and round a longer row. The plain list that the ring simulates has no
cursors, and there the decision is a comparison: the ring grows when it holds one item less than it
has slots, so when the item would lift its count to the capacity. The capacities that can follow one
another are fixed from the start (`rung`): each is twice the one before, and none is past the
ceiling. So a ring climbs to the next rung when its count would reach the one it stands on, and at
no other time, which leaves only one thing for its history to decide: how high the count ever was.

`Climbs` is the invariant. Its clause `reached` says that the count was once as high as every rung
below, and with `peak_lt` this makes the rung of the ring the lowest one above the highest count.

  §1 rungs           — `clamp`, `rung`, `rung_eq`
  §2 what a run did  — `growths`, `highWater`
  §3 climbing        — `Climbs`, `Climbs.answer`, `Climbs.answerAll`, `Climbs.isLeast`
  §4 made rings      — `climbs_create`, `climbs_answerAll`
-/
import Mathlib.Algebra.Group.Nat.Defs
import Mathlib.Order.Bounds.Basic
import Handoff.Proofs.Ring.Occupancy

namespace Handoff.Ring

variable {α : Type}

/-! ## §1 Rungs -/

/-- The number, but not past the ceiling. -/
def clamp : Option Nat → Nat → Nat
  | none, n => n
  | some max, n => min max n

/-- The capacities that a ring can have, in the order in which it takes them: each is twice the one
before, but not past the ceiling. -/
def rung (initial : Nat) (max? : Option Nat) : Nat → Nat
  | 0 => initial
  | k + 1 => clamp max? (2 * rung initial max? k)

theorem Plain.target_eq (p : Plain α) : p.target = clamp p.maxCapacity (2 * p.capacity) := by
  unfold Plain.target
  cases p.maxCapacity with
  | none => rfl
  | some max => exact Nat.min_comm _ _

/-- Clamping once at the end is enough. -/
theorem rung_eq {initial : Nat} {max? : Option Nat} (h : ∀ max, max? = some max → initial ≤ max)
    (k : Nat) : rung initial max? k = clamp max? (initial * 2 ^ k) := by
  induction k with
  | zero =>
    cases max? with
    | none => simp [rung, clamp]
    | some max =>
      have := h max rfl
      simp only [rung, clamp]
      omega
  | succ k ih =>
    have hdouble : initial * 2 ^ (k + 1) = 2 * (initial * 2 ^ k) := by
      rw [Nat.pow_succ', Nat.mul_left_comm]
    rw [rung, ih, hdouble]
    cases max? with
    | none => rfl
    | some max =>
      simp only [clamp]
      omega

/-! ## §2 What a run did -/

/-- Whether the answer says that the ring grew. -/
def Answer.isGrowth : Answer α → Bool
  | .stored (.grew ..) => true
  | _ => false

/-- How many of the answers say that the ring grew. -/
def growths (answers : List (Answer α)) : Nat := answers.countP Answer.isGrowth

/-- The largest count among the states that requests lead through, the first and the last one
included. -/
def highWater {σ : Type} (answer : σ → Request α → Answer α × σ) (count : σ → Nat) :
    List (Request α) → σ → Nat
  | [], s => count s
  | request :: rest, s => max (count s) (highWater answer count rest (answer s request).2)

theorem count_le_highWater {σ : Type} (answer : σ → Request α → Answer α × σ) (count : σ → Nat)
    (requests : List (Request α)) (s : σ) : count s ≤ highWater answer count requests s := by
  cases requests with
  | nil => exact Nat.le_refl _
  | cons request rest => exact Nat.le_max_left ..

/-- The ring and the list that it simulates reach the same counts. -/
theorem Simulates.highWater_eq {r : Ring α} {p : Plain α} (h : r.Simulates p)
    (requests : List (Request α)) :
    highWater Ring.answer count requests r =
      highWater Plain.answer (fun p => p.items.length) requests p := by
  induction requests generalizing r p with
  | nil => exact h.holds.count_eq
  | cons request rest ih =>
    rw [highWater, highWater, h.holds.count_eq, ih (h.answer request).2]

/-! ## §3 Climbing -/

/-- The list stands on the rung `grown` of the ladder that starts at `initial`, and `peak` is the
largest number of items that it ever had. -/
structure Climbs (initial : Nat) (max? : Option Nat) (grown peak : Nat) (p : Plain α) : Prop where
  maxCapacity_eq : p.maxCapacity = max?
  capacity_eq : p.capacity = rung initial max? grown
  capacity_le : ∀ max, max? = some max → p.capacity ≤ max
  length_le : p.items.length ≤ peak
  peak_lt : peak < p.capacity
  /-- The list left a rung because it had that many items. -/
  reached : ∀ k < grown, rung initial max? k ≤ peak
  /-- Every growth has added a slot, and none has led past the words. -/
  grown_lt : grown = 0 ∨ grown < p.capacity ∧ p.capacity < wordLimit

namespace Climbs

variable {initial grown peak : Nat} {max? : Option Nat} {p : Plain α}

/-- Nothing has to be checked when items leave. -/
theorem shrink (h : Climbs initial max? grown peak p) {items : List α}
    (hle : items.length ≤ p.items.length) :
    Climbs initial max? grown (max peak items.length) { p with items } := by
  rw [Nat.max_eq_left (Nat.le_trans hle h.length_le)]
  exact ⟨h.maxCapacity_eq, h.capacity_eq, h.capacity_le, Nat.le_trans hle h.length_le, h.peak_lt,
    h.reached, h.grown_lt⟩

/-- A list that may grow gets longer. -/
theorem lt_target (h : Climbs initial max? grown peak p) {memory : Memory}
    (hfault : p.growthFault? memory = none) : p.capacity < p.target ∧ p.target < wordLimit ∧
      ∀ max, max? = some max → p.target ≤ max := by
  have hpeak := h.peak_lt
  unfold Plain.growthFault? at hfault
  split at hfault
  · cases hfault
  · next hword =>
    split at hfault
    · cases hfault
    · next hceiling =>
      rw [Plain.target_eq]
      cases hmax : p.maxCapacity with
      | none =>
        refine ⟨by simp only [clamp]; omega, Nat.not_le.mp hword, fun max hsome => ?_⟩
        rw [← h.maxCapacity_eq, hmax] at hsome
        cases hsome
      | some max =>
        rw [← h.maxCapacity_eq, hmax]
        have hle := h.capacity_le max (by rw [← h.maxCapacity_eq, hmax])
        have hne : max ≠ p.capacity := fun heq => hceiling (by rw [hmax, heq])
        refine ⟨by simp only [clamp]; omega, by simp only [clamp]; omega, ?_⟩
        rintro _ ⟨⟩
        exact Nat.min_le_left ..

/-- A push climbs one rung if the item would fill the row, and none if not. -/
theorem push (h : Climbs initial max? grown peak p) (memory : Memory) (item : α) :
    Climbs initial max? (grown + growths [(p.push memory item).1])
      (max peak (p.push memory item).2.items.length) (p.push memory item).2 := by
  have hlength := h.length_le
  have hpeak := h.peak_lt
  have hone : (p.items ++ [item]).length = p.items.length + 1 := List.length_append
  unfold Plain.push
  split
  · next hroom =>
    -- The count stays below the capacity, whether or not it is a new peak.
    refine ⟨h.maxCapacity_eq, h.capacity_eq, h.capacity_le, Nat.le_max_right .., ?_,
      fun k hk => Nat.le_trans (h.reached k hk) (Nat.le_max_left ..), h.grown_lt⟩
    show max peak (p.items ++ [item]).length < p.capacity
    omega
  · next hfull =>
    cases hfault : p.growthFault? memory with
    | some error => exact h.shrink (Nat.le_refl _)
    | none =>
      obtain ⟨hlt, hword, hmax⟩ := h.lt_target hfault
      -- The new peak is the capacity that the list had before.
      have hnew : max peak (p.items ++ [item]).length = p.capacity := by omega
      refine ⟨h.maxCapacity_eq, ?_, hmax, Nat.le_max_right .., ?_, ?_, .inr ⟨?_, hword⟩⟩
      · show p.target = rung initial max? (grown + 1)
        rw [Plain.target_eq, h.maxCapacity_eq, h.capacity_eq, rung]
      · show max peak (p.items ++ [item]).length < p.target
        omega
      · intro k hk
        show rung initial max? k ≤ max peak (p.items ++ [item]).length
        rcases Nat.lt_succ_iff_lt_or_eq.mp hk with hbelow | rfl
        · have := h.reached k hbelow
          omega
        · rw [hnew, h.capacity_eq]
      · show grown + 1 < p.target
        have := h.grown_lt
        omega

/-- **One request.** -/
theorem answer (h : Climbs initial max? grown peak p) (request : Request α) :
    Climbs initial max? (grown + growths [(p.answer request).1])
      (max peak (p.answer request).2.items.length) (p.answer request).2 := by
  cases request with
  | push memory item => exact h.push memory item
  | pop => exact h.shrink (List.length_tail ▸ Nat.sub_le ..)
  | drain => exact h.shrink (Nat.zero_le _)
  | peek | count | isEmpty | capacity => exact h.shrink (Nat.le_refl _)

/-- Any number of requests. -/
theorem answerAll (h : Climbs initial max? grown peak p) (requests : List (Request α)) :
    Climbs initial max? (grown + growths (Ring.answerAll Plain.answer requests p).1)
      (max peak (highWater Plain.answer (fun p => p.items.length) requests p))
      (Ring.answerAll Plain.answer requests p).2 := by
  induction requests generalizing p grown peak with
  | nil =>
    have := h.shrink (Nat.le_refl _)
    exact this
  | cons request rest ih =>
    have hstep := ih (h.answer request)
    have hpeak : max (max peak (p.answer request).2.items.length)
          (highWater Plain.answer (fun p => p.items.length) rest (p.answer request).2) =
        max peak (highWater Plain.answer (fun p => p.items.length) (request :: rest) p) := by
      have hnext := count_le_highWater Plain.answer (fun p : Plain α => p.items.length) rest
        (p.answer request).2
      have hlength := h.length_le
      rw [highWater]
      omega
    have hgrown : grown + growths [(p.answer request).1] +
          growths (Ring.answerAll Plain.answer rest (p.answer request).2).1 =
        grown + growths (Ring.answerAll Plain.answer (request :: rest) p).1 := by
      rw [Nat.add_assoc, growths, growths, ← List.countP_append]
      rfl
    rw [hpeak, hgrown] at hstep
    exact hstep

/-- The capacity never shrinks. -/
theorem capacity_mono (h : Climbs initial max? grown peak p) (requests : List (Request α)) :
    p.capacity ≤ (Ring.answerAll Plain.answer requests p).2.capacity := by
  induction requests generalizing p grown peak with
  | nil => exact Nat.le_refl _
  | cons request rest ih =>
    refine Nat.le_trans ?_ (ih (h.answer request))
    cases request with
    | push memory item =>
      show p.capacity ≤ (p.push memory item).2.capacity
      unfold Plain.push
      split
      · exact Nat.le_refl _
      · split
        · exact Nat.le_refl _
        · next hfault => exact Nat.le_of_lt (h.lt_target hfault).1
    | pop | peek | drain | count | isEmpty | capacity => exact Nat.le_refl _

/-- The rung is the lowest one above the peak. -/
theorem isLeast (h : Climbs initial max? grown peak p) :
    IsLeast {k | peak < rung initial max? k} grown := by
  refine ⟨?_, fun k hk => ?_⟩
  · show peak < rung initial max? grown
    rw [← h.capacity_eq]
    exact h.peak_lt
  · by_contra hlt
    have := h.reached k (Nat.not_le.mp hlt)
    exact Nat.not_le.mpr hk this

end Climbs

/-! ## §4 Made rings -/

/-- A ring that was made stands on the lowest rung. -/
theorem climbs_create {memory : Memory} {initial : Nat} {max? : Option Nat} {r : Ring α}
    (h : create memory initial max? = .ok r) :
    Climbs initial max? 0 0 (⟨[], initial, max?⟩ : Plain α) := by
  obtain ⟨hheld, hcap, hmax⟩ := holds_create h
  have hle := hheld.capacity_le
  rw [hcap, hmax] at hle
  exact ⟨rfl, rfl, hle, Nat.le_refl _, hcap ▸ hheld.capacity_pos,
    fun k hk => absurd hk (Nat.not_lt_zero k), .inl rfl⟩

/-- After any requests it stands on the rung of its growths, and its peak is the largest count. -/
theorem climbs_answerAll {memory : Memory} {initial : Nat} {max? : Option Nat} {made : Ring α}
    (h : create memory initial max? = .ok made) (requests : List (Request α)) :
    ∃ p, (answerAll answer requests made).2.Simulates p ∧
      Climbs initial max? (growths (answerAll answer requests made).1)
        (highWater answer count requests made) p := by
  have hmade := simulates_create h
  obtain ⟨hanswers, hlast⟩ := hmade.answerAll requests
  have hclimbs := (climbs_create h).answerAll requests
  rw [Nat.zero_add, Nat.zero_max, ← hmade.highWater_eq, ← hanswers] at hclimbs
  exact ⟨_, hlast, hclimbs⟩

end Handoff.Ring
