/-
Handoff.Proofs.Queue.Construction — the check of settings and the making of a queue agree.

The bounds on a queue's settings are checked twice: by `QueueSettings.validate`, and again by the
ring that the queue is built around, in another order and with other errors. `ChecksAgree` says that
the second check never speaks: what it would refuse the first one has refused before, so a ring is
either made or not given its slots.

The bounds are there because one slot of a ring always stays free. What they are good for is seen
when the queue fills up. Pushes go through any number of growths, the last one clamped to the
ceiling, and `offers_eq` counts them: as many succeed as there are slots below the ceiling, less the
free one, and from then on every push fails until an item is taken. A ceiling of two, the lowest
that passes the check, admits one item.

  §1 two checks    — `validate_eq_ok_iff`, `ChecksAgree`, `checksAgree`
  §2 made queues   — `holds_performAll`, `reached_performAll`
  §3 filling up    — `rejection?`, `offers`, `offers_eq`
  §4 both together — `config_iff_validate`
-/
import Handoff.Proofs.Queue.Capacity
import Handoff.Proofs.Queue.Refusal
import Handoff.CommandLine.Arguments

namespace Handoff

/-! ## §1 Two checks -/

theorem QueueSettings.ceilingFault?_eq_none_iff (initial : Nat) (max? : Option Nat) :
    ceilingFault? initial max? = none ↔ ∀ max, max? = some max → 2 ≤ max ∧ initial ≤ max := by
  cases max? with
  | none => simp [ceilingFault?]
  | some max =>
    simp only [ceilingFault?, Option.some.injEq, forall_eq']
    split
    · next hlow => exact iff_of_false nofun (fun h => Nat.not_lt.mpr h.1 hlow)
    · next htwo =>
      split
      · next hbelow => exact iff_of_false nofun (fun h => Nat.not_lt.mpr h.2 hbelow)
      · next hle => exact iff_of_true rfl ⟨Nat.not_lt.mp htwo, Nat.not_lt.mp hle⟩

/-- The settings pass the check if their numbers are within its bounds. -/
theorem QueueSettings.validate_eq_ok_iff (s : QueueSettings) :
    s.validate = .ok () ↔ s.initialCapacity ≠ 0 ∧
      (∀ max, s.maxCapacity = some max → 2 ≤ max ∧ s.initialCapacity ≤ max) ∧
      s.pollInterval ≠ 0 := by
  have hvalid : s.validate = .ok () ↔ s.fault? = none := by
    unfold validate
    cases s.fault? <;> simp
  rw [hvalid, fault?, ← ceilingFault?_eq_none_iff]
  by_cases hinitial : s.initialCapacity = 0
  · simp [hinitial]
  · cases hceiling : ceilingFault? s.initialCapacity s.maxCapacity with
    | some fault => simp [hinitial]
    | none => simp [hinitial]

/-- The check fails with a fault of the configuration, if it fails. -/
theorem QueueSettings.validate_cases (s : QueueSettings) :
    s.validate = .ok () ∨ ∃ fault, s.validate = .error (.config fault) := by
  unfold validate
  cases s.fault? with
  | none => exact .inl rfl
  | some fault => exact .inr ⟨fault, rfl⟩

/-- Within the bounds of the check, a ring is made or not given its slots. -/
theorem Ring.create_cases {α : Type} {s : QueueSettings} (valid : s.validate = .ok ())
    (memory : Memory) :
    (∃ ring : Ring α, create memory s.initialCapacity s.maxCapacity = .ok ring) ∨
      ∃ fault, create (α := α) memory s.initialCapacity s.maxCapacity =
        .error (.allocation s.initialCapacity fault) := by
  obtain ⟨hinitial, hceiling, -⟩ := s.validate_eq_ok_iff.mp valid
  have hslots : (∃ ring : Ring α, withCapacity memory s.initialCapacity = .ok ring) ∨
      ∃ fault, withCapacity (α := α) memory s.initialCapacity =
        .error (.allocation s.initialCapacity fault) := by
    rw [withCapacity, if_neg hinitial, vacantSlots]
    cases memory.fault? s.initialCapacity with
    | none => exact .inl ⟨_, rfl⟩
    | some fault => exact .inr ⟨fault, rfl⟩
  cases hmax : s.maxCapacity with
  | none => exact hslots
  | some max =>
    obtain ⟨htwo, hle⟩ := hceiling max hmax
    rw [create, bounded, if_neg (Nat.not_lt.mpr htwo), if_neg (Nat.not_lt.mpr hle)]
    rcases hslots with ⟨ring, hring⟩ | ⟨fault, hring⟩
    · rw [hring]
      exact .inl ⟨_, rfl⟩
    · rw [hring]
      exact .inr ⟨fault, rfl⟩

namespace Queue

variable {α : Type}

/-- What the making of a queue of `α` has to do with the check of its settings. -/
structure ChecksAgree (α : Type) (memory : Memory) (s : QueueSettings) : Prop where
  /-- The making fails with a fault of the configuration if the check fails, and with the same. -/
  config_iff : ∀ fault, ofSettings (α := α) memory s = .error (.config fault) ↔
    s.validate = .error (.config fault)
  fails_iff : (∃ fault, ofSettings (α := α) memory s = .error (.config fault)) ↔
    ¬ s.validate = .ok ()
  /-- Else there is a queue, or the slots that it starts with were not handed out. -/
  made : s.validate = .ok () → (∃ q : Queue α, ofSettings memory s = .ok q) ∨
    ∃ fault, ofSettings (α := α) memory s = .error (.allocation s.initialCapacity fault)
  /-- The checks of the ring do not fail after that of the settings. -/
  ring : s.validate = .ok () → ∀ error,
    Ring.create (α := α) memory s.initialCapacity s.maxCapacity = .error error →
    ∃ fault, error = .allocation s.initialCapacity fault

theorem checksAgree (memory : Memory) (s : QueueSettings) : ChecksAgree α memory s := by
  rcases s.validate_cases with valid | ⟨fault, invalid⟩
  · have hmade : (∃ q : Queue α, ofSettings memory s = .ok q) ∨
        ∃ fault, ofSettings (α := α) memory s = .error (.allocation s.initialCapacity fault) := by
      rw [ofSettings, valid]
      rcases Ring.create_cases (α := α) valid memory with ⟨ring, hring⟩ | ⟨fault, hring⟩
      · rw [hring]
        exact .inl ⟨_, rfl⟩
      · rw [hring]
        exact .inr ⟨fault, rfl⟩
    have hconfig : ∀ fault, ofSettings (α := α) memory s ≠ .error (.config fault) := by
      intro fault hfault
      rcases hmade with ⟨q, hq⟩ | ⟨other, hother⟩
      · rw [hq] at hfault
        cases hfault
      · rw [hother] at hfault
        cases hfault
    refine ⟨fun fault => iff_of_false (hconfig fault) (by rw [valid]; exact nofun),
      iff_of_false (fun ⟨fault, hfault⟩ => hconfig fault hfault) (fun h => h valid),
      fun _ => hmade, fun _ error herror => ?_⟩
    rcases Ring.create_cases (α := α) valid memory with ⟨ring, hring⟩ | ⟨fault, hring⟩
    · rw [hring] at herror
      cases herror
    · rw [hring] at herror
      cases herror
      exact ⟨fault, rfl⟩
  · have hfails : ofSettings (α := α) memory s = .error (.config fault) := by
      rw [ofSettings, invalid]
    have hnot : ¬ s.validate = .ok () := by
      rw [invalid]
      exact nofun
    exact ⟨fun other => by rw [hfails, invalid]; simp, iff_of_true ⟨fault, hfails⟩ hnot,
      fun valid => absurd valid hnot, fun valid => absurd valid hnot⟩

/-! ## §2 Made queues -/

/-- The ring of a queue goes on holding its items, and keeps its ceiling. -/
theorem holds_performAll {q : Queue α} {items : List α} (h : q.ring.Holds items)
    (operations : List (Operation α)) :
    (∃ later, (q.performAll operations).ring.Holds later) ∧
      (q.performAll operations).ring.maxCapacity = q.ring.maxCapacity := by
  have hsimulates : q.ring.Simulates ⟨items, q.capacity, q.ring.maxCapacity⟩ := ⟨h, rfl, rfl⟩
  have hlast := (hsimulates.answerAll (operations.map Operation.request)).2
  rw [← (q.ring_performAll operations).1] at hlast
  exact ⟨⟨_, hlast.holds⟩, hlast.maxCapacity_eq.trans (Ring.Plain.maxCapacity_answerAll _ _)⟩

/-- A ring that can be reached stays one, as long as slots have a byte at least. -/
theorem reached_perform {q : Queue α} (reached : q.ring.Reached) {operation : Operation α}
    (sized : operation.request.Sized) : (q.perform operation).ring.Reached :=
  (q.ring_perform operation).1 ▸ reached.answer operation.request sized

theorem reached_performAll {q : Queue α} (reached : q.ring.Reached)
    {operations : List (Operation α)}
    (sized : ∀ operation ∈ operations, operation.request.Sized) :
    (q.performAll operations).ring.Reached := by
  induction operations generalizing q with
  | nil => exact reached
  | cons operation rest ih =>
    obtain ⟨hfirst, hothers⟩ := List.forall_mem_cons.mp sized
    exact ih (reached_perform reached hfirst) hothers

/-! ## §3 Filling up -/

/-- The rejection that a push ends with, if it fails. -/
def rejection? (memory : Memory) (q : Queue α) (item : α) : Option (Rejection α) :=
  match q.push memory item with
  | .ok _ => none
  | .error rejection => some rejection

/-- A push to a queue with a ceiling succeeds and leaves one slot less, or finds the queue full and
leaves it as it is, or needs slots that are not handed out. -/
theorem rejection?_cases {q : Queue α} (reached : q.ring.Reached) {max : Nat}
    (ceiling : q.ring.maxCapacity = some max) (memory : Memory) (item : α) :
    (q.rejection? memory item = none ∧ q.count + 1 < max ∧
      (q.perform (.push memory item)).count = q.count + 1) ∨
    (q.rejection? memory item = some ⟨item, .capacityExceeded max max⟩ ∧ q.count + 1 = max ∧
      q.perform (.push memory item) = q) ∨
    ∃ slots fault, q.rejection? memory item = some ⟨item, .allocation slots fault⟩ := by
  have hsound := reached.sound
  simp only [rejection?, perform]
  cases hpush : q.push memory item with
  | ok stored =>
    refine .inl ⟨rfl, ?_⟩
    cases hring : q.ring.push memory item with
    | error rejection => simp [push, hring] at hpush
    | ok placed =>
      obtain ⟨placement, ring⟩ := placed
      simp only [push, hring, Except.ok.injEq] at hpush
      subst hpush
      obtain ⟨-, -, hroom⟩ := hsound.push_ok hring
      have hheld := (hsound.holds.push hring).1
      have hlt := hsound.holds.length_lt
      have hle := hsound.holds.capacity_le max ceiling
      have hbefore : q.count = q.ring.toList.length := hsound.holds.count_eq
      have hne : q.count + 1 ≠ max := fun heq => hroom (by rw [Ring.AtCeiling, ceiling, ← heq]; rfl)
      refine ⟨by omega, hheld.count_eq.trans ?_⟩
      rw [List.length_append, hbefore]
      rfl
  | error rejection =>
    have hring := (push_eq_error_iff memory item rejection).mp hpush
    obtain ⟨rfl, hrefuses⟩ := (Ring.push_eq_error_iff hsound memory item rejection).mp hring
    obtain ⟨item, error⟩ := rejection
    cases hrefuses with
    | full hceiling hlast =>
      rw [ceiling, Option.some.injEq] at hceiling
      subst hceiling
      exact .inr (.inl ⟨rfl, hlast, rfl⟩)
    | unallocated _ _ _ => exact .inr (.inr ⟨_, _, rfl⟩)

/-- Pushes items one after the other, each with slots from a memory of its own; for each the
rejection is returned that its push ended with, if it failed. -/
def offers (q : Queue α) : List (Memory × α) → List (Option (Rejection α))
  | [] => []
  | (memory, item) :: rest =>
    q.rejection? memory item :: (q.perform (.push memory item)).offers rest

/-- No push failed because slots were not handed out. -/
def Granted (answers : List (Option (Rejection α))) : Prop :=
  ∀ rejection, some rejection ∈ answers → ∀ slots fault, rejection.error ≠ .allocation slots fault

/-- What a queue with the ceiling `max` says to items for which `room` slots are left: it takes as
many, and then none. -/
def outcomes (max room : Nat) (pushes : List (Memory × α)) : List (Option (Rejection α)) :=
  (pushes.take room).map (fun _ => none) ++
    (pushes.drop room).map fun push => some ⟨push.2, .capacityExceeded max max⟩

/-- Pushes without a removal succeed as long as there is room below the ceiling, and then fail, if
no growth is refused on the way. -/
theorem offers_eq {q : Queue α} (reached : q.ring.Reached) {max : Nat}
    (ceiling : q.ring.maxCapacity = some max) {pushes : List (Memory × α)}
    (sized : ∀ push ∈ pushes, 0 < push.1.slotBytes) (granted : Granted (q.offers pushes)) :
    q.offers pushes = outcomes max (max - 1 - q.count) pushes := by
  induction pushes generalizing q with
  | nil => simp [offers, outcomes]
  | cons push rest ih =>
    obtain ⟨memory, item⟩ := push
    obtain ⟨hsized, hothers⟩ := List.forall_mem_cons.mp sized
    have hreached : (q.perform (.push memory item)).ring.Reached := reached_perform reached hsized
    have hmax : (q.perform (.push memory item)).ring.maxCapacity = q.ring.maxCapacity :=
      (holds_performAll reached.sound.holds [.push memory item]).2
    have hrest := ih hreached (hmax.trans ceiling) hothers
      fun rejection h => granted rejection (List.mem_cons_of_mem _ h)
    rw [offers]
    rcases rejection?_cases reached ceiling memory item with
      ⟨hnone, hroom, hcount⟩ | ⟨hfull, hlast, hsame⟩ | ⟨slots, fault, hrefused⟩
    · have hleft : max - 1 - q.count = max - 1 - (q.count + 1) + 1 := by omega
      rw [hnone, hleft, ← hcount]
      exact congrArg (none :: ·) hrest
    · have hleft : max - 1 - q.count = 0 := by omega
      rw [hsame, hleft] at hrest
      rw [hfull, hsame, hleft]
      exact congrArg (some _ :: ·) hrest
    · refine (granted ⟨item, .allocation slots fault⟩ ?_ slots fault rfl).elim
      rw [offers, hrefused]
      exact List.mem_cons_self

/-- Without a ceiling no push finds the queue full. -/
theorem error_ne_capacityExceeded {q : Queue α} {items : List α} (h : q.ring.Holds items)
    (unbounded : q.ring.maxCapacity = none) {memory : Memory} {item : α} {rejection : Rejection α}
    (rejected : q.push memory item = .error rejection) (capacity max : Nat) :
    rejection.error ≠ .capacityExceeded capacity max := by
  intro heq
  have hfull : rejection.isFull = true := by
    rw [Rejection.isFull, heq]
    rfl
  obtain ⟨_, hceiling, -⟩ :=
    h.full_of_push ((push_eq_error_iff memory item rejection).mp rejected) hfull
  rw [unbounded] at hceiling
  cases hceiling

/-! ## §4 Both together -/

/-- **Checks and constructors agree**, for all settings, also for those that the command line has
changed. And the bounds fit the queue that is made, whatever happens to it first. If it has a
ceiling, it admits one item at least, and of any pushes without a removal among them, and without a
growth that is refused, as many succeed as the ceiling admits beside what is queued, which for an
empty queue is one item less than there are slots; all later ones fail because the queue is full. If
it has none, no push ever fails so. A slot has a byte at least. -/
theorem config_iff_validate (memory : Memory) :
    (∀ s, ChecksAgree α memory s) ∧
    (∀ (overrides : CommandLine.Overrides) (settings : Settings),
      ChecksAgree α memory (overrides.apply settings).queue) ∧
    ∀ (s : QueueSettings) (q : Queue α), ofSettings memory s = .ok q → q.count = 0 ∧
      (∀ max, s.maxCapacity = some max → 1 ≤ max - 1 ∧
        (0 < memory.slotBytes → ∀ (operations : List (Operation α)) (pushes : List (Memory × α)),
          (∀ operation ∈ operations, operation.request.Sized) →
          (∀ push ∈ pushes, 0 < push.1.slotBytes) →
          Granted ((q.performAll operations).offers pushes) →
          (q.performAll operations).offers pushes =
            outcomes max (max - 1 - (q.performAll operations).count) pushes)) ∧
      (s.maxCapacity = none → ∀ (operations : List (Operation α)) memory' item rejection,
        (q.performAll operations).push memory' item = .error rejection →
        ∀ capacity max, rejection.error ≠ .capacityExceeded capacity max) := by
  refine ⟨fun s => checksAgree memory s, fun overrides settings => checksAgree memory _, ?_⟩
  intro s q made
  obtain ⟨valid, ring, hring, rfl⟩ := ofSettings_ok made
  obtain ⟨hempty, -, hmax⟩ : (ofRing s.name ring).ring.Holds [] ∧ _ := Ring.holds_create hring
  refine ⟨hempty.count_eq, fun max ceiling => ⟨?_, ?_⟩, ?_⟩
  · have := ((s.validate_eq_ok_iff.mp valid).2.1 max ceiling).1
    omega
  · intro sized operations pushes hoperations hpushes granted
    have hceiling := (holds_performAll hempty operations).2.trans (hmax.trans ceiling)
    exact offers_eq (reached_performAll (.create sized hring) hoperations) hceiling hpushes granted
  · intro unbounded operations memory' item rejection rejected
    obtain ⟨⟨_, hheld⟩, hsame⟩ := holds_performAll hempty operations
    exact error_ne_capacityExceeded hheld (hsame.trans (hmax.trans unbounded)) rejected

/-- A ceiling that the command line lowers below the initial capacity is refused with a fault of the
configuration. A queue of two slots that may grow to five, after a push that was refused its growth
and a removal, takes four items, across a growth that is clamped, and then none. -/
theorem config_iff_validate_clamped :
    let memory := Memory.ofSlotBytes 16
    let settings : Settings := { Settings.standard with queue := ⟨"work", 2, some 5, 100⟩ }
    let lowered := (CommandLine.Overrides.apply ⟨some 9, some 4⟩ settings).queue
    let operations : List (Operation Nat) :=
      [.push memory 1, .push (memory.limitedTo 3) 2, .pop]
    let later := (ofRing "work" ⟨#[none, none], 0, 0, some 5⟩).performAll operations
    let pushes := [3, 4, 5, 6, 7, 8].map fun item => (memory, item)
    settings.queue.validate = .ok () ∧
      ofSettings (α := Nat) memory lowered = .error (.config (.ceilingBelowInitial 4 9)) ∧
      later.count = 0 ∧
      later.offers pushes = [none, none, none, none, some ⟨7, .capacityExceeded 5 5⟩,
        some ⟨8, .capacityExceeded 5 5⟩] := by
  intro memory settings lowered operations later pushes
  obtain ⟨-, hoverridden, hfills⟩ := config_iff_validate (α := Nat) memory
  have hmade : ofSettings memory settings.queue =
      .ok (ofRing "work" (⟨#[none, none], 0, 0, some 5⟩ : Ring Nat)) := rfl
  have hcount : later.count = 0 := by decide +kernel
  have hgranted : Granted (later.offers pushes) := by
    have hall : ∀ answer ∈ later.offers pushes, answer.all (·.isFull) = true := by decide +kernel
    intro rejection hmem slots fault heq
    have hfull := hall _ hmem
    rw [Option.all_some, Rejection.isFull, heq] at hfull
    cases hfull
  obtain ⟨-, hbounded, -⟩ := hfills settings.queue _ hmade
  have hoffers : later.offers pushes = outcomes 5 (5 - 1 - later.count) pushes :=
    (hbounded 5 rfl).2 (by decide) operations pushes
      (by simp [operations, Operation.request, Ring.Request.Sized, memory, Memory.ofSlotBytes,
        Memory.limitedTo]) (by simp [pushes, memory, Memory.ofSlotBytes]) hgranted
  rw [hcount] at hoffers
  exact ⟨rfl, ((hoverridden ⟨some 9, some 4⟩ settings).config_iff _).mpr rfl, hcount, hoffers⟩

end Queue

end Handoff
