/-
Handoff.Proofs.Pipeline.Step — what one move of a pipeline does.

All producers, with the closing one as the last, are the `members` of the pipeline, and every one of
them moves in the same way: `Turn` has a case for each thing that a member can do, `ConsumerTurn` one
for each thing that the consumer can do, and `Lapse` is a sleep that ends by itself. A move of an
untriggered pipeline is one of these, and each case says all that the move does, so that what is
proved of moves is proved by these cases and `move?` is not opened again.

A run is any sequence of moves. Each move brings its own memory, so that the refusals of a run form no
pattern; only slots without a byte are excluded, as nothing could be said of their number.

  §1 members   — `members`, `became`
  §2 moves     — `Turn`, `ConsumerTurn`, `Lapse`, `Step`
  §3 runs      — `Reaches`, `Stuck`, `Unrefused`
-/
import Handoff.Pipeline.Basic
import Handoff.Proofs.Ring.Refusal

namespace Handoff.Pipeline

/-! ## §1 Members -/

/-- The producers in the order of their numbers; the closing one is the last. -/
def members (p : Pipeline) : List Producer := p.producers.toList ++ [p.closer]

/-- The pipeline after the member `id` did something to the queue and to itself. -/
def became (p : Pipeline) (id : TaskId) (queue : Queue Message) (m : Producer) : Pipeline :=
  { p with
    queue
    producers := p.producers.setIfInBounds id m
    closer := if id = p.producers.size then m else p.closer }

section Members

variable {p : Pipeline} {id : TaskId} {queue : Queue Message} {m : Producer}

@[simp] theorem queue_became : (p.became id queue m).queue = queue := rfl
@[simp] theorem phase_became : (p.became id queue m).phase = p.phase := rfl

@[simp] theorem size_producers_became :
    (p.became id queue m).producers.size = p.producers.size := by
  simp [became]

@[simp] theorem consumerId_became : (p.became id queue m).consumerId = p.consumerId := by
  simp [consumerId]

@[simp] theorem length_members (p : Pipeline) : p.members.length = p.producers.size + 1 := by
  simp [members]

theorem members_became (h : id ≤ p.producers.size) :
    (p.became id queue m).members = p.members.set id m := by
  unfold members became
  rcases Nat.lt_or_eq_of_le h with hlt | rfl
  · simp [hlt, Nat.ne_of_lt hlt]
  · rw [Array.setIfInBounds_eq_of_size_le (Nat.le_refl _)]
    simp

theorem le_size_of_getElem? (h : p.members[id]? = some m) : id ≤ p.producers.size := by
  obtain ⟨hlt, -⟩ := List.getElem?_eq_some_iff.mp h
  rw [length_members] at hlt
  exact Nat.lt_succ_iff.mp hlt

theorem getElem?_members_became (h : id ≤ p.producers.size) (other : TaskId) :
    (p.became id queue m).members[other]? = if other = id then some m else p.members[other]? := by
  rw [members_became h, List.getElem?_set, length_members]
  by_cases heq : other = id
  · subst heq
    rw [if_pos rfl, if_pos (Nat.lt_succ_of_le h), if_pos rfl]
  · rw [if_neg (Ne.symm heq), if_neg heq]

/-- The closing member is the last. -/
theorem getElem?_members_size (p : Pipeline) : p.members[p.producers.size]? = some p.closer := by
  simp [members]

/-- A member is a producer, or it is the closing one. -/
theorem member_cases (h : p.members[id]? = some m) :
    id < p.producers.size ∨ id = p.producers.size ∧ p.closer = m := by
  rcases Nat.lt_or_eq_of_le (le_size_of_getElem? h) with hlt | rfl
  · exact .inl hlt
  · rw [getElem?_members_size, Option.some.injEq] at h
    exact .inr ⟨rfl, h⟩

theorem getElem?_members_of_lt (h : id < p.producers.size) :
    p.members[id]? = p.producers[id]? := by
  rw [members, List.getElem?_append_left (by simpa using h), Array.getElem?_toList]

theorem closer_mem_members (p : Pipeline) : p.closer ∈ p.members := by
  simp [members]

theorem feedsEnded_iff :
    p.feedsEnded = true ↔
      ∀ id m, id < p.producers.size → p.members[id]? = some m → m.hasEnded = true := by
  unfold feedsEnded
  rw [Array.all_eq_true]
  constructor
  · intro h id m hid hm
    rw [getElem?_members_of_lt hid, Array.getElem?_eq_getElem hid, Option.some.injEq] at hm
    exact hm ▸ h id hid
  · intro h id hid
    refine h id _ hid ?_
    rw [getElem?_members_of_lt hid, Array.getElem?_eq_getElem hid]

/-- What only the last member does leaves the others as they were. -/
theorem feedsEnded_became (h : id = p.producers.size) :
    (p.became id queue m).feedsEnded = p.feedsEnded := by
  rw [feedsEnded, became, Array.setIfInBounds_eq_of_size_le (Nat.le_of_eq h.symm), feedsEnded]

end Members

/-! ## §2 Moves -/

/-- What the member `id` can do, and what becomes of the queue and of itself. -/
inductive Turn (memory : Memory) (id : TaskId) (q : Queue Message) (m : Producer) :
    Queue Message → Producer → Prop where
  | enroll (state : m.state = .active) (left : m.sent < m.feed.size) :
      Turn memory id q m { q with space := q.space ++ [id] } { m with state := .enrolled }
  | store {placement : Placement} {ring : Ring Message} (state : m.state = .enrolled)
      (accepted : q.ring.push memory (m.feed.message m.sent) = .ok (placement, ring)) :
      Turn memory id q m
        { q with ring, pushed := q.pushed + 1, grows := q.grows + Queue.growthOf placement }
        { m with sent := m.sent + 1, state := .announcing }
  | postpone {rejection : Rejection Message} (state : m.state = .enrolled)
      (refused : q.ring.push memory (m.feed.message m.sent) = .error rejection)
      (full : rejection.isFull = true) :
      Turn memory id q m q { m with state := .waiting }
  | fail {rejection : Rejection Message} (state : m.state = .enrolled)
      (refused : q.ring.push memory (m.feed.message m.sent) = .error rejection)
      (room : rejection.isFull = false) :
      Turn memory id q m { q with space := q.space.erase id }
        { m with state := .failed rejection.error }
  | announce (state : m.state = .announcing) :
      Turn memory id q m { q with ready := q.ready.notifyOne.2, space := q.space.erase id }
        { m with state := .active }
  | resume (state : m.state = .waiting) (unlisted : id ∉ q.space) :
      Turn memory id q m q { m with state := .active }

/-- What the consumer can do while its handle is not triggered. -/
inductive ConsumerTurn (p : Pipeline) : Pipeline → Prop where
  | seek {ring : Ring Message} (phase : p.phase = .active)
      (empty : p.queue.ring.pop = (none, ring)) :
      ConsumerTurn p { p with queue := { p.queue with ring }, phase := .seeking }
  | take {ring : Ring Message} {message : Message} (phase : p.phase = .active)
      (found : p.queue.ring.pop = (some message, ring)) :
      ConsumerTurn p
        { p with
          queue := { p.queue with ring, popped := p.queue.popped + 1 }
          phase := .holding message }
  | stop (phase : p.phase = .holding .stop) :
      ConsumerTurn p
        { p with
          queue := { p.queue with space := [] }
          phase := .ended (p.consumer.report .stopMessage) }
  | handle {item : WorkItem} (phase : p.phase = .holding (.data item)) :
      ConsumerTurn p
        { p with
          queue := { p.queue with space := [] }
          consumer := p.consumer.tally (p.consumer.react item).complaint
          phase := .active
          handled := item :: p.handled }
  | spend (phase : p.phase = .seeking) (kept : p.queue.ready.permit = true) :
      ConsumerTurn p
        { p with queue := { p.queue with ready := p.queue.ready.spend }, phase := .active }
  | rest (phase : p.phase = .seeking) (none_kept : p.queue.ready.permit = false) :
      ConsumerTurn p
        { p with
          queue := { p.queue with ready := p.queue.ready.enroll p.consumerId }
          phase := .waiting }
  | wake (phase : p.phase = .waiting) (unlisted : p.consumerId ∉ p.queue.ready.waiters) :
      ConsumerTurn p { p with phase := .active }

/-- How a sleep of the consumer ends by itself. -/
inductive Lapse (p : Pipeline) : Pipeline → Prop where
  | early (phase : p.phase = .seeking) : Lapse p { p with phase := .active }
  | leave (phase : p.phase = .waiting) (listed : p.consumerId ∈ p.queue.ready.waiters) :
      Lapse p
        { p with
          queue := { p.queue with ready := p.queue.ready.leave p.consumerId }
          phase := .active }
  | pass (phase : p.phase = .waiting) (unlisted : p.consumerId ∉ p.queue.ready.waiters) :
      Lapse p
        { p with queue := { p.queue with ready := p.queue.ready.notifyOne.2 }, phase := .active }

/-- A move that no sleep that ends by itself makes possible. -/
inductive Step (memory : Memory) (p : Pipeline) : Pipeline → Prop where
  | member {id : TaskId} {m next : Producer} {queue : Queue Message}
      (found : p.members[id]? = some m)
      (cleared : id = p.producers.size → p.feedsEnded = true)
      (turn : Turn memory id p.queue m queue next) : Step memory p (p.became id queue next)
  | consumer {q : Pipeline} (turn : ConsumerTurn p q) : Step memory p q

section Moves

variable {memory : Memory} {id : TaskId} {queue queue' : Queue Message} {m m' : Producer}
  {p q : Pipeline}

theorem turn_of_moveProducer (h : moveProducer memory id queue m = some (queue', m')) :
    Turn memory id queue m queue' m' := by
  unfold moveProducer Queue.store at h
  cases hstate : m.state with
  | failed error => simp [hstate] at h
  | active =>
    simp only [hstate, Option.ite_none_right_eq_some, Option.some.injEq, Prod.mk.injEq] at h
    obtain ⟨hleft, rfl, rfl⟩ := h
    exact .enroll hstate hleft
  | enrolled =>
    cases hpush : queue.ring.push memory (m.feed.message m.sent) with
    | ok stored =>
      simp only [hstate, hpush, Option.some.injEq, Prod.mk.injEq] at h
      obtain ⟨rfl, rfl⟩ := h
      exact .store hstate hpush
    | error rejection =>
      simp only [hstate, hpush] at h
      split at h
      · next hfull =>
        cases h
        exact .postpone hstate hpush hfull
      · next hroom =>
        cases h
        exact .fail hstate hpush (Bool.eq_false_iff.mpr hroom)
  | announcing =>
    simp only [hstate, Option.some.injEq, Prod.mk.injEq] at h
    obtain ⟨rfl, rfl⟩ := h
    exact .announce hstate
  | waiting =>
    simp only [hstate, Option.ite_none_left_eq_some, Option.some.injEq, Prod.mk.injEq,
      List.contains_iff_mem] at h
    obtain ⟨hunlisted, rfl, rfl⟩ := h
    exact .resume hstate hunlisted

/-- A producer that cannot move has ended, or it waits and is enrolled. -/
theorem moveProducer_eq_none (h : moveProducer memory id queue m = none) :
    m.hasEnded = true ∨ m.state = .waiting ∧ id ∈ queue.space := by
  unfold moveProducer at h
  unfold Producer.hasEnded
  cases hstate : m.state with
  | failed error => exact .inl rfl
  | active =>
    simp only [hstate, ite_eq_right_iff, reduceCtorEq, imp_false, Nat.not_lt] at h
    exact .inl (by simpa using h)
  | enrolled =>
    simp only [hstate] at h
    split at h
    · cases h
    · split at h <;> cases h
  | announcing => simp [hstate] at h
  | waiting => exact .inr ⟨rfl, by simpa [hstate] using h⟩

/-- A producer that has ended does not move. -/
theorem Turn.hasEnded_eq_false (h : Turn memory id queue m queue' m') : m.hasEnded = false := by
  unfold Producer.hasEnded
  cases h with
  | enroll state left => simpa [state] using left
  | store state | postpone state | fail state | announce state | resume state => rw [state]

theorem consumerTurn_of_moveConsumer (untriggered : p.triggered = false)
    (h : p.moveConsumer = some q) : ConsumerTurn p q := by
  have huntriggered : ¬ p.triggered = true := Bool.eq_false_iff.mp untriggered
  unfold moveConsumer Queue.take Queue.release at h
  simp only [if_neg huntriggered] at h
  cases hphase : p.phase with
  | active =>
    cases hpop : p.queue.ring.pop with
    | mk message? ring =>
      cases message? with
      | none =>
        simp only [hphase, hpop, Option.some.injEq] at h
        exact h ▸ .seek hphase hpop
      | some message =>
        simp only [hphase, hpop, Option.some.injEq] at h
        exact h ▸ .take hphase hpop
  | holding message =>
    cases message with
    | stop =>
      simp only [hphase, Option.some.injEq] at h
      exact h ▸ .stop hphase
    | data item =>
      simp only [hphase, Option.some.injEq] at h
      exact h ▸ .handle hphase
  | seeking =>
    simp only [hphase] at h
    split at h
    · next hpermit =>
      cases h
      exact .spend hphase hpermit
    · next hpermit =>
      cases h
      exact .rest hphase (Bool.eq_false_iff.mpr hpermit)
  | waiting =>
    simp only [hphase, Option.ite_none_left_eq_some, Option.some.injEq,
      List.contains_iff_mem] at h
    exact h.2 ▸ .wake hphase h.1
  | ended report => simp [hphase] at h

/-- A consumer that cannot move has ended, or it waits and is listed. -/
theorem moveConsumer_eq_none (untriggered : p.triggered = false) (h : p.moveConsumer = none) :
    (∃ report, p.phase = .ended report) ∨
      p.phase = .waiting ∧ p.consumerId ∈ p.queue.ready.waiters := by
  unfold moveConsumer at h
  simp only [untriggered, Bool.false_eq_true, if_false] at h
  cases hphase : p.phase with
  | active =>
    simp only [hphase] at h
    split at h <;> cases h
  | holding message => cases message <;> simp [hphase] at h
  | seeking =>
    simp only [hphase] at h
    split at h <;> cases h
  | waiting => exact .inr ⟨rfl, by simpa [hphase] using h⟩
  | ended report => exact .inl ⟨report, rfl⟩

theorem lapse_of_moveTimeout (h : p.moveTimeout = some q) : Lapse p q := by
  unfold moveTimeout at h
  cases hphase : p.phase with
  | seeking =>
    simp only [hphase, Option.some.injEq] at h
    exact h ▸ .early hphase
  | waiting =>
    simp only [hphase, Option.some.injEq, List.contains_iff_mem] at h
    split at h
    · next hlisted => exact h ▸ .leave hphase hlisted
    · next hunlisted => exact h ▸ .pass hphase hunlisted
  | active | holding message | ended report => simp [hphase] at h

theorem move?_produce_eq_some {index : Nat} (h : p.move? memory (.produce index) = some q) :
    index < p.producers.size ∧ ∃ m queue next, p.members[index]? = some m ∧
      Turn memory index p.queue m queue next ∧ q = p.became index queue next := by
  simp only [move?] at h
  cases hm : p.producers[index]? with
  | none => simp [hm] at h
  | some m =>
    obtain ⟨hindex, -⟩ := Array.getElem?_eq_some_iff.mp hm
    cases hmove : moveProducer memory index p.queue m with
    | none => simp [hm, hmove] at h
    | some next =>
      simp only [hm, hmove, Option.some.injEq] at h
      refine ⟨hindex, m, next.1, next.2, ?_, turn_of_moveProducer hmove, ?_⟩
      · rwa [getElem?_members_of_lt hindex]
      · rw [← h, became, if_neg (Nat.ne_of_lt hindex)]

theorem move?_close_eq_some (h : p.move? memory .close = some q) :
    p.feedsEnded = true ∧ ∃ queue next, Turn memory p.producers.size p.queue p.closer queue next ∧
      q = p.became p.producers.size queue next := by
  simp only [move?, Option.ite_none_right_eq_some] at h
  obtain ⟨hended, h⟩ := h
  cases hmove : moveProducer memory p.producers.size p.queue p.closer with
  | none => simp [hmove] at h
  | some next =>
    simp only [hmove, Option.some.injEq] at h
    refine ⟨hended, next.1, next.2, turn_of_moveProducer hmove, ?_⟩
    rw [← h, became, if_pos rfl, Array.setIfInBounds_eq_of_size_le (Nat.le_refl _)]

theorem move?_produce_eq_none (found : p.members[id]? = some m) (producer : id < p.producers.size)
    (h : p.move? memory (.produce id) = none) :
    m.hasEnded = true ∨ m.state = .waiting ∧ id ∈ p.queue.space := by
  rw [getElem?_members_of_lt producer] at found
  simp only [move?, found] at h
  cases hmove : moveProducer memory id p.queue m with
  | none => exact moveProducer_eq_none hmove
  | some next => simp [hmove] at h

theorem move?_close_eq_none (ended : p.feedsEnded = true) (h : p.move? memory .close = none) :
    p.closer.hasEnded = true ∨ p.closer.state = .waiting ∧ p.producers.size ∈ p.queue.space := by
  simp only [move?, ended, if_true] at h
  cases hmove : moveProducer memory p.producers.size p.queue p.closer with
  | none => exact moveProducer_eq_none hmove
  | some next => simp [hmove] at h

theorem step_of_move? {who : Move} (untriggered : p.triggered = false)
    (h : p.move? memory who = some q) (awake : who ≠ .timeout) : Step memory p q := by
  cases who with
  | produce index =>
    obtain ⟨hindex, m, queue, next, hm, hturn, rfl⟩ := move?_produce_eq_some h
    exact .member hm (fun heq => absurd heq (Nat.ne_of_lt hindex)) hturn
  | close =>
    obtain ⟨hended, queue, next, hturn, rfl⟩ := move?_close_eq_some h
    exact .member (getElem?_members_size p) (fun _ => hended) hturn
  | consume => exact .consumer (consumerTurn_of_moveConsumer untriggered h)
  | timeout => exact absurd rfl awake

theorem step_or_lapse {who : Move} (untriggered : p.triggered = false)
    (h : p.move? memory who = some q) : Step memory p q ∨ Lapse p q := by
  by_cases hwho : who = .timeout
  · subst hwho
    exact .inr (lapse_of_moveTimeout h)
  · exact .inl (step_of_move? untriggered h hwho)

end Moves

/-! ## §3 Runs -/

/-- Some sequence of moves leads from `start` to the other pipeline. -/
inductive Reaches (start : Pipeline) : Pipeline → Prop where
  | refl : Reaches start start
  | move {p q : Pipeline} {memory : Memory} {who : Move} (sized : 0 < memory.slotBytes)
      (before : Reaches start p) (moved : p.move? memory who = some q) : Reaches start q

/-- Nobody can move, unless a sleep of the consumer ends by itself. -/
def Stuck (memory : Memory) (p : Pipeline) : Prop :=
  ∀ who, who ≠ .timeout → p.move? memory who = none

/-- No member ended because memory was refused. -/
def Unrefused (p : Pipeline) : Prop :=
  ∀ m ∈ p.members, ∀ slots fault, m.error? ≠ some (.allocation slots fault)

/-- Where no member has an error none was refused memory. -/
theorem unrefused_of_all {p : Pipeline} (h : p.members.all (·.error?.isNone) = true) :
    p.Unrefused := by
  intro m hm slots fault herror
  have hnone := List.all_eq_true.mp h m hm
  rw [herror] at hnone
  cases hnone

end Handoff.Pipeline
