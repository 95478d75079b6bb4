/-
Handoff.Proofs.Pipeline.Refusal — a queue at its ceiling is refused no memory.

What is said of a run of a pipeline is said of one in which no memory was refused. There are queues of
which every run is such a run: one that was made with all the slots that its ceiling admits never asks
for more. A push then finds room, or its producer waits for some, and none fails.

  §1 moves   — `Thrifty`, `Thrifty.turn`
  §2 runs    — `Reaches.thrifty`, `Reaches.unrefused`
-/
import Handoff.Proofs.Pipeline.Coherence

namespace Handoff.Pipeline

/-! ## §1 Moves -/

/-- The queue asks for no memory, and no member has failed. -/
structure Thrifty (p : Pipeline) : Prop where
  capped : p.queue.ring.Capped
  sane : ∀ m ∈ p.members, m.error? = none

variable {p q : Pipeline} {id : TaskId} {queue : Queue Message} {m next : Producer}
  {memory : Memory}

theorem Thrifty.became (h : p.Thrifty) (found : p.members[id]? = some m)
    (capped : queue.ring.Capped) (sane : next.error? = none) :
    (p.became id queue next).Thrifty := by
  refine ⟨capped, fun other hother => ?_⟩
  rw [members_became (le_size_of_getElem? found)] at hother
  rcases List.mem_or_eq_of_mem_set hother with hmem | rfl
  · exact h.sane other hmem
  · exact sane

theorem Thrifty.turn (h : p.Thrifty) (coherent : p.Coherent) (found : p.members[id]? = some m)
    (turn : Turn memory id p.queue m queue next) : (p.became id queue next).Thrifty := by
  cases turn with
  | store state accepted =>
    exact h.became found (coherent.sound.holds.capped_push h.capped accepted) rfl
  | fail state refused room =>
    -- A ring that asks for no memory has room, or it is full.
    rw [coherent.sound.holds.isFull_of_capped h.capped refused] at room
    cases room
  | enroll | postpone | announce | resume => exact h.became found h.capped rfl

theorem Thrifty.consumed (h : p.Thrifty) (producers : q.producers = p.producers)
    (closer : q.closer = p.closer) (capped : q.queue.ring.Capped) : q.Thrifty := by
  refine ⟨capped, ?_⟩
  rw [members, producers, closer]
  exact h.sane

theorem Thrifty.consumerTurn (h : p.Thrifty) (turn : ConsumerTurn p q) : q.Thrifty := by
  have hpop := h.capped.pop
  cases turn with
  | seek phase empty =>
    rw [empty] at hpop
    exact h.consumed rfl rfl hpop
  | take phase found =>
    rw [found] at hpop
    exact h.consumed rfl rfl hpop
  | stop | handle | spend | rest | wake => exact h.consumed rfl rfl h.capped

theorem Thrifty.lapse (h : p.Thrifty) (lapse : Lapse p q) : q.Thrifty := by
  cases lapse <;> exact h.consumed rfl rfl h.capped

/-! ## §2 Runs -/

theorem Reaches.thrifty {start : Pipeline} (coherent : start.Coherent) (h : start.Thrifty)
    (reached : start.Reaches p) : p.Thrifty := by
  induction reached with
  | refl => exact h
  | move _ before moved ih =>
    have hbefore := before.coherent coherent
    rcases step_or_lapse hbefore.untriggered moved with hstep | hlapse
    · cases hstep with
      | member found _ turn => exact ih.turn hbefore found turn
      | consumer turn => exact ih.consumerTurn turn
    · exact ih.lapse hlapse

/-- Where the queue was made with all the slots that its ceiling admits, no memory is refused. -/
theorem Reaches.unrefused {s : QueueSettings} {pollInterval : Nat} {feeds : List Feed}
    (sized : 0 < memory.slotBytes) (made : Queue.ofSettings memory s = .ok queue)
    (capped : queue.ring.Capped) (reached : (ofFeeds queue pollInterval feeds).Reaches p) :
    p.Unrefused := by
  have hstart : (ofFeeds queue pollInterval feeds).Thrifty := by
    refine ⟨capped, fun m hm => ?_⟩
    rw [members_ofFeeds, List.mem_map] at hm
    obtain ⟨feed, -, rfl⟩ := hm
    rfl
  intro m hm slots fault herror
  rw [(reached.thrifty (.ofFeeds sized made pollInterval feeds) hstart).sane m hm] at herror
  cases herror

end Handoff.Pipeline
