/-
Handoff.Proofs.Executor.Conservation — no message is lost, doubled or overtaken.

The messages that were removed, followed by those that are still queued, are the messages that were
accepted: as lists, so in their order. Both lists are read off the journal, into which every push,
pop and drain writes what it took in or handed out. It does not matter who accepted or removed them,
which tasks were cancelled on the way, how often the ring grew, or what was refused.

  §1 what the journal says  — `accepted_push`, `removed_pop`, `removed_drain`
  §2 conservation           — `removed_append_queued`
-/
import Handoff.Proofs.Executor.Flow

namespace Handoff.Executor

/-! ## §1 What the journal says -/

/-- A push that is accepted adds its message to the accepted ones, and nothing else. -/
theorem accepted_push {memory : Memory} {x y : Executor} {actor : Actor} {message : Message}
    (h : x.push memory actor message = .ok y) :
    y.accepted = x.accepted ++ [message] ∧ y.removed = x.removed := by
  obtain ⟨placement, ring, -, rfl⟩ := push_ok h
  have hstill := Still.notifyReady (x.stored actor message placement ring)
  rw [hstill.accepted_eq, hstill.removed_eq]
  exact ⟨accepted_stored x actor message placement ring, rfl⟩

/-- Who pops gets the message that is added to the removed ones. -/
theorem removed_pop {x : Executor} {items : List Message} (h : x.queue.ring.Holds items)
    (actor : Actor) :
    (x.pop actor).2.removed = x.removed ++ (x.pop actor).1.toList ∧
      (x.pop actor).2.accepted = x.accepted := by
  cases items with
  | nil =>
    rw [pop_nil h]
    exact ⟨(List.append_nil _).symm, rfl⟩
  | cons message rest =>
    rw [pop_cons h]
    exact ⟨removed_taken x actor [message] _, accepted_taken x actor [message] _⟩

/-- Who drains gets the messages that are added to the removed ones. -/
theorem removed_drain {x : Executor} {items : List Message} (h : x.queue.ring.Holds items)
    (actor : Actor) :
    (x.drain actor).2.removed = x.removed ++ (x.drain actor).1 ∧
      (x.drain actor).2.accepted = x.accepted := by
  cases items with
  | nil =>
    rw [drain_nil h]
    exact ⟨(List.append_nil _).symm, rfl⟩
  | cons message rest =>
    rw [drain_cons h]
    exact ⟨removed_taken x actor (message :: rest) _, accepted_taken x actor (message :: rest) _⟩

/-! ## §2 Conservation -/

/-- The ring holds what was accepted and not removed. -/
def Conserves (x : Executor) : Prop :=
  ∃ queued, x.queue.ring.Holds queued ∧ x.removed ++ queued = x.accepted

theorem Conserves.push {memory : Memory} {x y : Executor} {actor : Actor} {message : Message}
    (hx : x.Conserves) (h : x.push memory actor message = .ok y) : y.Conserves := by
  obtain ⟨queued, hholds, heq⟩ := hx
  obtain ⟨⟨placement, hring⟩, -⟩ := ring_push h
  obtain ⟨haccepted, hremoved⟩ := accepted_push h
  refine ⟨queued ++ [message], (hholds.push hring).1, ?_⟩
  rw [haccepted, hremoved, ← List.append_assoc, heq]

theorem Conserves.taken {x : Executor} {messages : List Message} {ring : Ring Message}
    (hx : x.Conserves) (actor : Actor) (h : x.queue.ring.Leaves messages ring) :
    (x.taken actor messages ring).Conserves := by
  obtain ⟨queued, hholds, heq⟩ := hx
  obtain ⟨others, hall, hothers⟩ := h.holds
  refine ⟨others, hothers, ?_⟩
  rw [removed_taken, accepted_taken, List.append_assoc, ← hholds.unique hall, heq]

theorem Conserves.flow {x y : Executor} (hx : x.Conserves) (h : x.Flow y) : y.Conserves := by
  cases h with
  | still hstill =>
    obtain ⟨queued, hholds, heq⟩ := hx
    refine ⟨queued, ?_, ?_⟩
    · rw [hstill.ring_eq]
      exact hholds
    · rw [hstill.removed_eq, hstill.accepted_eq, heq]
  | accept accepted => exact hx.push accepted
  | take actor _ leaves => exact hx.taken actor leaves
  | lineUp => exact hx

/-- **No message is lost, doubled or overtaken**: the removed messages followed by the queued ones
are the accepted ones, in the order in which they were accepted. -/
theorem removed_append_queued {x : Executor} (h : x.Reachable) :
    x.removed ++ x.queue.toList = x.accepted := by
  have hx : x.Conserves := by
    refine h.flow_induction ?_ (fun _ _ hy hflow => hy.flow hflow)
    exact fun q hq => ⟨[], holds_ofQueue hq, rfl⟩
  obtain ⟨queued, hholds, heq⟩ := hx
  rw [Queue.toList, hholds.toList_eq, heq]

/-- A producer waits at the ceiling until a consumer takes items, whose handler pushes one of its
own; the consumer is told of a stop message and cancelled before it runs. -/
theorem removed_append_queued_handed :
    let c : Conditions := ⟨.ofSlotBytes 16, true⟩
    let start := ofQueue ⟨"work", ⟨#[none, none], 0, 0, some 3⟩, .quiet, [], 0, 0, 0⟩
    let crowded := (start.step c 20 [.spawn "p" (.submit (.tagged 1)),
      .spawn "q" (.submit (.tagged 2)), .spawn "r" (.submit (.tagged 3))]).2
    let emptied := (crowded.step c 20
      [.spawn "w" (.consume none 100 (Script.handler ⟨[], [], [(1, 9)], []⟩) false)]).2
    let told := (performAll c.memory [.stop, .cancel "w"] emptied).2
    crowded.pending = ["r"] ∧
    told.removed = [.data (.tagged 1), .data (.tagged 2), .data (.tagged 9), .data (.tagged 3)] ∧
    told.queue.toList = [.stop] ∧ told.removed ++ told.queue.toList = told.accepted := by
  intro c start crowded emptied told
  have hmade : Queue.ofSettings c.memory ⟨"work", 2, some 3, 100⟩ = .ok start.queue := rfl
  have hcrowded : crowded.Reachable :=
    Reachable.step c 20 _ ⟨start.queue, .ofSettings hmade, .refl⟩ rfl
  have hemptied : emptied.Reachable := hcrowded.step c 20 _ (by decide +kernel)
  have htold : told.Reachable := hemptied.performAll _ _ (by decide +kernel)
  exact ⟨by decide +kernel, by decide +kernel, by decide +kernel, removed_append_queued htold⟩

end Handoff.Executor
