/-
Handoff.Proofs.Executor.Ceiling — producers wait for room only where there is none.

While a producer waits for room, the queue stands at its ceiling with all slots taken but the one
that stays free: nothing can be accepted then, and the first removal wakes all producers that wait.
A queue without a ceiling has nobody waiting for room, and a producer that gets to run there ends at
once.

  §1 waiting for room      — `Uncrowded`, `Reachable.uncrowded`
  §2 without a ceiling     — `EndedWith`, `turn_push_of_unbounded`
  §3 both                  — `waiting_producers_at_ceiling`
-/
import Handoff.Proofs.Executor.Flow

namespace Handoff.Executor

/-! ## §1 Waiting for room -/

/-- The queue stands at its ceiling and one slot is free. -/
def AtCeiling (x : Executor) : Prop :=
  x.queue.ring.maxCapacity = some x.queue.capacity ∧ x.queue.count + 1 = x.queue.capacity

/-- Producers wait for room only at the ceiling. -/
structure Uncrowded (x : Executor) : Prop where
  holds : ∃ items, x.queue.ring.Holds items
  full : x.queue.space ≠ [] → x.AtCeiling

theorem space_notifyReady (x : Executor) : x.notifyReady.queue.space = x.queue.space :=
  notifyReady_keeps (·.queue.space) x (fun _ _ _ => rfl)

theorem Uncrowded.flow {x y : Executor} (hx : x.Uncrowded) (h : x.Flow y) : y.Uncrowded := by
  obtain ⟨⟨items, hitems⟩, hfull⟩ := hx
  cases h with
  | still hstill =>
    refine ⟨⟨items, by rw [hstill.ring_eq]; exact hitems⟩, fun hspace => ?_⟩
    have hbefore : x.queue.space ≠ [] := by
      intro hnil
      have hsub := hstill.space_subset
      rw [hnil] at hsub
      exact hspace (List.subset_nil.mp hsub)
    have hat := hfull hbefore
    unfold AtCeiling Queue.capacity Queue.count at hat ⊢
    rwa [hstill.ring_eq]
  | @accept memory actor message _ accepted =>
    obtain ⟨placement, ring, hring, rfl⟩ := push_ok accepted
    have hstill := Still.notifyReady (x.stored actor message placement ring)
    refine ⟨⟨_, by rw [hstill.ring_eq]; exact (hitems.push hring).1⟩, fun hspace => ?_⟩
    -- At the ceiling the ring would have rejected the message.
    rw [space_notifyReady] at hspace
    obtain ⟨hmax, hlast⟩ := hfull hspace
    unfold Queue.count at hlast
    rw [hitems.count_eq] at hlast
    obtain ⟨rejection, hrejected⟩ : ∃ rejection, x.queue.ring.push memory message =
        .error rejection := hitems.push_full hmax hlast
    rw [hrejected] at hring
    cases hring
  | take actor _ leaves =>
    obtain ⟨others, -, hothers⟩ := leaves.holds
    exact ⟨⟨others, hothers⟩, fun hspace => absurd rfl hspace⟩
  | lineUp id rejected full =>
    obtain ⟨max, hmax, hcap, hlast⟩ := hitems.full_of_push (push_error rejected) full
    refine ⟨⟨items, hitems⟩, fun _ => ⟨?_, ?_⟩⟩
    · show x.queue.ring.maxCapacity = some x.queue.ring.capacity
      rw [hmax, hcap]
    · show x.queue.ring.count + 1 = x.queue.ring.capacity
      rw [hitems.count_eq]
      omega

theorem Reachable.uncrowded {x : Executor} (h : x.Reachable) : x.Uncrowded := by
  refine h.flow_induction ?_ (fun _ _ hy hflow => hy.flow hflow)
  intro q hq
  refine ⟨⟨[], holds_ofQueue hq⟩, fun hspace => absurd ?_ hspace⟩
  obtain ⟨_, _, _, ring, _, hq⟩ := hq.create
  rw [hq]
  rfl

/-! ## §2 Without a ceiling -/

/-- The task has ended with this outcome, and no task runs. -/
structure EndedWith (x : Executor) (id : TaskId) (outcome : Outcome) : Prop where
  running_eq : x.running = none
  live_eq : ∃ task, x.tasks[id]? = some task ∧ task.live = false
  journal_eq : x.journal.head? = some (.finished id outcome)

theorem endedWith_finish {x : Executor} {id : TaskId} {task : Task} (h : x.tasks[id]? = some task)
    (outcome : Outcome) : (x.finish id outcome).EndedWith id outcome := by
  refine ⟨rfl, ⟨{ task with live := false }, ?_⟩, rfl⟩
  simp [finish, updateTask, record, rest, h]

/-- Without a ceiling a producer that runs has its message accepted, or ends because the ring cannot
grow; it does not wait. -/
theorem turn_push_of_unbounded (c : Conditions) {x : Executor} (h : x.Reachable)
    (hmax : x.queue.ring.maxCapacity = none) {id : TaskId} {task : Task} {message : Message}
    (runs : x.Runs id task) (job : task.job.message? = some message) :
    ∃ outcome, (x.turn c).EndedWith id outcome ∧
      (outcome = .accepted ∨
        ∃ rejection, rejection.isFull = false ∧ outcome = task.job.refusal rejection) := by
  rw [turn_push c runs job]
  unfold pollPush
  cases hpush : x.push c.memory (.task id) message with
  | ok y =>
    obtain ⟨placement, ring, -, rfl⟩ := push_ok hpush
    obtain ⟨noticed, htask⟩ := tasks_notifyReady
      (show (x.stored (.task id) message placement ring).tasks[id]? = some task from runs.task_eq)
    exact ⟨.accepted, endedWith_finish htask _, .inl rfl⟩
  | error rejection =>
    cases hfull : rejection.isFull with
    | true =>
      obtain ⟨max, hsome, -⟩ := h.holds.full_of_push (push_error hpush) hfull
      rw [hmax] at hsome
      cases hsome
    | false =>
      simp only [hfull]
      exact ⟨_, endedWith_finish runs.task_eq _, .inr ⟨rejection, hfull, rfl⟩⟩

/-! ## §3 Both -/

/-- **Producers wait for room only where there is none**: while one waits, the queue stands at its
ceiling and holds one message less than that; and where there is no ceiling, the first turn of a
producer that runs is its last. -/
theorem waiting_producers_at_ceiling {x : Executor} (h : x.Reachable) :
    (∀ id ∈ x.queue.space, ∃ max, x.queue.ring.maxCapacity = some max ∧
      x.queue.capacity = max ∧ x.queue.count = max - 1) ∧
    (x.queue.ring.maxCapacity = none → ∀ c id task message, x.Runs id task →
      task.job.message? = some message → ∃ outcome, (x.turn c).EndedWith id outcome ∧
        (outcome = .accepted ∨
          ∃ rejection, rejection.isFull = false ∧ outcome = task.job.refusal rejection)) := by
  constructor
  · intro id hid
    obtain ⟨hmax, hlast⟩ := h.uncrowded.full (List.ne_nil_of_mem hid)
    exact ⟨x.queue.capacity, hmax, rfl, by omega⟩
  · intro hmax c id task message runs job
    exact turn_push_of_unbounded c h hmax runs job

/-- Of three producers the last finds a queue of three slots at its ceiling; a producer of a queue
without a ceiling is about to end. -/
theorem waiting_producers_at_ceiling_third :
    let c : Conditions := ⟨.ofSlotBytes 16, true⟩
    let bounded := ofQueue ⟨"work", ⟨#[none, none], 0, 0, some 3⟩, .quiet, [], 0, 0, 0⟩
    let crowded := (bounded.step c 20 [.spawn "p" (.submit (.tagged 1)),
      .spawn "q" (.submit (.tagged 2)), .spawn "r" .stop]).2
    let unbounded := ofQueue ⟨"work", ⟨#[none], 0, 0, none⟩, .quiet, [], 0, 0, 0⟩
    let started := (performAll c.memory [.spawn "s" .stop] unbounded).2.turn c
    (crowded.queue.space = [2] ∧ ∃ max, crowded.queue.ring.maxCapacity = some max ∧
      crowded.queue.capacity = max ∧ crowded.queue.count = max - 1) ∧
    ∃ outcome, (started.turn c).EndedWith 0 outcome ∧ (outcome = .accepted ∨
      ∃ rejection, rejection.isFull = false ∧ outcome = Job.stop.refusal rejection) := by
  intro c bounded crowded unbounded started
  have hbounded : Queue.ofSettings c.memory ⟨"work", 2, some 3, 100⟩ = .ok bounded.queue := rfl
  have hcrowded : crowded.Reachable :=
    Reachable.step c 20 _ ⟨bounded.queue, .ofSettings hbounded, .refl⟩ rfl
  have hspace : crowded.queue.space = [2] := by decide +kernel
  have hunbounded : Queue.withCapacity c.memory 1 = .ok unbounded.queue := rfl
  have hstarted : started.Reachable :=
    ⟨unbounded.queue, .withCapacity hunbounded,
      .turn c (.perform c.memory (.spawn "s" .stop) .refl rfl)⟩
  have hruns : started.Runs 0 ⟨"s", .stop, true, false, none⟩ := ⟨rfl, rfl⟩
  exact ⟨⟨hspace, (waiting_producers_at_ceiling hcrowded).1 2 (by simp [hspace])⟩,
    (waiting_producers_at_ceiling hstarted).2 rfl c 0 _ .stop hruns rfl⟩

end Handoff.Executor
