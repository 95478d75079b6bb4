/-
Handoff.Proofs.Executor.Cancellation — a task that is cancelled takes nothing with it.

The lists lose the task and nobody else, so all others wait in the order in which they came; the
queue keeps its messages and its figures. Only a notification by `ready` on which the task has not
acted has to go somewhere: to the oldest other waiter, or, if nobody waits, into the permit
(`PassesOn`).

  §1 what is left behind   — `PassesOn`, `TakesAway`
  §2 cancelling            — `Orderly.takesAway`
-/
import Handoff.Proofs.Executor.Order

namespace Handoff.Executor

/-! ## §1 What is left behind -/

/-- What becomes of a notification by `ready` that a cancelled task holds, from `x` to `y`. -/
inductive PassesOn (x y : Executor) (id : TaskId) : Prop where
  /-- It holds none: for `ready`, for the order of running and for all other tasks only the
  cancelled one is gone. -/
  | nothing (heeded : x.isNoticed id = false)
      (ready : y.queue.ready =
        ⟨x.queue.ready.waiters.filter (· != id), x.queue.ready.permit⟩)
      (woken : y.woken = x.woken.filter (· != id))
      (others : ∀ i, i ≠ id → y.tasks[i]? = x.tasks[i]?)
  /-- The oldest other waiter gets it and is woken. -/
  | handed {oldest : TaskId} {rest : List TaskId} (held : x.isNoticed id = true)
      (waiters : x.queue.ready.waiters.filter (· != id) = oldest :: rest)
      (ready : y.queue.ready = ⟨rest, x.queue.ready.permit⟩)
      (woken : y.woken = enlist (x.woken.filter (· != id)) oldest)
      (told : ∃ task, x.tasks[oldest]? = some task ∧ task.live = true ∧
        y.tasks[oldest]? = some { task with noticed := true })
      (others : ∀ i, i ≠ id → i ≠ oldest → y.tasks[i]? = x.tasks[i]?)
  /-- Nobody else waits, and it becomes the permit. -/
  | kept (held : x.isNoticed id = true)
      (waiters : x.queue.ready.waiters.filter (· != id) = []) (ready : y.queue.ready = ⟨[], true⟩)
      (woken : y.woken = x.woken.filter (· != id))
      (others : ∀ i, i ≠ id → y.tasks[i]? = x.tasks[i]?)

/-- A task is gone in `y`, and everything else is as it was in `x`. -/
structure TakesAway (x y : Executor) (id : TaskId) : Prop where
  ring_eq : y.queue.ring = x.queue.ring
  stats_eq : y.queue.stats = x.queue.stats
  space_eq : y.queue.space = x.queue.space.filter (· != id)
  idle_eq : y.idle = x.idle.filter (·.2 != id)
  running_eq : y.running = x.running
  triggered_eq : y.triggered = x.triggered
  clock_eq : y.clock = x.clock
  journal_eq : y.journal = .cancelled id :: x.journal
  ended : ∀ task, x.tasks[id]? = some task →
    y.tasks[id]? = some { task with live := false, noticed := false, deadline := none }
  passesOn : x.PassesOn y id

variable {x y : Executor} {id : TaskId}

/-! ## §2 Cancelling -/

theorem tasks_gone {i : TaskId} (h : i ≠ id) : (x.gone id).tasks[i]? = x.tasks[i]? :=
  List.getElem?_modify_ne _ _ h.symm

theorem tasks_gone_self {task : Task} (h : x.tasks[id]? = some task) :
    (x.gone id).tasks[id]? =
      some { task with live := false, noticed := false, deadline := none } := by
  show (x.tasks.modify id _)[id]? = _
  rw [List.getElem?_modify_eq, h]
  rfl

/-- Nobody is on a list twice, so that to take a task off is to leave all others. -/
theorem Orderly.waiters_gone (hx : x.Orderly) (id : TaskId) :
    (x.gone id).queue.ready.waiters = x.queue.ready.waiters.filter (· != id) :=
  hx.ready_nodup.erase_eq_filter id

theorem Orderly.woken_gone (hx : x.Orderly) (id : TaskId) :
    (x.gone id).woken = x.woken.filter (· != id) := hx.woken_nodup.erase_eq_filter id

/-- A notification is for somebody who waits, and the task waits no longer. -/
theorem Orderly.not_waiter_gone (hx : x.Orderly) (id : TaskId) :
    id ∉ (x.gone id).queue.ready.waiters := hx.ready_nodup.not_mem_erase

theorem Orderly.passesOn_gone (hx : x.Orderly) (heeded : x.isNoticed id = false) :
    x.PassesOn (x.gone id) id := by
  refine .nothing heeded ?_ (hx.woken_gone id) fun _ hi => tasks_gone hi
  rw [← hx.waiters_gone id]
  rfl

/-- The notification goes to somebody else, for the task waits no longer. -/
theorem Orderly.passesOn_notifyReady (hx : x.Orderly) (held : x.isNoticed id = true) :
    x.PassesOn (x.gone id).notifyReady id := by
  have hgone := hx.waiters_gone id
  cases hwaiters : (x.gone id).queue.ready.waiters with
  | nil =>
    rw [notifyReady_nil hwaiters]
    exact .kept held (hgone.symm.trans hwaiters) rfl (hx.woken_gone id) fun _ hi => tasks_gone hi
  | cons oldest rest =>
    have hmem : oldest ∈ x.queue.ready.waiters.filter (· != id) := by
      rw [← hgone, hwaiters]
      exact List.mem_cons_self
    obtain ⟨hwaits, hne⟩ := List.mem_filter.mp hmem
    have hne : oldest ≠ id := by simpa using hne
    obtain ⟨task, htask, live, -⟩ := (hx.placed oldest).waiter hwaits
    rw [notifyReady_cons hwaiters, notice_eq]
    refine .handed held (hgone.symm.trans hwaiters) rfl ?_ ⟨task, htask, live, ?_⟩
      fun i hi hold => ?_
    · exact congrArg (enlist · oldest) (hx.woken_gone id)
    · show ((x.gone id).tasks.modify oldest _)[oldest]? = _
      rw [List.getElem?_modify_eq, tasks_gone hne, htask]
      rfl
    · exact (List.getElem?_modify_ne _ _ (Ne.symm hold)).trans (tasks_gone hi)

/-- What is cancelled has ended, whether or not somebody is told then. -/
theorem Orderly.ended_cancel (hx : x.Orderly) {task : Task} (htask : x.tasks[id]? = some task) :
    (x.cancel id).tasks[id]? =
      some { task with live := false, noticed := false, deadline := none } := by
  rw [cancel_eq hx.ready_nodup]
  split
  · cases hwaiters : (x.gone id).queue.ready.waiters with
    | nil =>
      rw [notifyReady_nil hwaiters]
      exact tasks_gone_self htask
    | cons oldest rest =>
      have hne : oldest ≠ id := by
        rintro rfl
        exact hx.not_waiter_gone oldest (hwaiters ▸ List.mem_cons_self)
      rw [notifyReady_cons hwaiters, notice_eq]
      exact (List.getElem?_modify_ne _ _ hne).trans (tasks_gone_self htask)
  · exact tasks_gone_self htask

/-- Nothing but `ready`, the tasks and their order shows whether somebody is told. -/
theorem Orderly.cancel_keeps {β : Type} (hx : x.Orderly) (id : TaskId) (f : Executor → β)
    (hf : ∀ (y : Executor) ready tasks woken, f { y.withReady ready with tasks, woken } = f y) :
    f (x.cancel id) = f (x.gone id) := by
  rw [cancel_eq hx.ready_nodup]
  split
  · exact notifyReady_keeps f _ (hf _)
  · rfl

/-- To cancel a task takes it away, and nothing else. -/
theorem Orderly.takesAway (hx : x.Orderly) (id : TaskId) : x.TakesAway (x.cancel id) id where
  ring_eq := hx.cancel_keeps id (·.queue.ring) fun _ _ _ _ => rfl
  stats_eq := hx.cancel_keeps id (·.queue.stats) fun _ _ _ _ => rfl
  space_eq := (hx.cancel_keeps id (·.queue.space) fun _ _ _ _ => rfl).trans
    (hx.space_nodup.erase_eq_filter id)
  idle_eq := hx.cancel_keeps id idle fun _ _ _ _ => rfl
  running_eq := hx.cancel_keeps id running fun _ _ _ _ => rfl
  triggered_eq := hx.cancel_keeps id triggered fun _ _ _ _ => rfl
  clock_eq := hx.cancel_keeps id clock fun _ _ _ _ => rfl
  journal_eq := hx.cancel_keeps id journal fun _ _ _ _ => rfl
  ended _ htask := hx.ended_cancel htask
  passesOn := by
    rw [cancel_eq hx.ready_nodup]
    cases hnoticed : x.isNoticed id with
    | false => exact hx.passesOn_gone hnoticed
    | true => exact hx.passesOn_notifyReady hnoticed

end Handoff.Executor
