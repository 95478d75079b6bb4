/-
Handoff.Proofs.Executor.Move — everything that can happen to an executor.

`Move x y` lists, one constructor for each, what a command or a turn can do, with what has to hold
for it: who runs, what its job is, what it found. `Reaches.moves` says that a run is a sequence of
moves. A property of all runs is therefore proved by looking at one move at a time, and the
functions of the executor need not be opened again.

A turn of a consumer that was waiting is two moves: it stops waiting, and then goes on like one that
was not (`turn_cases`). A command that adds a consumer which is to be shut down first is two moves
as well. All others are one move or none.

  §1 moves      — `Runs`, `Move`
  §2 turns      — `turn_cases`, `turn_moves`
  §3 commands   — `CallerMoves`, `perform_moves`
  §4 runs       — `Reaches.moves`, `Reachable.induction`, `Reaches.step`, `Reachable.step`
-/
import Mathlib.Logic.Relation
import Handoff.Proofs.Executor.Frame
import Handoff.Proofs.Executor.Run

namespace Handoff.Executor

/-! ## §1 Moves -/

/-- The task runs. -/
structure Runs (x : Executor) (id : TaskId) (task : Task) : Prop where
  running_eq : x.running = some id
  task_eq : x.tasks[id]? = some task

/-- The executor with one more task, which is woken. -/
def add (x : Executor) (label : String) (duty : Duty) : Executor :=
  ({ x with
    tasks := x.tasks ++ [⟨label, jobOf x.tasks.length duty, true, false, none⟩] } : Executor).wake
    x.tasks.length

/-- One thing that happens to an executor. -/
inductive Move (x : Executor) : Executor → Prop where
  /-- A caller's push is accepted. -/
  | callerPush {memory : Memory} {message : Message} {y : Executor} (free : x.running = none)
      (accepted : x.push memory .caller message = .ok y) : Move x y
  /-- A caller takes messages. -/
  | callerTake {messages : List Message} {ring : Ring Message} (free : x.running = none)
      (some : messages ≠ []) (leaves : x.queue.ring.Leaves messages ring) :
      Move x (x.taken .caller messages ring)
  | add (label : String) (duty : Duty) (free : x.running = none) : Move x (x.add label duty)
  | cancel {id : TaskId} {task : Task} (free : x.running = none)
      (found : x.tasks[id]? = some task) (live : task.live = true) : Move x (x.cancel id)
  | callerTrigger (handle : HandleId) (free : x.running = none) : Move x (x.trigger handle)
  | advance (millis : Nat) (free : x.running = none) : Move x (x.advance millis)
  /-- The task that was woken first starts to run. -/
  | start {id : TaskId} {rest : List TaskId} (free : x.running = none)
      (first : x.woken = id :: rest) : Move x { x with running := some id, woken := rest }
  /-- A task that does not exist comes to rest. -/
  | vanish {id : TaskId} (running : x.running = some id) (absent : x.tasks[id]? = none) :
      Move x x.rest
  /-- A receiver takes a message and ends. -/
  | receive {id : TaskId} {task : Task} {message : Message} {ring : Ring Message}
      (runs : x.Runs id task) (job : task.job = .receive)
      (leaves : x.queue.ring.Leaves [message] ring) :
      Move x (((x.heed id).taken (.task id) [message] ring).finish id (.received message))
  /-- A receiver finds no message but a permit, which it spends. -/
  | receiveAgain {id : TaskId} {task : Task} (runs : x.Runs id task) (job : task.job = .receive)
      (empty : x.queue.ring.Holds []) (permit : x.queue.ready.permit = true) :
      Move x ((x.heed id).withReady x.queue.ready.spend)
  /-- A receiver finds no message and waits. -/
  | receiveWait {id : TaskId} {task : Task} (runs : x.Runs id task) (job : task.job = .receive)
      (empty : x.queue.ring.Holds []) (permit : x.queue.ready.permit = false) :
      Move x ((x.heed id).awaitReady id)
  /-- A task that waits for one notification has it and ends. -/
  | ready {id : TaskId} {task : Task} (runs : x.Runs id task) (job : task.job = .awaitReady)
      (noticed : task.noticed = true) : Move x ((x.heed id).finish id .ready)
  /-- A task that waits for one notification spends a permit and ends. -/
  | readyAtOnce {id : TaskId} {task : Task} (runs : x.Runs id task) (job : task.job = .awaitReady)
      (noticed : task.noticed = false) (permit : x.queue.ready.permit = true) :
      Move x ((x.withReady x.queue.ready.spend).finish id .ready)
  | readyWait {id : TaskId} {task : Task} (runs : x.Runs id task) (job : task.job = .awaitReady)
      (noticed : task.noticed = false) (permit : x.queue.ready.permit = false) :
      Move x (x.awaitReady id)
  /-- A producer's push is accepted and it ends. -/
  | deliver {memory : Memory} {id : TaskId} {task : Task} {message : Message} {y : Executor}
      (runs : x.Runs id task) (job : task.job.message? = some message)
      (accepted : x.push memory (.task id) message = .ok y) : Move x (y.finish id .accepted)
  /-- A producer finds the queue full and at its ceiling, and waits for room. -/
  | queueUp {memory : Memory} {id : TaskId} {task : Task} {message : Message}
      {rejection : Rejection Message} (runs : x.Runs id task)
      (job : task.job.message? = some message)
      (rejected : x.push memory (.task id) message = .error rejection)
      (full : rejection.isFull = true) : Move x (x.awaitSpace id)
  /-- A producer's push fails otherwise and it ends. -/
  | giveUp {memory : Memory} {id : TaskId} {task : Task} {message : Message}
      {rejection : Rejection Message} (runs : x.Runs id task)
      (job : task.job.message? = some message)
      (rejected : x.push memory (.task id) message = .error rejection)
      (full : rejection.isFull = false) : Move x (x.finish id (task.job.refusal rejection))
  /-- A consumer that waited goes away from its lists. -/
  | stopWaiting {id : TaskId} {task : Task} {consumer : Consumer} {deadline : Nat}
      (readyFirst : Bool) (runs : x.Runs id task) (job : task.job = .consume consumer)
      (waited : task.deadline = some deadline) :
      Move x (x.stopWaiting readyFirst id consumer deadline)
  /-- A consumer sees that its handle was triggered and ends. -/
  | shutDown {id : TaskId} {task : Task} {consumer : Consumer} (runs : x.Runs id task)
      (job : task.job = .consume consumer) (awake : task.deadline = none)
      (triggered : x.isTriggered consumer.handle = true) :
      Move x (x.finish id (.reported (consumer.report .shutdown)))
  /-- A consumer takes a stop message and ends. -/
  | takeStop {id : TaskId} {task : Task} {consumer : Consumer} {ring : Ring Message}
      (runs : x.Runs id task) (job : task.job = .consume consumer) (awake : task.deadline = none)
      (triggered : x.isTriggered consumer.handle = false)
      (leaves : x.queue.ring.Leaves [.stop] ring) :
      Move x ((x.taken (.task id) [.stop] ring).finish id
        (.reported (consumer.report .stopMessage)))
  /-- A consumer takes an item, which its handler handles. -/
  | handle {memory : Memory} {id : TaskId} {task : Task} {consumer : Consumer} {item : WorkItem}
      {ring : Ring Message} (runs : x.Runs id task) (job : task.job = .consume consumer)
      (awake : task.deadline = none) (triggered : x.isTriggered consumer.handle = false)
      (leaves : x.queue.ring.Leaves [.data item] ring) :
      Move x ((x.taken (.task id) [.data item] ring).handle memory id consumer item)
  /-- A consumer finds no message but a permit, which it spends. -/
  | consumeAgain {id : TaskId} {task : Task} {consumer : Consumer} (runs : x.Runs id task)
      (job : task.job = .consume consumer) (awake : task.deadline = none)
      (triggered : x.isTriggered consumer.handle = false) (empty : x.queue.ring.Holds [])
      (permit : x.queue.ready.permit = true) : Move x (x.withReady x.queue.ready.spend)
  /-- A consumer finds no message and waits. -/
  | consumeWait {id : TaskId} {task : Task} {consumer : Consumer} (runs : x.Runs id task)
      (job : task.job = .consume consumer) (awake : task.deadline = none)
      (triggered : x.isTriggered consumer.handle = false) (empty : x.queue.ring.Holds [])
      (permit : x.queue.ready.permit = false) : Move x (x.awaitAny id consumer)

/-- Any number of moves. -/
abbrev Moves : Executor → Executor → Prop := Relation.ReflTransGen Move

/-! ## §2 Turns -/

theorem pollReceive_move {x : Executor} {id : TaskId} {task : Task} {items : List Message}
    (hx : x.queue.ring.Holds items) (runs : x.Runs id task) (job : task.job = .receive) :
    x.Move (x.pollReceive id) := by
  unfold pollReceive
  have hheed : (x.heed id).queue.ring.Holds items := hx
  cases items with
  | nil =>
    rw [pop_nil hheed]
    cases hpermit : x.queue.ready.permit with
    | true =>
      show x.Move ((x.heed id).awaitReadyOr _ _)
      rw [awaitReadyOr_permit (x := x.heed id) hpermit]
      exact .receiveAgain runs job hx hpermit
    | false =>
      show x.Move ((x.heed id).awaitReadyOr _ _)
      rw [awaitReadyOr_wait (x := x.heed id) hpermit]
      exact .receiveWait runs job hx hpermit
  | cons message rest =>
    rw [pop_cons hheed]
    exact .receive runs job hx.leaves_pop

theorem pollReady_move {x : Executor} {id : TaskId} {task : Task} (runs : x.Runs id task)
    (job : task.job = .awaitReady) : x.Move (x.pollReady id) := by
  unfold pollReady
  rw [isNoticed_eq runs.task_eq]
  cases hnoticed : task.noticed with
  | true => exact .ready runs job hnoticed
  | false =>
    rw [if_neg (by simp)]
    cases hpermit : x.queue.ready.permit with
    | true =>
      rw [awaitReadyOr_permit hpermit]
      exact .readyAtOnce runs job hnoticed hpermit
    | false =>
      rw [awaitReadyOr_wait hpermit]
      exact .readyWait runs job hnoticed hpermit

theorem pollPush_move (memory : Memory) {x : Executor} {id : TaskId} {task : Task}
    {message : Message} (runs : x.Runs id task) (job : task.job.message? = some message) :
    x.Move (x.pollPush memory id task.job message) := by
  unfold pollPush
  cases hpush : x.push memory (.task id) message with
  | ok y => exact .deliver runs job hpush
  | error rejection =>
    cases hfull : rejection.isFull with
    | true =>
      simp only [hfull, if_true]
      exact .queueUp runs job hpush hfull
    | false =>
      simp only [hfull]
      exact .giveUp runs job hpush hfull

theorem pollActive_move (memory : Memory) {x : Executor} {id : TaskId} {task : Task}
    {consumer : Consumer} {items : List Message} (hx : x.queue.ring.Holds items)
    (runs : x.Runs id task) (job : task.job = .consume consumer) (awake : task.deadline = none) :
    x.Move (x.pollActive memory id consumer) := by
  unfold pollActive
  cases htrig : x.isTriggered consumer.handle with
  | true => exact .shutDown runs job awake htrig
  | false =>
    rw [if_neg (by simp)]
    cases items with
    | nil =>
      rw [pop_nil hx]
      cases hpermit : x.queue.ready.permit with
      | true =>
        show x.Move (x.awaitReadyOr _ _)
        rw [awaitReadyOr_permit hpermit]
        exact .consumeAgain runs job awake htrig hx hpermit
      | false =>
        show x.Move (x.awaitReadyOr _ _)
        rw [awaitReadyOr_wait hpermit]
        exact .consumeWait runs job awake htrig hx hpermit
    | cons message rest =>
      rw [pop_cons hx]
      cases message with
      | stop => exact .takeStop runs job awake htrig hx.leaves_pop
      | data item => exact .handle runs job awake htrig hx.leaves_pop

/-- A consumer that has stopped waiting runs on, as one that does not wait. -/
theorem runs_stopWaiting (readyFirst : Bool) {x : Executor} {id : TaskId} {task : Task}
    (runs : x.Runs id task) (consumer : Consumer) (deadline : Nat) :
    ∃ noticed, (x.stopWaiting readyFirst id consumer deadline).Runs id
      { task with noticed, deadline := none } := by
  have hdetached := tasks_detached runs.task_eq
  let P (y : Executor) : Prop := ∃ noticed, y.Runs id { task with noticed, deadline := none }
  refine stopWaiting_induction (P := P) readyFirst runs.task_eq consumer deadline ?_ ?_
  · exact ⟨false, runs.running_eq, hdetached⟩
  · obtain ⟨noticed, hnoticed⟩ := tasks_notifyReady hdetached
    refine ⟨noticed, ?_, hnoticed⟩
    rw [notifyReady_keeps running _ (fun _ _ _ => rfl)]
    exact runs.running_eq

theorem ring_stopWaiting (readyFirst : Bool) {x : Executor} {id : TaskId} {task : Task}
    (h : x.tasks[id]? = some task) (consumer : Consumer) (deadline : Nat) :
    (x.stopWaiting readyFirst id consumer deadline).queue.ring = x.queue.ring :=
  stopWaiting_keeps (·.queue.ring) readyFirst h consumer deadline rfl (fun _ _ _ _ => rfl)

/-- A consumer that waited has got to run. -/
def Stirs (x : Executor) : Prop :=
  ∃ id task consumer deadline, x.Runs id task ∧ task.job = .consume consumer ∧
    task.deadline = some deadline

theorem Runs.unique {x : Executor} {id other : TaskId} {task rival : Task} (h : x.Runs id task)
    (h' : x.Runs other rival) : id = other ∧ task = rival := by
  have hid := h.running_eq
  rw [h'.running_eq, Option.some.injEq] at hid
  subst hid
  have htask := h.task_eq
  rw [h'.task_eq, Option.some.injEq] at htask
  exact ⟨rfl, htask.symm⟩

theorem not_stirs_of_free {x : Executor} (free : x.running = none) : ¬ x.Stirs := by
  rintro ⟨id, task, consumer, deadline, runs, -⟩
  have hrunning := runs.running_eq
  rw [free] at hrunning
  cases hrunning

/-- A task that is no consumer, or does not wait for its time, does not stir. -/
theorem not_stirs_of_runs {x : Executor} {id : TaskId} {task : Task} (runs : x.Runs id task)
    (h : ∀ consumer, task.job = .consume consumer → task.deadline = none) : ¬ x.Stirs := by
  rintro ⟨other, rival, consumer, deadline, hruns, job, waited⟩
  obtain ⟨-, rfl⟩ := runs.unique hruns
  rw [h consumer job] at waited
  cases waited

/-- A poll is one move, unless the task is a consumer that was waiting: that one stops waiting
first. -/
theorem poll_cases (c : Conditions) {x : Executor} {id : TaskId} {items : List Message}
    (hx : x.queue.ring.Holds items) (running : x.running = some id) :
    ¬ x.Stirs ∧ x.Move (x.poll c id) ∨
    ∃ task consumer deadline, x.Runs id task ∧ task.job = .consume consumer ∧
      task.deadline = some deadline ∧
      ¬ (x.stopWaiting c.readyFirst id consumer deadline).Stirs ∧
      (x.stopWaiting c.readyFirst id consumer deadline).Move (x.poll c id) := by
  unfold poll
  cases htask : x.tasks[id]? with
  | none =>
    refine .inl ⟨?_, .vanish running htask⟩
    rintro ⟨other, rival, _, _, hruns, -⟩
    have hid := hruns.running_eq
    rw [running, Option.some.injEq] at hid
    subst hid
    rw [hruns.task_eq] at htask
    cases htask
  | some task =>
    have runs : x.Runs id task := ⟨running, htask⟩
    obtain ⟨label, job, live, noticed, deadline⟩ := task
    have hother : (∀ consumer, job ≠ .consume consumer) → ¬ x.Stirs := fun h =>
      not_stirs_of_runs runs fun consumer heq => absurd heq (h consumer)
    cases job with
    | receive => exact .inl ⟨hother (by simp), pollReceive_move hx runs rfl⟩
    | awaitReady => exact .inl ⟨hother (by simp), pollReady_move runs rfl⟩
    | push message => exact .inl ⟨hother (by simp), pollPush_move c.memory runs rfl⟩
    | submit item => exact .inl ⟨hother (by simp), pollPush_move c.memory runs rfl⟩
    | stop => exact .inl ⟨hother (by simp), pollPush_move c.memory runs rfl⟩
    | consume consumer =>
      cases deadline with
      | none =>
        exact .inl ⟨not_stirs_of_runs runs fun _ _ => rfl, pollActive_move c.memory hx runs rfl rfl⟩
      | some deadline =>
        obtain ⟨noticed, hruns⟩ := runs_stopWaiting c.readyFirst runs consumer deadline
        have hring := ring_stopWaiting c.readyFirst htask consumer deadline
        exact .inr ⟨_, consumer, deadline, runs, rfl, rfl, not_stirs_of_runs hruns fun _ _ => rfl,
          pollActive_move c.memory (hring ▸ hx) hruns rfl rfl⟩

/-- A turn of a producer is an attempt to push its message. -/
theorem turn_push (c : Conditions) {x : Executor} {id : TaskId} {task : Task} {message : Message}
    (runs : x.Runs id task) (job : task.job.message? = some message) :
    x.turn c = x.pollPush c.memory id task.job message := by
  unfold turn
  rw [runs.running_eq]
  show x.poll c id = _
  unfold poll
  rw [runs.task_eq]
  obtain ⟨label, taskJob, live, noticed, deadline⟩ := task
  cases taskJob with
  | push pushed => cases job; rfl
  | submit item => cases job; rfl
  | stop => cases job; rfl
  | receive => cases job
  | awaitReady => cases job
  | consume consumer => cases job

/-- A turn of a consumer that was waiting is one of a consumer that has stopped to. -/
theorem poll_of_idle (c : Conditions) {x : Executor} {id : TaskId} {task : Task}
    {consumer : Consumer} {deadline : Nat} (runs : x.Runs id task)
    (job : task.job = .consume consumer) (waited : task.deadline = some deadline) :
    x.poll c id =
      (x.stopWaiting c.readyFirst id consumer deadline).pollActive c.memory id consumer := by
  unfold poll
  rw [runs.task_eq]
  obtain ⟨label, taskJob, live, noticed, deadline?⟩ := task
  cases job
  cases waited
  rfl

/-- A turn is nothing, or one move, or two if a consumer that was waiting runs. -/
theorem turn_cases (c : Conditions) {x : Executor} {items : List Message}
    (hx : x.queue.ring.Holds items) :
    x.turn c = x ∨ ¬ x.Stirs ∧ x.Move (x.turn c) ∨
    ∃ id task consumer deadline, x.Runs id task ∧ task.job = .consume consumer ∧
      task.deadline = some deadline ∧
      ¬ (x.stopWaiting c.readyFirst id consumer deadline).Stirs ∧
      (x.stopWaiting c.readyFirst id consumer deadline).Move (x.turn c) := by
  unfold turn
  cases hrunning : x.running with
  | some id => exact .inr ((poll_cases c hx hrunning).imp_right fun h => ⟨id, h⟩)
  | none =>
    cases hwoken : x.woken with
    | nil => exact .inl rfl
    | cons id rest => exact .inr (.inl ⟨not_stirs_of_free hrunning, .start hrunning hwoken⟩)

theorem turn_moves (c : Conditions) {x : Executor} {items : List Message}
    (hx : x.queue.ring.Holds items) : x.Moves (x.turn c) := by
  rcases turn_cases c hx with h | ⟨-, h⟩ | ⟨id, task, consumer, deadline, runs, job, waited, -, h⟩
  · rw [h]
  · exact .single h
  · exact .tail (.single (.stopWaiting c.readyFirst runs job waited)) h

/-- At rest there is no turn to make. -/
theorem turn_of_atRest (c : Conditions) {x : Executor} (h : x.atRest = true) : x.turn c = x := by
  simp only [atRest, Bool.and_eq_true, Option.isNone_iff_eq_none, List.isEmpty_iff] at h
  unfold turn
  rw [h.1, h.2]

theorem settle_of_atRest (c : Conditions) (patience : Nat) {x : Executor}
    (h : x.atRest = true) : x.settle c patience = x := by
  cases patience with
  | zero => rfl
  | succ patience => exact if_pos h

/-! ## §3 Commands -/

/-- The ring of an executor after a move still holds some items. -/
theorem Move.holds {x y : Executor} (h : x.Move y) (hx : ∃ items, x.queue.ring.Holds items) :
    ∃ items, y.queue.ring.Holds items := by
  obtain ⟨items, hx⟩ := hx
  have hpush : ∀ {x y : Executor} {memory : Memory} {actor : Actor} {message : Message},
      (∃ items, x.queue.ring.Holds items) → x.push memory actor message = .ok y →
        ∃ items, y.queue.ring.Holds items := by
    rintro x y memory actor message ⟨items, hx⟩ hp
    obtain ⟨⟨placement, hring⟩, -⟩ := ring_push hp
    exact ⟨_, (hx.push hring).1⟩
  have hleft : ∀ {messages : List Message} {ring : Ring Message},
      x.queue.ring.Leaves messages ring → ∃ items, ring.Holds items := by
    rintro messages ring ⟨⟨others, -, hothers⟩, -, -⟩
    exact ⟨others, hothers⟩
  cases h with
  | callerPush _ accepted => exact hpush ⟨items, hx⟩ accepted
  | callerTake _ _ leaves => exact hleft leaves
  | add label duty => exact ⟨items, by rw [Executor.add, wake_eq]; exact hx⟩
  | @cancel id => exact ⟨items, by rw [ring_cancel]; exact hx⟩
  | callerTrigger handle => exact ⟨items, by rw [trigger_eq]; exact hx⟩
  | advance millis => exact ⟨items, by rw [Executor.advance, wakeAll_eq]; exact hx⟩
  | start => exact ⟨items, hx⟩
  | vanish => exact ⟨items, hx⟩
  | receive _ _ leaves => exact hleft leaves
  | receiveAgain => exact ⟨items, hx⟩
  | receiveWait => exact ⟨items, hx⟩
  | ready => exact ⟨items, hx⟩
  | readyAtOnce => exact ⟨items, hx⟩
  | readyWait => exact ⟨items, hx⟩
  | deliver _ _ accepted =>
    obtain ⟨after, hafter⟩ := hpush ⟨items, hx⟩ accepted
    exact ⟨after, hafter⟩
  | queueUp => exact ⟨items, hx⟩
  | giveUp => exact ⟨items, hx⟩
  | @stopWaiting id task consumer deadline readyFirst runs =>
    exact ⟨items, by rw [ring_stopWaiting readyFirst runs.task_eq]; exact hx⟩
  | shutDown => exact ⟨items, hx⟩
  | takeStop _ _ _ _ leaves => exact hleft leaves
  | @handle memory id task consumer item ring runs job awake triggered leaves =>
    exact actAll_induction (P := fun y => ∃ items, y.queue.ring.Holds items) consumer hpush
      (fun handle hy => by rw [trigger_eq]; exact hy) _ (hleft leaves)
  | consumeAgain => exact ⟨items, hx⟩
  | consumeWait => exact ⟨items, hx⟩

theorem Moves.holds {x y : Executor} (h : x.Moves y) (hx : ∃ items, x.queue.ring.Holds items) :
    ∃ items, y.queue.ring.Holds items := by
  induction h with
  | refl => exact hx
  | tail _ hmove ih => exact hmove.holds ih

/-- A number of moves, each made between two polls. -/
abbrev CallerMoves : Executor → Executor → Prop :=
  Relation.ReflTransGen fun x y => x.running = none ∧ x.Move y

theorem CallerMoves.moves {x y : Executor} (h : x.CallerMoves y) : x.Moves y := by
  induction h with
  | refl => exact .refl
  | tail _ move ih => exact ih.tail move.2

/-- A push from outside is a move, or nothing if it is rejected. -/
theorem submit_moves (memory : Memory) {x : Executor} (free : x.running = none)
    (message : Message) :
    x.CallerMoves (x.submit memory message).2 ∧ (x.submit memory message).2.running = none := by
  unfold submit
  cases hpush : x.push memory .caller message with
  | ok y => exact ⟨.single ⟨free, .callerPush free hpush⟩, (ring_push hpush).2.trans free⟩
  | error rejection => exact ⟨.refl, free⟩

theorem submitMany_moves (memory : Memory) (first : UInt64) (count done : Nat) {x : Executor}
    (free : x.running = none) :
    x.CallerMoves (submitMany memory first done count x).2 ∧
      (submitMany memory first done count x).2.running = none := by
  induction count generalizing done x with
  | zero => exact ⟨.refl, free⟩
  | succ count ih =>
    obtain ⟨hmoves, hfree⟩ :=
      submit_moves memory free (.data (.tagged (first + UInt64.ofNat done)))
    unfold submitMany
    generalize x.submit memory (.data (.tagged (first + UInt64.ofNat done))) = submitted at *
    obtain ⟨error, y⟩ := submitted
    cases error with
    | some error => exact ⟨hmoves, hfree⟩
    | none =>
      obtain ⟨hrest, hlast⟩ := ih (done + 1) hfree
      exact ⟨hmoves.trans hrest, hlast⟩

theorem spawn_eq (x : Executor) (label : String) (duty : Duty) :
    x.spawn label duty = x.add label duty ∨
      ∃ handle, x.spawn label duty = (x.trigger handle).add label duty := by
  have hadd : ∀ handle, (x.trigger handle).add label duty =
      ({ x.trigger handle with
        tasks := (x.trigger handle).tasks ++
          [⟨label, jobOf x.tasks.length duty, true, false, none⟩] } : Executor).wake
        x.tasks.length := by
    intro handle
    rw [add, tasks_trigger]
  cases duty with
  | consume shared pollInterval handler first =>
    cases first with
    | true => exact .inr ⟨_, (hadd _).symm⟩
    | false => exact .inl rfl
  | receive => exact .inl rfl
  | awaitReady => exact .inl rfl
  | push message => exact .inl rfl
  | submit item => exact .inl rfl
  | stop => exact .inl rfl

theorem spawn_moves {x : Executor} (free : x.running = none) (label : String) (duty : Duty) :
    x.CallerMoves (x.spawn label duty) ∧ (x.spawn label duty).running = none := by
  have hadd : ∀ y : Executor, (y.add label duty).running = y.running := by
    intro y
    rw [add, wake_eq]
  rcases x.spawn_eq label duty with h | ⟨handle, h⟩
  · rw [h, hadd]
    exact ⟨.single ⟨free, .add label duty free⟩, free⟩
  · have htriggered : (x.trigger handle).running = none := by rw [running_trigger, free]
    rw [h, hadd]
    exact ⟨.tail (.single ⟨free, .callerTrigger handle free⟩)
      ⟨htriggered, .add label duty htriggered⟩, htriggered⟩

/-- A label names a live task. -/
theorem find?_live {x : Executor} {label : String} {id : TaskId} (h : x.find? label = some id) :
    ∃ task, x.tasks[id]? = some task ∧ task.live = true := by
  obtain ⟨hlt, hfound, -⟩ := List.findIdx?_eq_some_iff_getElem.mp h
  refine ⟨x.tasks[id], List.getElem?_eq_getElem hlt, ?_⟩
  exact (Bool.and_eq_true_iff.mp hfound).1

/-- A push from outside leaves what a submission of the same message does. -/
theorem perform_push (memory : Memory) (x : Executor) (message : Message) :
    (x.perform memory (.push message)).2 = (x.submit memory message).2 := by
  cases hpush : x.push memory .caller message <;> simp only [perform, submit, hpush]

/-- What is cancelled is a live task, or nothing. -/
theorem perform_cancel (memory : Memory) (x : Executor) (label : String) :
    (x.perform memory (.cancel label)).2 = x ∨
      ∃ id task, x.tasks[id]? = some task ∧ task.live = true ∧
        (x.perform memory (.cancel label)).2 = x.cancel id := by
  cases hfind : x.find? label with
  | none => exact .inl (by simp only [perform, hfind])
  | some id =>
    obtain ⟨task, htask, hlive⟩ := find?_live hfind
    exact .inr ⟨id, task, htask, hlive, by simp only [perform, hfind]⟩

/-- A command that is made between two polls is a number of moves, and no task runs after it. -/
theorem perform_moves (memory : Memory) {x : Executor} {items : List Message}
    (hx : x.queue.ring.Holds items) (free : x.running = none) (command : Command) :
    x.CallerMoves (x.perform memory command).2 ∧ (x.perform memory command).2.running = none := by
  cases command with
  | submit item limit => exact submit_moves _ free (.data item)
  | submitMany first count => exact submitMany_moves memory first count 0 free
  | push message =>
    rw [perform_push]
    exact submit_moves memory free message
  | stop => exact submit_moves memory free .stop
  | pop =>
    show x.CallerMoves (x.pop .caller).2 ∧ (x.pop .caller).2.running = none
    cases items with
    | nil =>
      rw [pop_nil hx]
      exact ⟨.refl, free⟩
    | cons message rest =>
      rw [pop_cons hx]
      exact ⟨.single ⟨free, .callerTake free (by simp) hx.leaves_pop⟩, free⟩
  | drain =>
    show x.CallerMoves (x.drain .caller).2 ∧ (x.drain .caller).2.running = none
    cases items with
    | nil =>
      rw [drain_nil hx]
      exact ⟨.refl, free⟩
    | cons message rest =>
      rw [drain_cons hx]
      exact ⟨.single ⟨free, .callerTake free (by simp) hx.leaves_drain⟩, free⟩
  | spawn label duty => exact spawn_moves free label duty
  | cancel label =>
    rcases perform_cancel memory x label with h | ⟨id, task, htask, hlive, h⟩
    · rw [h]
      exact ⟨.refl, free⟩
    · rw [h]
      exact ⟨.single ⟨free, .cancel free htask hlive⟩, (running_cancel x id).trans free⟩
  | trigger handle =>
    exact ⟨.single ⟨free, .callerTrigger handle free⟩, (running_trigger x handle).trans free⟩
  | advance millis =>
    refine ⟨.single ⟨free, .advance millis free⟩, ?_⟩
    show (x.advance millis).running = none
    rw [advance, wakeAll_eq]
    exact free
  | peek => exact ⟨.refl, free⟩
  | stats => exact ⟨.refl, free⟩
  | look => exact ⟨.refl, free⟩
  | inspect id => exact ⟨.refl, free⟩
  | share => exact ⟨.refl, free⟩
  | isTriggered handle => exact ⟨.refl, free⟩

/-! ## §4 Runs -/

/-- A run is a number of moves. -/
theorem Reaches.moves {x y : Executor} (h : x.Reaches y)
    (hx : ∃ items, x.queue.ring.Holds items) : x.Moves y := by
  induction h with
  | refl => exact .refl
  | perform memory command _ free ih =>
    obtain ⟨items, hitems⟩ := ih.holds hx
    exact ih.trans (perform_moves memory hitems free command).1.moves
  | turn c _ ih =>
    obtain ⟨items, hitems⟩ := ih.holds hx
    exact ih.trans (turn_moves c hitems)

theorem holds_ofQueue {q : Queue Message} (h : q.Fresh) : (ofQueue q).queue.ring.Holds [] := by
  obtain ⟨memory, initial, max?, ring, hmade, hq⟩ := h.create
  rw [hq]
  exact (Ring.holds_create hmade).1

/-- What holds at the start and is kept by every move holds of every reachable executor. -/
theorem Reachable.induction {P : Executor → Prop} {x : Executor} (h : x.Reachable)
    (start : ∀ q : Queue Message, q.Fresh → P (ofQueue q))
    (move : ∀ y z : Executor, (∃ items, y.queue.ring.Holds items) → P y → y.Move z → P z) :
    P x := by
  obtain ⟨q, hq, hrun⟩ := h
  have hmoves := hrun.moves ⟨[], holds_ofQueue hq⟩
  have hboth : (∃ items, x.queue.ring.Holds items) ∧ P x := by
    clear hrun
    induction hmoves with
    | refl => exact ⟨⟨[], holds_ofQueue hq⟩, start q hq⟩
    | tail _ hmove ih =>
      obtain ⟨hholds, hP⟩ := ih
      exact ⟨hmove.holds hholds, move _ _ hholds hP hmove⟩
  exact hboth.2

theorem Reachable.holds {x : Executor} (h : x.Reachable) :
    x.queue.ring.Holds x.queue.toList := by
  refine Ring.Holds.of_exists (h.induction (P := fun y => ∃ items, y.queue.ring.Holds items) ?_ ?_)
  · exact fun q hq => ⟨[], holds_ofQueue hq⟩
  · exact fun y z hy _ hmove => hmove.holds hy

/-- A command that is made between two polls leads on, and no task runs after it. -/
theorem Reaches.command {q : Queue Message} (hq : q.Fresh) {x : Executor}
    (h : (ofQueue q).Reaches x) (memory : Memory) (command : Command) (free : x.running = none) :
    (ofQueue q).Reaches (x.perform memory command).2 ∧
      (x.perform memory command).2.running = none :=
  ⟨h.perform memory command free,
    (perform_moves memory (Reachable.holds ⟨q, hq, h⟩) free command).2⟩

theorem Reaches.performAll {q : Queue Message} (hq : q.Fresh) (memory : Memory)
    (commands : List Command) {x : Executor} (h : (ofQueue q).Reaches x)
    (free : x.running = none) :
    (ofQueue q).Reaches (performAll memory commands x).2 ∧
      (Executor.performAll memory commands x).2.running = none := by
  induction commands generalizing x with
  | nil => exact ⟨h, free⟩
  | cons command rest ih =>
    obtain ⟨hreach, hfree⟩ := h.command hq memory command free
    exact ih hreach hfree

theorem Reaches.settle (c : Conditions) (patience : Nat) {x y : Executor} (h : x.Reaches y) :
    x.Reaches (y.settle c patience) := by
  induction patience generalizing y with
  | zero => exact h
  | succ patience ih =>
    unfold Executor.settle
    split
    · exact h
    · exact ih (h.turn c)

/-- A step that is made between two polls leads on. -/
theorem Reaches.step {q : Queue Message} (hq : q.Fresh) (c : Conditions) (patience : Nat)
    (commands : List Command) {x : Executor} (h : (ofQueue q).Reaches x)
    (free : x.running = none) : (ofQueue q).Reaches (x.step c patience commands).2 :=
  (h.performAll hq c.memory commands free).1.settle c patience

theorem Reachable.perform {x : Executor} (h : x.Reachable) (memory : Memory) (command : Command)
    (free : x.running = none) :
    (x.perform memory command).2.Reachable ∧ (x.perform memory command).2.running = none := by
  obtain ⟨q, hq, hrun⟩ := h
  obtain ⟨hreach, hfree⟩ := hrun.command hq memory command free
  exact ⟨⟨q, hq, hreach⟩, hfree⟩

theorem Reachable.performAll (memory : Memory) (commands : List Command) {x : Executor}
    (h : x.Reachable) (free : x.running = none) :
    (performAll memory commands x).2.Reachable := by
  obtain ⟨q, hq, hrun⟩ := h
  exact ⟨q, hq, (hrun.performAll hq memory commands free).1⟩

theorem Reachable.after_turn {x : Executor} (h : x.Reachable) (c : Conditions) :
    (x.turn c).Reachable := by
  obtain ⟨q, hq, hrun⟩ := h
  exact ⟨q, hq, hrun.turn c⟩

theorem Reachable.settle (c : Conditions) (patience : Nat) {x : Executor} (h : x.Reachable) :
    (x.settle c patience).Reachable := by
  obtain ⟨q, hq, hrun⟩ := h
  exact ⟨q, hq, hrun.settle c patience⟩

/-- A step that is made between two polls leads from one reachable executor to another. -/
theorem Reachable.step (c : Conditions) (patience : Nat) (commands : List Command) {x : Executor}
    (h : x.Reachable) (free : x.running = none) : (x.step c patience commands).2.Reachable :=
  (h.performAll c.memory commands free).settle c patience

end Handoff.Executor
