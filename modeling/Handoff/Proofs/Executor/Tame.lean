/-
Handoff.Proofs.Executor.Tame — consumers that make no work of their own.

A consumer is tame if its handler pushes no items and if it sleeps for some time when there is
nothing to do. The handler may refuse items, push stop messages and trigger handles; and settings
without fault give every consumer an interval to sleep. Tasks that have ended do not matter.

No turn makes another consumer of a task, and none wakes the dead, so the consumers stay tame as
long as only tame ones are added (`Tame.turn`, `Tame.performAll`).

  §1 tame consumers   — `Handler.Tame`, `Tame`, `Command.Tame`
  §2 no new tasks     — `Move.length_eq`, `length_perform`
  §3 runs             — `Tame.moves`, `Tame.turn`, `Tame.performAll`, `Tame.step`
-/
import Handoff.Proofs.Executor.Entries

namespace Handoff

/-! ## §1 Tame consumers -/

/-- A handler never pushes an item, and a consumer with it sleeps for some time. -/
structure Handler.Tame (handler : Handler) (pollInterval : Nat) : Prop where
  pushes_none : ∀ n item pushed, .submit pushed ∉ (handler n item).actions
  sleeps : 0 < pollInterval

/-- The new task, if it is a consumer, is tame. -/
def Duty.Tame : Duty → Prop
  | .consume _ pollInterval handler _ => handler.Tame pollInterval
  | .receive | .awaitReady | .push _ | .submit _ | .stop => True

/-- The command adds no consumer that is not tame. -/
def Command.Tame : Command → Prop
  | .spawn _ duty => duty.Tame
  | _ => True

/-- A script without items to push is a tame handler. -/
theorem Script.tame {s : Script} (emits : s.emits = []) {pollInterval : Nat}
    (sleeps : 0 < pollInterval) : Handler.Tame s.handler pollInterval := by
  refine ⟨fun n item pushed hmem => ?_, sleeps⟩
  simp only [handler, actionsAt, emits, List.filter_nil, List.map_nil, List.append_nil,
    List.mem_append] at hmem
  rcases hmem with hmem | hmem
  · split at hmem <;> simp at hmem
  · split at hmem <;> simp at hmem

namespace Executor

variable {x y : Executor} {id : TaskId} {task : Task}

/-- All consumers that have not ended are tame. -/
def Tame (x : Executor) : Prop :=
  ∀ task ∈ x.tasks, task.live = true → ∀ consumer, task.job = .consume consumer →
    consumer.handler.Tame consumer.pollInterval

theorem tame_iff : x.Tame ↔ ∀ (id : TaskId) (consumer : Consumer),
    x.workers[id]? = some (some (consumer, true)) →
      consumer.handler.Tame consumer.pollInterval := by
  constructor
  · intro h id consumer worker
    obtain ⟨task, htask, hworker⟩ := workers_eq_some worker
    obtain ⟨job, live⟩ := Task.worker?_eq_some hworker
    exact h task (List.mem_of_getElem? htask) live consumer job
  · intro h task hmem live consumer job
    obtain ⟨id, htask⟩ := List.getElem?_of_mem hmem
    refine h id consumer ?_
    rw [workers_of_job htask job, live]

/-- The consumer that runs is tame. -/
theorem Tame.of_runs (tame : x.Tame) (hx : x.Orderly) (runs : x.Runs id task)
    {consumer : Consumer} (job : task.job = .consume consumer) :
    consumer.handler.Tame consumer.pollInterval :=
  tame task (List.mem_of_getElem? runs.task_eq) (hx.live_of_runs runs) consumer job

/-! ## §2 No new tasks -/

theorem length_of_map {β : Type} {g : Task → β} (h : y.tasks.map g = x.tasks.map g) :
    y.tasks.length = x.tasks.length := by
  simpa using congrArg List.length h

theorem length_push {memory : Memory} {actor : Actor} {message : Message}
    (accepted : x.push memory actor message = .ok y) : y.tasks.length = x.tasks.length :=
  length_of_map (aspect_worker.push accepted)

/-- No task is added while one runs. -/
theorem Move.length_eq (running : x.running = some id) (h : x.Move y) :
    y.tasks.length = x.tasks.length := by
  have busy : x.running ≠ none := by simp [running]
  cases h with
  | callerPush free => exact absurd free busy
  | callerTake free => exact absurd free busy
  | add label duty free => exact absurd free busy
  | cancel free => exact absurd free busy
  | callerTrigger handle free => exact absurd free busy
  | advance millis free => exact absurd free busy
  | start free => exact absurd free busy
  | vanish => rfl
  | receive => simp [finish, taken, heed, updateTask, record, rest]
  | receiveAgain => simp [heed, updateTask, withReady]
  | receiveWait => simp [heed, updateTask, awaitReady, withReady, rest]
  | ready => simp [finish, heed, updateTask, record, rest]
  | readyAtOnce => simp [finish, updateTask, record, rest, withReady]
  | readyWait => rfl
  | deliver _ _ accepted =>
    rw [← length_push accepted]
    simp [finish, updateTask, record, rest]
  | queueUp => rfl
  | giveUp => simp [finish, updateTask, record, rest]
  | stopWaiting readyFirst runs =>
    exact length_of_map (aspect_worker.stopWaiting readyFirst runs.task_eq _ _)
  | shutDown => simp [finish, updateTask, record, rest]
  | takeStop => simp [finish, taken, updateTask, record, rest]
  | @handle memory id task consumer item ring =>
    have hacted : (actAll memory id consumer (consumer.react item).actions
        (x.taken (.task id) [.data item] ring)).2.workers = x.workers :=
      aspect_worker.actAll memory consumer _ _
    simpa [Executor.handle, updateTask, record, taken] using length_of_map hacted
  | consumeAgain => rfl
  | consumeWait => simp [awaitAny, awaitReady, updateTask, withReady, rest]

theorem length_turn (c : Conditions) {items : List Message} (hx : x.queue.ring.Holds items) :
    (x.turn c).tasks.length = x.tasks.length := by
  cases hrunning : x.running with
  | none =>
    unfold turn
    rw [hrunning]
    cases x.woken <;> rfl
  | some id =>
    have hturn : x.turn c = x.poll c id := by
      unfold turn
      rw [hrunning]
    rw [hturn]
    rcases poll_cases c hx hrunning with ⟨-, hmove⟩ | ⟨task, consumer, deadline, runs, -, -, -, hmove⟩
    · exact hmove.length_eq hrunning
    · obtain ⟨_, hruns⟩ := runs_stopWaiting c.readyFirst runs consumer deadline
      exact (hmove.length_eq hruns.running_eq).trans
        (length_of_map (aspect_worker.stopWaiting c.readyFirst runs.task_eq consumer deadline))

theorem length_submit (memory : Memory) (x : Executor) (message : Message) :
    (x.submit memory message).2.tasks.length = x.tasks.length := by
  unfold submit
  cases hpush : x.push memory .caller message with
  | ok y => exact length_push hpush
  | error rejection => rfl

theorem length_submitMany (memory : Memory) (first : UInt64) (count done : Nat) (x : Executor) :
    (submitMany memory first done count x).2.tasks.length = x.tasks.length := by
  induction count generalizing done x with
  | zero => rfl
  | succ count ih =>
    have hsubmit := length_submit memory x (.data (.tagged (first + UInt64.ofNat done)))
    unfold submitMany
    generalize x.submit memory (.data (.tagged (first + UInt64.ofNat done))) = submitted at *
    obtain ⟨error, y⟩ := submitted
    cases error with
    | some error => exact hsubmit
    | none => exact (ih (done + 1) y).trans hsubmit

/-- Only a command that adds a task makes the tasks more. -/
theorem length_perform (memory : Memory) {items : List Message} (hx : x.queue.ring.Holds items)
    {command : Command} (h : ∀ label duty, command ≠ .spawn label duty) :
    (x.perform memory command).2.tasks.length = x.tasks.length := by
  cases command with
  | submit item limit => exact length_submit _ x (.data item)
  | submitMany first count => exact length_submitMany memory first count 0 x
  | push message =>
    rw [perform_push]
    exact length_submit memory x message
  | stop => exact length_submit memory x .stop
  | pop =>
    show (x.pop .caller).2.tasks.length = _
    cases items with
    | nil => rw [pop_nil hx]
    | cons message rest => rw [pop_cons hx, taken]
  | drain =>
    show (x.drain .caller).2.tasks.length = _
    cases items with
    | nil => rw [drain_nil hx]
    | cons message rest => rw [drain_cons hx, taken]
  | spawn label duty => exact absurd rfl (h label duty)
  | cancel label =>
    rcases perform_cancel memory x label with heq | ⟨id, -, -, -, heq⟩
    · rw [heq]
    · have hwithdraw : (x.withdraw id).tasks.length = x.tasks.length :=
        length_of_map (aspect_worker.withdraw x id)
      rw [heq]
      simpa [Executor.cancel, updateTask, record] using hwithdraw
  | trigger handle => exact congrArg List.length (tasks_trigger x handle)
  | advance millis =>
    show (x.advance millis).tasks.length = _
    rw [Executor.advance, wakeAll_eq]
  | peek => rfl
  | stats => rfl
  | look => rfl
  | inspect id => rfl
  | share => rfl
  | isTriggered handle => rfl

/-! ## §3 Runs -/

/-- What a consumer does it did before, and it had not ended. -/
theorem Entry.worker_before (h : x.Entry y) {consumer : Consumer} (old : id < x.tasks.length)
    (worker : y.workers[id]? = some (some (consumer, true))) :
    ∃ before : Consumer, x.workers[id]? = some (some (before, true)) ∧
      before.handler = consumer.handler ∧ before.pollInterval = consumer.pollInterval := by
  cases h with
  | aside _ _ _ workers => exact ⟨consumer, workers ▸ worker, rfl, rfl⟩
  | trigger handle _ eq =>
    rw [eq, workers_trigger] at worker
    exact ⟨consumer, worker, rfl, rfl⟩
  | joined worker? _ _ workers =>
    rw [workers, List.getElem?_append_left (by simpa [Executor.workers] using old)] at worker
    exact ⟨consumer, worker, rfl, rfl⟩
  | deed own before d doing _ _ workers =>
    rw [workers] at worker
    by_cases heq : own = id
    · subst heq
      obtain ⟨hlt, -⟩ := List.getElem?_eq_some_iff.mp doing
      rw [List.getElem?_set_self hlt] at worker
      simp only [Option.some.injEq, Prod.mk.injEq] at worker
      refine ⟨before, doing, ?_, ?_⟩
      · rw [← worker.1, d.handler_after]
      · rw [← worker.1, d.pollInterval_after]
    · rw [List.getElem?_set_ne heq] at worker
      exact ⟨consumer, worker, rfl, rfl⟩

/-- Consumers stay tame if no task is added. -/
theorem Tame.moves (hx : x.Orderly) (tame : x.Tame) (h : x.Moves y)
    (same : y.tasks.length = x.tasks.length) : y.Tame := by
  rw [tame_iff] at tame ⊢
  suffices hall : ∀ (id : TaskId) (consumer : Consumer), id < x.tasks.length →
      y.workers[id]? = some (some (consumer, true)) →
        consumer.handler.Tame consumer.pollInterval by
    intro id consumer worker
    obtain ⟨hlt, -⟩ := List.getElem?_eq_some_iff.mp worker
    exact hall id consumer (by simpa [workers, same] using hlt) worker
  clear same
  suffices hboth : y.Orderly ∧ ∀ (id : TaskId) (consumer : Consumer), id < x.tasks.length →
      y.workers[id]? = some (some (consumer, true)) →
        consumer.handler.Tame consumer.pollInterval from hboth.2
  induction h with
  | refl => exact ⟨hx, fun id consumer _ worker => tame id consumer worker⟩
  | @tail y z run move ih =>
    obtain ⟨hy, htame⟩ := ih
    refine ⟨hy.move move, fun id consumer old worker => ?_⟩
    have hlasts := Moves.lasts run
    have hlength : x.tasks.length ≤ y.tasks.length := by
      simpa [jobs] using hlasts.jobs_prefix.length_le
    obtain ⟨before, hbefore, hhandler, hinterval⟩ :=
      (move.entry hy).worker_before (Nat.lt_of_lt_of_le old hlength) worker
    rw [← hhandler, ← hinterval]
    exact htame id before old hbefore

theorem Tame.turn (h : x.Reachable) (tame : x.Tame) (c : Conditions) : (x.turn c).Tame :=
  tame.moves h.orderly (turn_moves c h.holds) (length_turn c h.holds)

/-- A task that is added is tame if its duty is. -/
theorem Tame.add (tame : x.Tame) (label : String) {duty : Duty} (hduty : duty.Tame) :
    (x.add label duty).Tame := by
  rw [Executor.add, wake_eq]
  intro task hmem live consumer job
  rcases List.mem_append.mp hmem with hold | hnew
  · exact tame task hold live consumer job
  · rw [List.mem_singleton.mp hnew] at job
    cases duty with
    | consume shared pollInterval handler first =>
      cases job
      exact hduty
    | receive => cases job
    | awaitReady => cases job
    | push => cases job
    | submit => cases job
    | stop => cases job

theorem Tame.perform (h : x.Reachable) (tame : x.Tame) (free : x.running = none)
    (memory : Memory) {command : Command} (hcommand : command.Tame) :
    (x.perform memory command).2.Tame := by
  by_cases hspawn : ∃ label duty, command = .spawn label duty
  · obtain ⟨label, duty, rfl⟩ := hspawn
    have htrigger : ∀ handle, (x.trigger handle).Tame := by
      intro handle
      rw [Tame, tasks_trigger]
      exact tame
    show (x.spawn label duty).Tame
    rcases x.spawn_eq label duty with heq | ⟨handle, heq⟩
    · rw [heq]
      exact tame.add label hcommand
    · rw [heq]
      exact (htrigger handle).add label hcommand
  · refine tame.moves h.orderly (perform_moves memory h.holds free command).1.moves
      (length_perform memory h.holds fun label duty heq => hspawn ⟨label, duty, heq⟩)

theorem Tame.performAll (memory : Memory) (commands : List Command) (h : x.Reachable)
    (tame : x.Tame) (free : x.running = none) (hcommands : ∀ command ∈ commands, command.Tame) :
    (performAll memory commands x).2.Tame := by
  induction commands generalizing x with
  | nil => exact tame
  | cons command rest ih =>
    obtain ⟨hreach, hfree⟩ := h.perform memory command free
    have hfirst : command.Tame := hcommands command List.mem_cons_self
    exact ih hreach (tame.perform h free memory hfirst) hfree fun other hother =>
      hcommands other (List.mem_cons_of_mem _ hother)

theorem Tame.settle (h : x.Reachable) (tame : x.Tame) (c : Conditions) (patience : Nat) :
    (x.settle c patience).Tame := by
  induction patience generalizing x with
  | zero => exact tame
  | succ patience ih =>
    unfold Executor.settle
    split
    · exact tame
    · exact ih (h.after_turn c) (tame.turn h c)

theorem Tame.step (h : x.Reachable) (tame : x.Tame) (free : x.running = none) (c : Conditions)
    (patience : Nat) {commands : List Command} (hcommands : ∀ command ∈ commands, command.Tame) :
    (x.step c patience commands).2.Tame :=
  (tame.performAll c.memory commands h free hcommands).settle
    (h.performAll c.memory commands free) c patience

end Executor

end Handoff
