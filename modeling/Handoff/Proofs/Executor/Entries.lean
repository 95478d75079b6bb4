/-
Handoff.Proofs.Executor.Entries — what consumers do, as the journal has it.

For the consumers of an executor a move is one of four things (`Entry`): a deed of one of them, a
trigger from outside, a new task, or something that passes them all by. There are four deeds
(`Deed`): a consumer takes an item, which its handler handles, it takes a stop message, it sees that
its handle was triggered, or it is cancelled. Of each it is said what it writes into the journal,
what it makes of the consumer, and what the handler does in it.

The other tasks appear as gaps in the list of the consumers, so that every consumer keeps its place
(`workers`).

  §1 consumers   — `workers`, `Event.actor`
  §2 deeds       — `Fate`, `Deed`
  §3 entries     — `Entry`
  §4 moves       — `actAll_entry`, `Move.entry`
-/
import Handoff.Proofs.Executor.Lasting
import Handoff.Proofs.Executor.Order

namespace Handoff

/-! ## §1 Consumers -/

/-- The consumer with what it has counted, and whether it has not ended; nothing for other tasks. -/
def Task.worker? (task : Task) : Option (Consumer × Bool) :=
  match task.job with
  | .consume consumer => some (consumer, task.live)
  | _ => none

/-- Who did it; a task also finishes, and is cancelled, itself. -/
def Event.actor : Event → Actor
  | .accepted actor _ | .removed actor _ => actor
  | .handled id _ _ _ | .finished id _ | .cancelled id => .task id

/-- The call of a handler: whose it is, and with which item. -/
def Event.call? : Event → Option (TaskId × WorkItem)
  | .handled id item _ _ => some (id, item)
  | _ => none

theorem Task.worker?_of_job {task : Task} {consumer : Consumer}
    (job : task.job = .consume consumer) : task.worker? = some (consumer, task.live) := by
  rw [worker?, job]

theorem Task.worker?_eq_some {task : Task} {consumer : Consumer} {live : Bool}
    (h : task.worker? = some (consumer, live)) :
    task.job = .consume consumer ∧ task.live = live := by
  unfold worker? at h
  split at h
  · next job =>
    cases h
    exact ⟨job, rfl⟩
  · cases h

theorem Task.worker?_of_ne {task : Task} (job : ∀ consumer, task.job ≠ .consume consumer) :
    task.worker? = none := by
  unfold worker?
  split
  · next consumer h => exact absurd h (job consumer)
  · rfl

theorem Task.worker?_dead (task : Task) :
    ({ task with live := false } : Task).worker? =
      task.worker?.map fun worker => (worker.1, false) := by
  unfold worker?
  cases task.job <;> rfl

namespace Executor

/-- The consumers in order of creation, with gaps for the other tasks. -/
def workers (x : Executor) : List (Option (Consumer × Bool)) := x.tasks.map Task.worker?

variable {x y : Executor} {id : TaskId} {task : Task}

theorem workers_getElem? (htask : x.tasks[id]? = some task) :
    x.workers[id]? = some task.worker? := by
  rw [workers, List.getElem?_map, htask]
  rfl

theorem workers_of_job {consumer : Consumer} (htask : x.tasks[id]? = some task)
    (job : task.job = .consume consumer) :
    x.workers[id]? = some (some (consumer, task.live)) := by
  rw [workers_getElem? htask, Task.worker?_of_job job]

/-- A change of a task that is none for the consumers. -/
theorem workers_of_modify {f : Task → Task} (tasks : y.tasks = x.tasks.modify id f)
    (same : ∀ task, x.tasks[id]? = some task → (f task).worker? = task.worker?) :
    y.workers = x.workers := by
  unfold workers
  rw [tasks]
  exact map_modify_of_eq _ same

/-- A change of one consumer. -/
theorem workers_modify {f : Task → Task} (tasks : y.tasks = x.tasks.modify id f)
    (htask : x.tasks[id]? = some task) : y.workers = x.workers.set id (f task).worker? := by
  unfold workers
  rw [tasks]
  exact map_modify_of_getElem? _ f htask

theorem workers_eq_some {worker? : Option (Consumer × Bool)} (h : x.workers[id]? = some worker?) :
    ∃ task, x.tasks[id]? = some task ∧ task.worker? = worker? := by
  rw [workers, List.getElem?_map, Option.map_eq_some_iff] at h
  exact h

/-- A task ends; it is a consumer or not. -/
theorem workers_end {worker? : Option (Consumer × Bool)}
    (tasks : y.tasks = x.tasks.modify id fun t => { t with live := false })
    (h : x.workers[id]? = some worker?) :
    y.workers = x.workers.set id (worker?.map fun worker => (worker.1, false)) := by
  rw [workers, tasks]
  exact map_end Task.worker?_dead h

theorem workers_end_of_none (tasks : y.tasks = x.tasks.modify id fun t => { t with live := false })
    (h : x.workers[id]? = some none) : y.workers = x.workers := by
  rw [workers, tasks]
  exact map_end_of_none Task.worker?_dead h

/-- Whether a consumer was told of something, and when it looks again, is not shown. -/
theorem aspect_worker : Aspect Task.worker? := fun _ _ _ => rfl

theorem workers_trigger (x : Executor) (handle : HandleId) :
    (x.trigger handle).workers = x.workers := by
  rw [workers, workers, tasks_trigger]

theorem journal_trigger (x : Executor) (handle : HandleId) :
    (x.trigger handle).journal = x.journal := by
  rw [trigger_eq]

theorem queue_trigger (x : Executor) (handle : HandleId) :
    (x.trigger handle).queue = x.queue := by
  rw [trigger_eq]

/-- What an accepted push means for the journal and the consumers. -/
theorem push_entry {memory : Memory} {actor : Actor} {message : Message}
    (accepted : x.push memory actor message = .ok y) :
    y.journal = .accepted actor message :: x.journal ∧ y.workers = x.workers ∧
      y.triggered = x.triggered := by
  obtain ⟨placement, ring, -, rfl⟩ := push_ok accepted
  exact ⟨notifyReady_keeps journal _ (fun _ _ _ => rfl), aspect_worker.notifyReady _,
    notifyReady_keeps triggered _ (fun _ _ _ => rfl)⟩

end Executor

/-! ## §2 Deeds -/

/-- How a consumer stands. -/
inductive Fate where
  | working
  | cancelled
  | ended (reason : StopReason)
  deriving DecidableEq, Repr

/-- Whether it has not ended. -/
def Fate.live : Fate → Bool
  | .working => true
  | .cancelled | .ended _ => false

theorem Fate.live_eq_true {fate : Fate} : fate.live = true ↔ fate = .working := by
  cases fate <;> simp [live]

/-- Something that a consumer does, or that is done to it. -/
inductive Deed where
  /-- It takes an item and its handler handles it; `pushed` are the messages that the handler pushes
  on the way, newest first. -/
  | handle (item : WorkItem) (results : List (Option Error)) (pushed : List Message)
  | takeStop
  | shutDown
  | cancelled

namespace Deed

/-- What is written into the journal, newest first. -/
def events (id : TaskId) (consumer : Consumer) : Deed → List Event
  | .handle item results pushed =>
    .handled id item results (consumer.react item).complaint ::
      (pushed.map (Event.accepted (.task id)) ++ [.removed (.task id) (.data item)])
  | .takeStop =>
    [.finished id (.reported (consumer.report .stopMessage)), .removed (.task id) .stop]
  | .shutDown => [.finished id (.reported (consumer.report .shutdown))]
  | .cancelled => [.cancelled id]

/-- The consumer afterwards. -/
def after (consumer : Consumer) : Deed → Consumer
  | .handle item _ _ => consumer.tally (consumer.react item).complaint
  | .takeStop | .shutDown | .cancelled => consumer

/-- How the consumer stands afterwards. -/
def fate : Deed → Fate
  | .handle _ _ _ => .working
  | .takeStop => .ended .stopMessage
  | .shutDown => .ended .shutdown
  | .cancelled => .cancelled

/-- What the handler does in it. -/
def actions (consumer : Consumer) : Deed → List Action
  | .handle item _ _ => (consumer.react item).actions
  | .takeStop | .shutDown | .cancelled => []

/-- Whether it is done by a consumer whose handle was triggered, or was not. -/
def Fits (triggered : Bool) : Deed → Prop
  | .handle _ _ _ | .takeStop => triggered = false
  | .shutDown => triggered = true
  | .cancelled => True

/-- All of it is about one consumer. -/
theorem actor_of_mem (d : Deed) {id : TaskId} {consumer : Consumer} {e : Event}
    (h : e ∈ d.events id consumer) : e.actor = .task id := by
  cases d with
  | handle item results pushed =>
    simp only [events, List.mem_cons, List.mem_append, List.mem_map, List.not_mem_nil,
      or_false] at h
    rcases h with rfl | ⟨message, -, rfl⟩ | rfl <;> rfl
  | takeStop =>
    simp only [events, List.mem_cons, List.not_mem_nil, or_false] at h
    rcases h with rfl | rfl <;> rfl
  | shutDown =>
    rw [List.mem_singleton.mp h]
    rfl
  | cancelled =>
    rw [List.mem_singleton.mp h]
    rfl

theorem handle_after (d : Deed) (consumer : Consumer) :
    (d.after consumer).handle = consumer.handle := by
  cases d with
  | handle item results pushed =>
    show (consumer.tally _).handle = _
    cases (consumer.react item).complaint <;> rfl
  | takeStop => rfl
  | shutDown => rfl
  | cancelled => rfl

theorem handler_after (d : Deed) (consumer : Consumer) :
    (d.after consumer).handler = consumer.handler := by
  cases d with
  | handle item results pushed =>
    show (consumer.tally _).handler = _
    cases (consumer.react item).complaint <;> rfl
  | takeStop => rfl
  | shutDown => rfl
  | cancelled => rfl

theorem pollInterval_after (d : Deed) (consumer : Consumer) :
    (d.after consumer).pollInterval = consumer.pollInterval := by
  cases d with
  | handle item results pushed =>
    show (consumer.tally _).pollInterval = _
    cases (consumer.react item).complaint <;> rfl
  | takeStop => rfl
  | shutDown => rfl
  | cancelled => rfl

/-- Only a consumer whose handle was triggered ends for it. -/
theorem triggered_of_shutdown (d : Deed) {triggered : Bool} (fits : d.Fits triggered)
    (h : d.fate = .ended .shutdown) : triggered = true := by
  cases d with
  | shutDown => exact fits
  | handle item results pushed => cases h
  | takeStop => cases h
  | cancelled => cases h

end Deed

/-! ## §3 Entries -/

namespace Executor

/-- What one move is for the consumers. -/
inductive Entry (x y : Executor) : Prop where
  /-- No consumer has a part in it. -/
  | aside (events : List Event) (journal : y.journal = events ++ x.journal)
      (others : ∀ e ∈ events, e.call? = none ∧
        ∀ id, e.actor = .task id → x.workers[id]? = some none)
      (workers : y.workers = x.workers) (triggered : y.triggered = x.triggered)
  | trigger (handle : HandleId) (free : x.running = none) (eq : y = x.trigger handle)
  /-- There is one more task. -/
  | joined (worker? : Option (Consumer × Bool))
      (fresh : ∀ consumer live, worker? = some (consumer, live) → live = true ∧
        consumer = .fresh consumer.handle consumer.pollInterval consumer.handler)
      (journal : y.journal = x.journal) (workers : y.workers = x.workers ++ [worker?])
      (triggered : y.triggered = x.triggered)
  /-- One consumer does something, and nobody else. -/
  | deed (id : TaskId) (consumer : Consumer) (d : Deed)
      (worker : x.workers[id]? = some (some (consumer, true)))
      (fits : d.Fits (x.isTriggered consumer.handle))
      (journal : y.journal = d.events id consumer ++ x.journal)
      (workers : y.workers = x.workers.set id (some (d.after consumer, d.fate.live)))
      (triggered : ∀ handle, y.isTriggered handle = true ↔ x.isTriggered handle = true ∨
        ∃ target, .shutDown target ∈ d.actions consumer ∧
          target.getD consumer.handle = handle)

variable {x y : Executor} {id : TaskId} {task : Task}

namespace Entry

/-- Nothing is written. -/
theorem quiet (journal : y.journal = x.journal) (workers : y.workers = x.workers)
    (triggered : y.triggered = x.triggered) : x.Entry y :=
  .aside [] journal (fun _ h => by cases h) workers triggered

/-- Another task than a consumer does something. -/
theorem other (events : List Event) (worker : x.workers[id]? = some none)
    (journal : y.journal = events ++ x.journal)
    (own : ∀ e ∈ events, e.call? = none ∧ e.actor = .task id) (workers : y.workers = x.workers)
    (triggered : y.triggered = x.triggered) : x.Entry y := by
  refine .aside events journal (fun e he => ⟨(own e he).1, fun i hi => ?_⟩) workers triggered
  rw [(own e he).2, Actor.task.injEq] at hi
  rwa [← hi]

/-- A consumer ends or is cancelled. -/
theorem leave {consumer : Consumer} (d : Deed)
    (worker : x.workers[id]? = some (some (consumer, true)))
    (fits : d.Fits (x.isTriggered consumer.handle))
    (journal : y.journal = d.events id consumer ++ x.journal)
    (workers : y.workers = x.workers.set id (some (d.after consumer, d.fate.live)))
    (actions : d.actions consumer = []) (triggered : y.triggered = x.triggered) : x.Entry y := by
  refine .deed id consumer d worker fits journal workers fun handle => ?_
  rw [isTriggered, triggered, ← isTriggered, actions]
  simp

end Entry

/-! ## §4 Moves -/

/-- What an action of a handler means for the journal, the consumers and the handles. -/
theorem act_entry (memory : Memory) (x : Executor) (id : TaskId) (consumer : Consumer)
    (action : Action) :
    (∃ pushed : List Message, (x.act memory id consumer action).2.journal =
      pushed.map (Event.accepted (.task id)) ++ x.journal) ∧
    (x.act memory id consumer action).2.workers = x.workers ∧
    ∀ handle, (x.act memory id consumer action).2.isTriggered handle = true ↔
      x.isTriggered handle = true ∨
        ∃ target, action = .shutDown target ∧ target.getD consumer.handle = handle := by
  have hpushed : ∀ message, (∃ pushed : List Message,
      (act.pushed memory x id message).2.journal =
        pushed.map (Event.accepted (.task id)) ++ x.journal) ∧
      (act.pushed memory x id message).2.workers = x.workers ∧
      (act.pushed memory x id message).2.isTriggered = x.isTriggered := by
    intro message
    unfold act.pushed
    cases hpush : x.push memory (.task id) message with
    | ok y =>
      obtain ⟨hjournal, hworkers, htriggered⟩ := push_entry hpush
      refine ⟨⟨[message], hjournal⟩, hworkers, ?_⟩
      funext handle
      rw [isTriggered, isTriggered, htriggered]
    | error rejection => exact ⟨⟨[], rfl⟩, rfl, rfl⟩
  cases action with
  | shutDown target =>
    refine ⟨⟨[], journal_trigger _ _⟩, workers_trigger _ _, fun handle => ?_⟩
    show (x.trigger _).isTriggered handle = true ↔ _
    rw [isTriggered_trigger]
    refine or_congr_right ⟨fun h => ⟨target, rfl, h.symm⟩, ?_⟩
    rintro ⟨_, ⟨⟩, h⟩
    exact h.symm
  | stop =>
    obtain ⟨hjournal, hworkers, htriggered⟩ := hpushed .stop
    exact ⟨hjournal, hworkers, fun handle => by simp [act, htriggered]⟩
  | submit item =>
    obtain ⟨hjournal, hworkers, htriggered⟩ := hpushed (.data item)
    exact ⟨hjournal, hworkers, fun handle => by simp [act, htriggered]⟩

/-- While a handler acts only its pushes are written down, and the handles are triggered that it
triggers. -/
theorem actAll_entry (memory : Memory) (id : TaskId) (consumer : Consumer)
    (actions : List Action) (x : Executor) :
    (∃ pushed : List Message, (actAll memory id consumer actions x).2.journal =
      pushed.map (Event.accepted (.task id)) ++ x.journal) ∧
    (actAll memory id consumer actions x).2.workers = x.workers ∧
    ∀ handle, (actAll memory id consumer actions x).2.isTriggered handle = true ↔
      x.isTriggered handle = true ∨
        ∃ target, .shutDown target ∈ actions ∧ target.getD consumer.handle = handle := by
  induction actions generalizing x with
  | nil => exact ⟨⟨[], rfl⟩, rfl, fun handle => by simp [actAll]⟩
  | cons action rest ih =>
    obtain ⟨⟨first, hfirst⟩, hworkers, htriggered⟩ := act_entry memory x id consumer action
    obtain ⟨⟨later, hlater⟩, hworkers', htriggered'⟩ := ih (x.act memory id consumer action).2
    refine ⟨⟨later ++ first, ?_⟩, hworkers'.trans hworkers, fun handle => ?_⟩
    · rw [List.map_append, List.append_assoc, ← hfirst]
      exact hlater
    · have hmem : ∀ target, Action.shutDown target ∈ action :: rest ↔
          action = .shutDown target ∨ .shutDown target ∈ rest := fun target =>
        List.mem_cons.trans (or_congr_left eq_comm)
      refine (htriggered' handle).trans ?_
      rw [htriggered]
      simp only [hmem, or_and_right, exists_or, or_assoc]

/-- A handled item is written down with the pushes of the handler before its answer. -/
theorem Entry.handle {memory : Memory} {consumer : Consumer} {item : WorkItem}
    {ring : Ring Message} (worker : x.workers[id]? = some (some (consumer, true)))
    (triggered : x.isTriggered consumer.handle = false) :
    x.Entry ((x.taken (.task id) [.data item] ring).handle memory id consumer item) := by
  obtain ⟨⟨pushed, hjournal⟩, hworkers, htriggered⟩ := actAll_entry memory id consumer
    (consumer.react item).actions (x.taken (.task id) [.data item] ring)
  obtain ⟨acted, hacted, hworker⟩ := workers_eq_some (hworkers ▸ worker)
  refine .deed id consumer (.handle item (actAll memory id consumer
    (consumer.react item).actions (x.taken (.task id) [.data item] ring)).1 pushed) worker
    triggered ?_ ?_ htriggered
  · refine (congrArg (List.cons _) hjournal).trans ?_
    simp [Deed.events, taken]
  · refine (workers_modify rfl hacted).trans ?_
    rw [hworkers, Task.worker?_of_job rfl, (Task.worker?_eq_some hworker).2]
    rfl

theorem Entry.add (x : Executor) (label : String) (duty : Duty) : x.Entry (x.add label duty) := by
  rw [Executor.add, wake_eq]
  let task : Task := ⟨label, jobOf x.tasks.length duty, true, false, none⟩
  refine .joined task.worker? ?_ rfl (List.map_append ..) rfl
  intro consumer live hworker
  cases duty with
  | consume shared pollInterval handler shutDownFirst =>
    cases hworker
    exact ⟨rfl, rfl⟩
  | receive => cases hworker
  | awaitReady => cases hworker
  | push => cases hworker
  | submit => cases hworker
  | stop => cases hworker

theorem Entry.cancel (htask : x.tasks[id]? = some task) (live : task.live = true) :
    x.Entry (x.cancel id) := by
  have hjournal : (x.cancel id).journal = .cancelled id :: x.journal :=
    congrArg (List.cons _) (withdraw_keeps journal x id rfl (fun _ _ _ _ => rfl))
  have htriggered : (x.cancel id).triggered = x.triggered :=
    withdraw_keeps triggered x id rfl (fun _ _ _ _ => rfl)
  have hwithdraw : (x.withdraw id).workers = x.workers := aspect_worker.withdraw x id
  cases hworker : task.worker? with
  | none =>
    have hnone : x.workers[id]? = some none := by rw [workers_getElem? htask, hworker]
    refine .aside [.cancelled id] hjournal ?_ ?_ htriggered
    · simpa [Event.call?, Event.actor] using hnone
    · exact (workers_end_of_none rfl (hwithdraw ▸ hnone)).trans hwithdraw
  | some worker =>
    obtain ⟨consumer, alive⟩ := worker
    obtain ⟨-, rfl⟩ := Task.worker?_eq_some hworker
    have hbefore : x.workers[id]? = some (some (consumer, true)) := by
      rw [workers_getElem? htask, hworker, live]
    refine .leave .cancelled hbefore trivial hjournal ?_ rfl htriggered
    refine (workers_end rfl (hwithdraw ▸ hbefore)).trans ?_
    rw [hwithdraw]
    rfl

/-- Every move is an entry. -/
theorem Move.entry (hx : x.Orderly) (h : x.Move y) : x.Entry y := by
  have hbefore : ∀ {id : TaskId} {task : Task} {consumer : Consumer}, x.Runs id task →
      task.job = .consume consumer → x.workers[id]? = some (some (consumer, true)) := by
    intro id task consumer runs job
    rw [workers_getElem? runs.task_eq, Task.worker?_of_job job, hx.live_of_runs runs]
  have hnone : ∀ {id : TaskId} {task : Task}, x.Runs id task →
      (∀ consumer, task.job ≠ .consume consumer) → x.workers[id]? = some none := by
    intro id task runs job
    rw [workers_getElem? runs.task_eq, Task.worker?_of_ne job]
  cases h with
  | @callerPush memory message y free accepted =>
    obtain ⟨hjournal, hworkers, htriggered⟩ := push_entry accepted
    exact .aside [.accepted .caller message] hjournal (by simp [Event.call?, Event.actor])
      hworkers htriggered
  | @callerTake messages ring free _ _ =>
    refine .aside (messages.map (Event.removed .caller)).reverse rfl ?_ rfl rfl
    simp [Event.call?, Event.actor]
  | add label duty => exact .add x label duty
  | cancel free found live => exact .cancel found live
  | callerTrigger handle free => exact .trigger handle free rfl
  | advance millis =>
    rw [Executor.advance, wakeAll_eq]
    exact .quiet rfl rfl rfl
  | start => exact .quiet rfl rfl rfl
  | vanish => exact .quiet rfl rfl rfl
  | @receive id task message ring runs job _ =>
    have hheed : ((x.heed id).taken (.task id) [message] ring).workers = x.workers :=
      workers_of_modify rfl fun _ _ => rfl
    have hother := hnone runs (by simp [job])
    exact .other [.finished id (.received message), .removed (.task id) message] hother rfl
      (by simp [Event.call?, Event.actor])
      ((workers_end_of_none rfl (hheed ▸ hother)).trans hheed) rfl
  | receiveAgain => exact .quiet rfl (workers_of_modify rfl fun _ _ => rfl) rfl
  | receiveWait => exact .quiet rfl (workers_of_modify rfl fun _ _ => rfl) rfl
  | @ready id task runs job _ =>
    have hheed : (x.heed id).workers = x.workers := workers_of_modify rfl fun _ _ => rfl
    have hother := hnone runs (by simp [job])
    exact .other [.finished id .ready] hother rfl (by simp [Event.call?, Event.actor])
      ((workers_end_of_none rfl (hheed ▸ hother)).trans hheed) rfl
  | @readyAtOnce id task runs job _ _ =>
    have hother := hnone runs (by simp [job])
    exact .other [.finished id .ready] hother rfl (by simp [Event.call?, Event.actor])
      (workers_end_of_none rfl hother) rfl
  | readyWait => exact .quiet rfl rfl rfl
  | @deliver memory id task message z runs job accepted =>
    obtain ⟨hjournal, hworkers, htriggered⟩ := push_entry accepted
    have hother := hnone runs (Job.not_of_message job).2
    exact .other [.finished id .accepted, .accepted (.task id) message] hother
      (congrArg (List.cons _) hjournal) (by simp [Event.call?, Event.actor])
      ((workers_end_of_none rfl (hworkers ▸ hother)).trans hworkers) htriggered
  | queueUp => exact .quiet rfl rfl rfl
  | @giveUp memory id task message rejection runs job _ _ =>
    have hother := hnone runs (Job.not_of_message job).2
    exact .other [.finished id (task.job.refusal rejection)] hother rfl
      (by simp [Event.call?, Event.actor]) (workers_end_of_none rfl hother) rfl
  | @stopWaiting id task consumer deadline readyFirst runs job waited =>
    exact .quiet
      (stopWaiting_keeps journal readyFirst runs.task_eq consumer deadline rfl
        (fun _ _ _ _ => rfl))
      (aspect_worker.stopWaiting readyFirst runs.task_eq consumer deadline)
      (stopWaiting_keeps triggered readyFirst runs.task_eq consumer deadline rfl
        (fun _ _ _ _ => rfl))
  | shutDown runs job awake triggered =>
    exact .leave .shutDown (hbefore runs job) triggered rfl (workers_end rfl (hbefore runs job))
      rfl rfl
  | takeStop runs job awake triggered _ =>
    exact .leave .takeStop (hbefore runs job) triggered rfl (workers_end rfl (hbefore runs job))
      rfl rfl
  | handle runs job awake triggered _ => exact .handle (hbefore runs job) triggered
  | consumeAgain => exact .quiet rfl rfl rfl
  | consumeWait => exact .quiet rfl (workers_of_modify rfl fun _ _ => rfl) rfl

end Executor

end Handoff
