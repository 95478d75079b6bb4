/-
Handoff.Executor.Turn — how tasks run.

One turn of the executor starts the task that was woken first, or lets the task that runs go through
its loop once: it takes one message, tries one push, or comes to rest. Tasks do not interrupt each
other, so between the start of a task and its coming to rest all turns are its own.

What a turn does may depend on two things outside the executor: which requests for slots the memory
grants, and, when a consumer finds more than one of the things that it waited for, which of them it
sees first. Both are arguments (`Conditions`).

  §1 conditions             — `Conditions`
  §2 what each kind does    — `pollReceive`, `pollReady`, `pollPush`, `pollConsumer`
  §3 turns                  — `turn`, `settle`
-/
import Handoff.Executor.Basic

namespace Handoff

/-! ## §1 Conditions -/

/-- What a turn depends on outside the executor. -/
structure Conditions where
  memory : Memory
  /-- Whether a consumer that was notified by `ready`, and has another reason to stop waiting, sees
  the notification first. -/
  readyFirst : Bool

namespace Executor

/-! ## §2 What each kind of task does -/

/-- Waits for a notification by `ready`, unless a permit is kept: then the permit is taken and the
task goes on as `onPermit` says. -/
def awaitReadyOr (x : Executor) (onPermit wait : Executor → Executor) : Executor :=
  if x.queue.ready.permit then onPermit (x.withReady x.queue.ready.spend) else wait x

/-- A receiver takes the oldest message and ends, or waits. -/
def pollReceive (x : Executor) (id : TaskId) : Executor :=
  match (x.heed id).pop (.task id) with
  | (some message, y) => y.finish id (.received message)
  | (none, y) => y.awaitReadyOr (fun z => z) (·.awaitReady id)

/-- A task that waits for one notification ends when it has it. -/
def pollReady (x : Executor) (id : TaskId) : Executor :=
  if x.isNoticed id then (x.heed id).finish id .ready
  else x.awaitReadyOr (·.finish id .ready) (·.awaitReady id)

/-- A producer pushes its message and ends, or waits for room if the queue is full and at its
ceiling; any other failure ends it. -/
def pollPush (memory : Memory) (x : Executor) (id : TaskId) (job : Job) (message : Message) :
    Executor :=
  match x.push memory (.task id) message with
  | .ok y => y.finish id .accepted
  | .error rejection =>
    if rejection.isFull then x.awaitSpace id else x.finish id (job.refusal rejection)

/-- Does one action of a handler. A push has a result, which is an error if it failed. -/
def act (memory : Memory) (x : Executor) (id : TaskId) (consumer : Consumer) :
    Action → Option (Option Error) × Executor
  | .shutDown handle => (none, x.trigger (handle.getD consumer.handle))
  | .stop => pushed .stop
  | .submit item => pushed (.data item)
where
  pushed (message : Message) : Option (Option Error) × Executor :=
    match x.push memory (.task id) message with
    | .ok y => (some none, y)
    | .error rejection => (some (some rejection.error), x)

/-- Does the actions of a handler in order; the results of its pushes are returned. -/
def actAll (memory : Memory) (id : TaskId) (consumer : Consumer) :
    List Action → Executor → List (Option Error) × Executor
  | [], x => ([], x)
  | action :: rest, x =>
    let (result, y) := x.act memory id consumer action
    let (results, z) := actAll memory id consumer rest y
    (result.toList ++ results, z)

/-- The handler of a consumer answers to an item. -/
def handle (memory : Memory) (x : Executor) (id : TaskId) (consumer : Consumer)
    (item : WorkItem) : Executor :=
  let reaction := consumer.react item
  let (results, y) := actAll memory id consumer reaction.actions x
  (y.updateTask id fun t => { t with job := .consume (consumer.tally reaction.complaint) }).record
    (.handled id item results reaction.complaint)

/-- A consumer stops waiting. It acts on a notification by `ready` if it sees that first; else it
goes away from `ready` like any waiter, and the notification is passed on. -/
def stopWaiting (readyFirst : Bool) (x : Executor) (id : TaskId) (consumer : Consumer)
    (deadline : Nat) : Executor :=
  let otherwise := x.isTriggered consumer.handle || decide (deadline ≤ x.clock)
  if x.isNoticed id && (readyFirst || !otherwise) then (x.heed id).withdraw id
  else x.withdraw id

/-- One round of a consumer that waits for nothing: it ends if its handle was triggered; else it
takes the oldest message, which is handled or ends it; without one it waits. -/
def pollActive (memory : Memory) (x : Executor) (id : TaskId) (consumer : Consumer) : Executor :=
  if x.isTriggered consumer.handle then x.finish id (.reported (consumer.report .shutdown))
  else match x.pop (.task id) with
    | (some .stop, y) => y.finish id (.reported (consumer.report .stopMessage))
    | (some (.data item), y) => y.handle memory id consumer item
    | (none, y) => y.awaitReadyOr (fun z => z) (·.awaitAny id consumer)

/-- One round of a consumer. -/
def pollConsumer (c : Conditions) (x : Executor) (id : TaskId) (task : Task)
    (consumer : Consumer) : Executor :=
  match task.deadline with
  | none => x.pollActive c.memory id consumer
  | some deadline =>
    (x.stopWaiting c.readyFirst id consumer deadline).pollActive c.memory id consumer

/-- The running task goes through its loop once. -/
def poll (c : Conditions) (x : Executor) (id : TaskId) : Executor :=
  match x.tasks[id]? with
  | none => x.rest
  | some task =>
    match task.job with
    | .receive => x.pollReceive id
    | .awaitReady => x.pollReady id
    | .push message => x.pollPush c.memory id task.job message
    | .submit item => x.pollPush c.memory id task.job (.data item)
    | .stop => x.pollPush c.memory id task.job .stop
    | .consume consumer => x.pollConsumer c id task consumer

/-! ## §3 Turns -/

/-- The running task goes through its loop once, or the task that was woken first starts to run. -/
def turn (c : Conditions) (x : Executor) : Executor :=
  match x.running with
  | some id => x.poll c id
  | none =>
    match x.woken with
    | [] => x
    | id :: rest => { x with running := some id, woken := rest }

/-- Turns until no task has anything to do, but at most `patience` of them: handlers can keep each
other busy for ever. -/
def settle (c : Conditions) : Nat → Executor → Executor
  | 0, x => x
  | patience + 1, x => if x.atRest then x else settle c patience (x.turn c)

end Executor

end Handoff
