/-
Handoff.Executor.Basic — one queue, the tasks around it, and the order in which they run.

A task waits by being on a list: on the signal `ready` for an item, on the list `space` for room, on
the list `idle` for the trigger of its shutdown handle. Being taken off a list wakes the task, which
puts it at the end of `woken`; the first of `woken` runs next. A notification by `ready` is moreover
remembered with the task (`noticed`) until the task acts on it, since a task that goes away without
having done so passes it on.

The `journal` holds, newest first, what happened: which messages were accepted and removed and by
whom, which items were handled, which tasks finished or were cancelled.

  §1 tasks            — `Job`, `Outcome`, `Task`
  §2 what happened    — `Actor`, `Event`
  §3 the executor     — `Executor`
  §4 waking           — `wake`, `notice`, `notifyReady`
  §5 waiting          — `withdraw` and the ways to start a wait
  §6 the queue        — `push`, `pop`, `drain`
  §7 shutdown handles — `trigger`
-/
import Handoff.Consumer
import Handoff.Queue.Basic

namespace Handoff

/-! ## §1 Tasks -/

/-- What a task does. -/
inductive Job where
  /-- Waits for a message and takes it. -/
  | receive
  /-- Waits for one notification that there is an item. -/
  | awaitReady
  /-- Pushes a message, waiting for room, and gets it back if that fails. -/
  | push (message : Message)
  /-- Pushes an item, waiting for room. -/
  | submit (item : WorkItem)
  /-- Pushes a stop message, waiting for room. -/
  | stop
  /-- Handles items until it is told to end. -/
  | consume (consumer : Consumer)

/-- The message that the job pushes, for a producer. -/
def Job.message? : Job → Option Message
  | .push message => some message
  | .submit item => some (.data item)
  | .stop => some .stop
  | .receive | .awaitReady | .consume _ => none

/-- How a task ended. -/
inductive Outcome where
  | received (message : Message)
  | ready
  | accepted
  | rejected (rejection : Rejection Message)
  | failed (error : Error)
  | reported (report : Report)
  deriving DecidableEq, Repr

/-- How a producer ends whose push was rejected: a push hands the message back, the others say only
why. -/
def Job.refusal : Job → Rejection Message → Outcome
  | .push _, rejection => .rejected rejection
  | _, rejection => .failed rejection.error

/-- A task. -/
structure Task where
  label : String
  job : Job
  /-- Neither finished nor cancelled. -/
  live : Bool
  /-- Holds a notification by `ready` on which it has not acted yet. -/
  noticed : Bool
  /-- When an idle consumer looks again. -/
  deadline : Option Nat

/-! ## §2 What happened -/

/-- Who did something to the queue: a caller from outside, or a task. -/
inductive Actor where
  | caller
  | task (id : TaskId)
  deriving DecidableEq, Repr

/-- Something that happened. -/
inductive Event where
  | accepted (actor : Actor) (message : Message)
  | removed (actor : Actor) (message : Message)
  /-- A consumer's handler answered; `results` are the ends of its pushes, in order, where no error
  is a success. -/
  | handled (task : TaskId) (item : WorkItem) (results : List (Option Error))
      (complaint : Option Error)
  | finished (task : TaskId) (outcome : Outcome)
  | cancelled (task : TaskId)
  deriving DecidableEq, Repr

/-! ## §3 The executor -/

/-- One queue, the tasks around it in order of creation, and the order in which they run. -/
structure Executor where
  queue : Queue Message
  tasks : List Task
  /-- The tasks that run next, first woken first. -/
  woken : List TaskId
  /-- The task that has started to run and has not come to rest. -/
  running : Option TaskId
  /-- The handles that were triggered. -/
  triggered : List HandleId
  /-- The idle consumers with their handles, oldest wait first. -/
  idle : List (HandleId × TaskId)
  /-- The time in milliseconds. -/
  clock : Nat
  /-- What happened, newest first. -/
  journal : List Event

namespace Executor

/-- The executor of a queue without tasks. -/
def ofQueue (queue : Queue Message) : Executor := ⟨queue, [], [], none, [], [], 0, []⟩

/-- Whether no task has anything to do. -/
def atRest (x : Executor) : Bool := x.running.isNone && x.woken.isEmpty

/-- Writes an event into the journal. -/
def record (x : Executor) (event : Event) : Executor := { x with journal := event :: x.journal }

/-- Changes one task. -/
def updateTask (x : Executor) (id : TaskId) (f : Task → Task) : Executor :=
  { x with tasks := x.tasks.modify id f }

/-! ## §4 Waking -/

/-- Puts a task at the end of the woken ones, unless it is among them. -/
def wake (x : Executor) (id : TaskId) : Executor :=
  if x.woken.contains id then x else { x with woken := x.woken ++ [id] }

/-- Wakes tasks one after the other. -/
def wakeAll (x : Executor) (ids : List TaskId) : Executor := ids.foldl wake x

/-- Gives a task a notification by `ready`, which wakes it. -/
def notice (x : Executor) (id : TaskId) : Executor :=
  (x.updateTask id fun t => { t with noticed := true }).wake id

/-- Gives the notification to the task that `ready` chose, if it chose one. -/
def noticeChosen (x : Executor) : Option TaskId → Executor
  | none => x
  | some id => x.notice id

/-- The executor with another `ready` signal. -/
def withReady (x : Executor) (ready : Signal) : Executor :=
  { x with queue := { x.queue with ready } }

/-- Notifies `ready` once. -/
def notifyReady (x : Executor) : Executor :=
  let (chosen, ready) := x.queue.ready.notifyOne
  (x.withReady ready).noticeChosen chosen

/-! ## §5 Waiting -/

/-- Whether a task holds a notification on which it has not acted. -/
def isNoticed (x : Executor) (id : TaskId) : Bool :=
  match x.tasks[id]? with
  | some task => task.noticed
  | none => false

/-- The task has acted on its notification. -/
def heed (x : Executor) (id : TaskId) : Executor :=
  x.updateTask id fun t => { t with noticed := false }

/-- Takes a task off every list that it waits on. A notification on which it has not acted is passed
on: the next waiter gets it, or it is kept as the permit. -/
def withdraw (x : Executor) (id : TaskId) : Executor :=
  let off : Executor :=
    { x with
      queue := { x.queue with
        ready := x.queue.ready.leave id
        space := x.queue.space.erase id }
      idle := x.idle.filter fun entry => entry.2 != id
      tasks := x.tasks.modify id fun t => { t with noticed := false, deadline := none } }
  if x.isNoticed id then off.notifyReady else off

/-- The running task stops until it is woken. -/
def rest (x : Executor) : Executor := { x with running := none }

/-- The running task waits for a notification by `ready`. -/
def awaitReady (x : Executor) (id : TaskId) : Executor :=
  (x.withReady (x.queue.ready.enroll id)).rest

/-- The running task waits for room. -/
def awaitSpace (x : Executor) (id : TaskId) : Executor :=
  { x with queue := { x.queue with space := x.queue.space ++ [id] } }.rest

/-- The running consumer waits for a notification by `ready`, for the trigger of its handle, and for
its poll interval to pass. -/
def awaitAny (x : Executor) (id : TaskId) (consumer : Consumer) : Executor :=
  ({ x with idle := x.idle ++ [(consumer.handle, id)] }.updateTask id
    fun t => { t with deadline := some (x.clock + consumer.pollInterval) }).awaitReady id

/-- The running task ends. -/
def finish (x : Executor) (id : TaskId) (outcome : Outcome) : Executor :=
  ((x.updateTask id fun t => { t with live := false }).record (.finished id outcome)).rest

/-! ## §6 The queue -/

/-- Pushes a message and notifies `ready`. -/
def push (memory : Memory) (x : Executor) (actor : Actor) (message : Message) :
    Except (Rejection Message) Executor :=
  match x.queue.push memory message with
  | .error rejection => .error rejection
  | .ok (chosen, queue) =>
    .ok (({ x with queue }.record (.accepted actor message)).noticeChosen chosen)

/-- Takes the oldest message and wakes the producers that wait for room. -/
def pop (x : Executor) (actor : Actor) : Option Message × Executor :=
  match x.queue.pop with
  | (none, _, queue) => (none, { x with queue })
  | (some message, producers, queue) =>
    (some message, ({ x with queue }.record (.removed actor message)).wakeAll producers)

/-- Takes all messages, oldest first, and wakes the producers that wait for room. -/
def drain (x : Executor) (actor : Actor) : List Message × Executor :=
  match x.queue.drain with
  | (messages, producers, queue) =>
    (messages,
      (messages.foldl (fun (y : Executor) message => y.record (.removed actor message))
        { x with queue }).wakeAll producers)

/-! ## §7 Shutdown handles -/

/-- Whether a handle was triggered. -/
def isTriggered (x : Executor) (handle : HandleId) : Bool := x.triggered.contains handle

/-- Triggers a handle: its idle consumers are woken, oldest wait first. -/
def trigger (x : Executor) (handle : HandleId) : Executor :=
  let woken := (x.idle.filter fun entry => entry.1 == handle).map (·.2)
  { x with
    triggered := if x.isTriggered handle then x.triggered else handle :: x.triggered
    idle := x.idle.filter fun entry => entry.1 != handle }.wakeAll woken

end Executor

end Handoff
