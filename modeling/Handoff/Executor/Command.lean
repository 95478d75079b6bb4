/-
Handoff.Executor.Command — what a caller can ask of an executor.

A command is done at once and answered by a `Reply`; no task runs meanwhile. A step is one command,
or several that are done without a task running between them. After a step the woken tasks run until
none is left (`step`).

  §1 commands and replies  — `Duty`, `Command`, `Reply`
  §2 doing one             — `perform`
  §3 steps                 — `Step`, `step`
-/
import Handoff.Executor.Turn

namespace Handoff

/-! ## §1 Commands and replies -/

/-- What a new task is to do. A consumer is given its handle by the executor: the one shared under
`shared`, or its own. -/
inductive Duty where
  | receive
  | awaitReady
  | push (message : Message)
  | submit (item : WorkItem)
  | stop
  | consume (shared : Option String) (pollInterval : Nat) (handler : Handler)
      (shutDownFirst : Bool)

/-- Something that a caller asks for. -/
inductive Command where
  /-- Pushes an item; with a limit, while no request for more slots than that is granted. -/
  | submit (item : WorkItem) (limit : Option Nat)
  /-- Pushes `count` items without payload, tagged from `first` on, up to the first failure. -/
  | submitMany (first : UInt64) (count : Nat)
  | push (message : Message)
  | stop
  | pop
  | peek
  | drain
  | stats
  | look
  /-- Shows the queue; `id` stands for its identity. -/
  | inspect (id : String)
  | share
  | spawn (label : String) (duty : Duty)
  | cancel (label : String)
  | trigger (handle : HandleId)
  | isTriggered (handle : HandleId)
  /-- Moves the clock. -/
  | advance (millis : Nat)

/-- What a caller is told. -/
inductive Reply where
  | accepted
  | rejected (rejection : Rejection Message)
  | failed (error : Error)
  /-- So many items were accepted, and then one was not if there is an error. -/
  | submitted (count : Nat) (error : Option Error)
  | message (message : Option Message)
  | messages (messages : List Message)
  | stats (stats : QueueStats)
  | view (name : String) (count capacity : Nat) (isEmpty : Bool)
  | text (text : String)
  | flag (value : Bool)
  | shared
  | spawned
  | cancelled
  | absent
  | triggered
  | advanced
  deriving DecidableEq, Repr

namespace Executor

/-! ## §2 Doing one -/

/-- Pushes an item from outside. -/
def submit (memory : Memory) (x : Executor) (message : Message) : Option Error × Executor :=
  match x.push memory .caller message with
  | .ok y => (none, y)
  | .error rejection => (some rejection.error, x)

/-- The reply to a push that says only why it failed. -/
def replyOf : Option Error → Reply
  | none => .accepted
  | some error => .failed error

/-- Pushes items tagged from `first` on until one fails or `count` were accepted; `done` were
accepted before. -/
def submitMany (memory : Memory) (first : UInt64) (done : Nat) :
    Nat → Executor → Reply × Executor
  | 0, x => (.submitted done none, x)
  | count + 1, x =>
    match x.submit memory (.data (.tagged (first + UInt64.ofNat done))) with
    | (some error, y) => (.submitted done (some error), y)
    | (none, y) => submitMany memory first (done + 1) count y

/-- The job of a task with a duty. -/
def jobOf (id : TaskId) : Duty → Job
  | .receive => .receive
  | .awaitReady => .awaitReady
  | .push message => .push message
  | .submit item => .submit item
  | .stop => .stop
  | .consume shared pollInterval handler _ =>
    .consume (.fresh (match shared with
      | some name => .shared name
      | none => .own id) pollInterval handler)

/-- Triggers the handle of a new consumer that is to be shut down before it starts. -/
def shutDownFirst (x : Executor) (job : Job) : Duty → Executor
  | .consume _ _ _ true =>
    match job with
    | .consume consumer => x.trigger consumer.handle
    | _ => x
  | _ => x

/-- Adds a task, which is woken at once. -/
def spawn (x : Executor) (label : String) (duty : Duty) : Executor :=
  let id := x.tasks.length
  let job := jobOf id duty
  let y := x.shutDownFirst job duty
  ({ y with tasks := y.tasks ++ [⟨label, job, true, false, none⟩] } : Executor).wake id

/-- The first live task with a label. -/
def find? (x : Executor) (label : String) : Option TaskId :=
  x.tasks.findIdx? fun task => task.live && task.label == label

/-- Takes a task away: it waits for nothing any more and never runs again. -/
def cancel (x : Executor) (id : TaskId) : Executor :=
  let y := (x.withdraw id).updateTask id fun t => { t with live := false }
  { y with woken := y.woken.erase id }.record (.cancelled id)

/-- The idle consumers that are to look again by now, in order of creation. -/
def due (x : Executor) : List TaskId :=
  (List.range x.tasks.length).filter fun id =>
    match x.tasks[id]? with
    | some task =>
      match task.deadline with
      | some deadline => task.live && decide (deadline ≤ x.clock)
      | none => false
    | none => false

/-- Moves the clock and wakes the idle consumers that are to look again. -/
def advance (x : Executor) (millis : Nat) : Executor :=
  let y := { x with clock := x.clock + millis }
  y.wakeAll y.due

/-- Does what a caller asks for; the reply comes with it. -/
def perform (memory : Memory) (x : Executor) : Command → Reply × Executor
  | .submit item limit =>
    let (error, y) := x.submit
      (match limit with
        | some slots => memory.limitedTo slots
        | none => memory) (.data item)
    (replyOf error, y)
  | .submitMany first count => submitMany memory first 0 count x
  | .push message =>
    match x.push memory .caller message with
    | .ok y => (.accepted, y)
    | .error rejection => (.rejected rejection, x)
  | .stop =>
    let (error, y) := x.submit memory .stop
    (replyOf error, y)
  | .pop =>
    let (message, y) := x.pop .caller
    (.message message, y)
  | .peek => (.message x.queue.peek, x)
  | .drain =>
    let (messages, y) := x.drain .caller
    (.messages messages, y)
  | .stats => (.stats x.queue.stats, x)
  | .look => (.view x.queue.name x.queue.count x.queue.capacity x.queue.isEmpty, x)
  | .inspect id => (.text (x.queue.inspect id), x)
  | .share => (.shared, x)
  | .spawn label duty => (.spawned, x.spawn label duty)
  | .cancel label =>
    match x.find? label with
    | some id => (.cancelled, x.cancel id)
    | none => (.absent, x)
  | .trigger handle => (.triggered, x.trigger handle)
  | .isTriggered handle => (.flag (x.isTriggered handle), x)
  | .advance millis => (.advanced, x.advance millis)

/-! ## §3 Steps -/

/-- Does commands one after the other; no task runs between them. -/
def performAll (memory : Memory) : List Command → Executor → List Reply × Executor
  | [], x => ([], x)
  | command :: rest, x =>
    let (reply, y) := x.perform memory command
    let (replies, z) := performAll memory rest y
    (reply :: replies, z)

/-- Does commands and then lets the woken tasks run, for at most `patience` turns. -/
def step (c : Conditions) (patience : Nat) (commands : List Command) (x : Executor) :
    List Reply × Executor :=
  let (replies, y) := performAll c.memory commands x
  (replies, y.settle c patience)

/-- The labels of the live tasks, in order of creation. -/
def pending (x : Executor) : List String := (x.tasks.filter (·.live)).map (·.label)

end Executor

end Handoff
