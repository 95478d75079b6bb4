/-
Handoff.Pipeline.Basic — producers and one consumer that run side by side over a queue.

Every producer pushes the messages of its feed, in order, and waits for room where there is none. When
all producers have ended, a closing producer pushes a stop message. The consumer takes messages until
it takes the stop, and sleeps where there is none. Its handler accepts every item and leaves the queue
alone; nobody else has its shutdown handle, so that it is never triggered.

Nothing is said about who moves when: `move?` says what happens if a given participant moves now, and
that it cannot if it has to wait. The moves are small, so that others can come between: a producer
enrolls as a waiter for room, then tries to store its message, and then announces it; the consumer
takes a message, and then wakes the producers; and if it found none it first seeks a notification and
only then rests. A schedule of moves is one way in which the participants can run, and `run` follows
one: the consumer whenever it can move, and the producers in their order.

  §1 participants    — `Feed`, `Producer`, `ConsumerState`
  §2 the pipeline    — `Pipeline`
  §3 moves           — `Move`, `move?`
  §4 one schedule    — `runFrom`, `run`
-/
import Handoff.Consumer
import Handoff.Queue.Basic

namespace Handoff

/-! ## §1 Participants -/

/-- The messages that a producer pushes. -/
structure Feed where
  size : Nat
  message : Nat → Message

/-- What a producer is about to do. -/
inductive ProducerState where
  /-- To enroll as a waiter for room, if it has a message left. -/
  | active
  /-- To try to store its message; it is enrolled. -/
  | enrolled
  /-- To announce the message that it stored. -/
  | announcing
  /-- To go on when it is no longer enrolled. -/
  | waiting
  /-- Nothing; its push failed. -/
  | failed (error : Error)
  deriving DecidableEq, Repr

/-- A producer, with the number of messages that it has stored. -/
structure Producer where
  feed : Feed
  sent : Nat
  state : ProducerState

namespace Producer

/-- A producer that has stored nothing yet. -/
def ofFeed (feed : Feed) : Producer := ⟨feed, 0, .active⟩

/-- The error that the producer ended with. -/
def error? (p : Producer) : Option Error :=
  match p.state with
  | .failed error => some error
  | _ => none

/-- Whether the producer has nothing left to do. -/
def hasEnded (p : Producer) : Bool :=
  match p.state with
  | .active => p.feed.size ≤ p.sent
  | .enrolled | .announcing | .waiting => false
  | .failed _ => true

end Producer

/-- What the consumer is about to do. -/
inductive ConsumerState where
  /-- To take a message. -/
  | active
  /-- To wake the producers and to do what a message says that it took. -/
  | holding (message : Message)
  /-- To wait for a notification, as it found no message. -/
  | seeking
  /-- To go on when it is notified. -/
  | waiting
  /-- Nothing; it has made its report. -/
  | ended (report : Report)
  deriving DecidableEq, Repr

/-! ## §2 The pipeline -/

/-- A queue with its producers, the one that closes it, and its consumer. -/
structure Pipeline where
  queue : Queue Message
  producers : Array Producer
  closer : Producer
  consumer : Consumer
  phase : ConsumerState
  /-- Whether the consumer's shutdown handle was triggered. -/
  triggered : Bool
  /-- The items that the consumer has handled, newest first. -/
  handled : List WorkItem

namespace Pipeline

/-- The feed of the closing producer. -/
def closing : Feed := ⟨1, fun _ => .stop⟩

/-- The handler that accepts every item and leaves the queue alone. -/
def accepting : Handler := fun _ _ => ⟨[], none⟩

/-- The pipeline before any move. -/
def ofFeeds (queue : Queue Message) (pollInterval : Nat) (feeds : List Feed) : Pipeline where
  queue := queue
  producers := (feeds.map Producer.ofFeed).toArray
  closer := .ofFeed closing
  consumer := .fresh (.own (feeds.length + 1)) pollInterval accepting
  phase := .active
  triggered := false
  handled := []

/-- The consumer's number among those that wait; the producers are numbered from zero, and the closing
one comes after them. -/
def consumerId (p : Pipeline) : TaskId := p.producers.size + 1

/-- Whether all producers but the closing one have ended. -/
def feedsEnded (p : Pipeline) : Bool := p.producers.all Producer.hasEnded

/-- The report of the consumer, when it has made it. -/
def report? (p : Pipeline) : Option Report :=
  match p.phase with
  | .ended report => some report
  | .active | .holding _ | .seeking | .waiting => none

/-- Whether nobody has anything left to do. -/
def hasEnded (p : Pipeline) : Bool := p.feedsEnded && p.closer.hasEnded && p.report?.isSome

/-! ## §3 Moves -/

/-- Who moves. -/
inductive Move where
  | produce (index : Nat)
  | close
  | consume
  /-- The consumer's sleep ends without a notification. -/
  | timeout
  deriving DecidableEq, Repr

/-- A producer moves, if it does not have to wait. -/
def moveProducer (memory : Memory) (id : TaskId) (queue : Queue Message) (p : Producer) :
    Option (Queue Message × Producer) :=
  match p.state with
  | .failed _ => none
  | .active =>
    if p.sent < p.feed.size then
      some ({ queue with space := queue.space ++ [id] }, { p with state := .enrolled })
    else none
  | .enrolled =>
    match queue.store memory (p.feed.message p.sent) with
    | .ok stored => some (stored, { p with sent := p.sent + 1, state := .announcing })
    | .error rejection =>
      if rejection.isFull then some (queue, { p with state := .waiting })
      else some ({ queue with space := queue.space.erase id },
        { p with state := .failed rejection.error })
  | .announcing =>
    let announced := queue.announce.2
    some ({ announced with space := announced.space.erase id }, { p with state := .active })
  | .waiting => if queue.space.contains id then none else some (queue, { p with state := .active })

/-- The consumer moves, if it does not have to wait. -/
def moveConsumer (p : Pipeline) : Option Pipeline :=
  match p.phase with
  | .ended _ => none
  | .active =>
    if p.triggered then some { p with phase := .ended (p.consumer.report .shutdown) }
    else match p.queue.take with
    | (none, queue) => some { p with queue, phase := .seeking }
    | (some message, queue) => some { p with queue, phase := .holding message }
  | .holding .stop =>
    some { p with queue := p.queue.release.2, phase := .ended (p.consumer.report .stopMessage) }
  | .holding (.data item) =>
    some { p with
      queue := p.queue.release.2
      consumer := p.consumer.tally (p.consumer.react item).complaint
      phase := .active
      handled := item :: p.handled }
  | .seeking =>
    if p.triggered then some { p with phase := .active }
    else if p.queue.ready.permit then
      some { p with queue := { p.queue with ready := p.queue.ready.spend }, phase := .active }
    else
      some { p with
        queue := { p.queue with ready := p.queue.ready.enroll p.consumerId }
        phase := .waiting }
  | .waiting =>
    if p.queue.ready.waiters.contains p.consumerId then none else some { p with phase := .active }

/-- The consumer's sleep ends, before it rests or while it does. A notification that it has not acted
on is kept as the permit. -/
def moveTimeout (p : Pipeline) : Option Pipeline :=
  match p.phase with
  | .seeking => some { p with phase := .active }
  | .waiting =>
    let ready :=
      if p.queue.ready.waiters.contains p.consumerId then p.queue.ready.leave p.consumerId
      else p.queue.ready.notifyOne.2
    some { p with queue := { p.queue with ready }, phase := .active }
  | .active | .holding _ | .ended _ => none

/-- The pipeline after a move, if it can be made now. -/
def move? (memory : Memory) (p : Pipeline) : Move → Option Pipeline
  | .produce index =>
    match p.producers[index]? with
    | none => none
    | some producer =>
      match moveProducer memory index p.queue producer with
      | none => none
      | some (queue, producer) =>
        some { p with queue, producers := p.producers.setIfInBounds index producer }
  | .close =>
    if p.feedsEnded then
      match moveProducer memory p.producers.size p.queue p.closer with
      | none => none
      | some (queue, closer) => some { p with queue, closer }
    else none
  | .consume => p.moveConsumer
  | .timeout => p.moveTimeout

/-! ## §4 One schedule -/

/-- Follows the schedule for at most `moves` moves: the consumer moves whenever it can; else the
producer at `index`, or once it has ended the next one; else, after the last, the closing one. -/
def runFrom (memory : Memory) : Nat → Nat → Pipeline → Pipeline
  | 0, _, p => p
  | moves + 1, index, p =>
    match p.move? memory .consume with
    | some q => runFrom memory moves index q
    | none =>
      if index < p.producers.size then
        match p.move? memory (.produce index) with
        | some q => runFrom memory moves index q
        | none => runFrom memory moves (index + 1) p
      else
        match p.move? memory .close with
        | some q => runFrom memory moves index q
        | none => p

/-- The number of messages that all producers are to push. -/
def totalSize (p : Pipeline) : Nat :=
  p.producers.foldl (fun n producer => n + producer.feed.size) p.closer.feed.size

/-- How many moves can be made at most while no sleep of the consumer ends. Each message takes three
moves of its producer and at most five of the consumer, and when it leaves the queue each of the
waiting producers tries again, in three moves. -/
def moveBound (p : Pipeline) : Nat :=
  (3 * p.producers.size + 11) * p.totalSize + 5 * p.producers.size + 7

/-- The pipeline when all have ended. Beside the moves, passing from one producer to the next is
counted. -/
def run (memory : Memory) (p : Pipeline) : Pipeline :=
  runFrom memory (p.moveBound + p.producers.size + 1) 0 p

/-- What went wrong: the closing producer's error, or else that of the first producer that has
one. -/
def error? (p : Pipeline) : Option Error :=
  p.closer.error?.or (p.producers.toList.findSome? Producer.error?)

/-- The items that the consumer has handled, oldest first. -/
def items (p : Pipeline) : List WorkItem := p.handled.reverse

end Pipeline

end Handoff
