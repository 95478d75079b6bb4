/-
Handoff.Consumer — who handles items, and how a consumer ends.

A handler is told how many items it was given before and which item it is given now. Its answer, a
`Reaction`, is what it does to the queue and to shutdown handles, and whether it accepts the item.
As the number of the call is an argument, a handler that keeps a state of its own is a `Handler`
too: what it does at its n-th call is the value of the function at n.

A consumer ends because it took a stop message or because its shutdown handle was triggered; its
report says which, and how many items it processed and how many its handler refused. These two are
counted in words, which wrap; the number of the call is no such counter and only grows.
-/
import Handoff.Error
import Handoff.Message
import Handoff.Signal

namespace Handoff

/-! ## §1 Shutdown handles -/

/-- The name of a shutdown handle: one that is shared under a name, or a consumer's own. -/
inductive HandleId where
  | shared (name : String)
  | own (task : TaskId)
  deriving DecidableEq, Repr

/-! ## §2 Handlers -/

/-- Something that a handler does while it handles an item. -/
inductive Action where
  /-- Triggers a shutdown handle, or without one the consumer's. -/
  | shutDown (handle : Option HandleId)
  /-- Pushes a stop message. -/
  | stop
  /-- Pushes an item. -/
  | submit (item : WorkItem)
  deriving DecidableEq, Repr

/-- What a handler does with one item: its actions, in order, and its complaint if it refuses the
item. -/
structure Reaction where
  actions : List Action
  complaint : Option Error
  deriving DecidableEq, Repr

/-- What a handler does at its n-th call (from 0) with the item that it is given. -/
abbrev Handler := Nat → WorkItem → Reaction

/-- A handler given by tables of tags. -/
structure Script where
  /-- The tags at which the consumer's handle is triggered. -/
  triggerAt : List UInt64
  /-- The tags at which a stop message is pushed. -/
  stopAt : List UInt64
  /-- Pairs of a tag and the tag of an item that is pushed at it. -/
  emits : List (UInt64 × UInt64)
  /-- The tags of refused items. -/
  refuses : List UInt64
  deriving DecidableEq, Repr

namespace Script

/-- The actions at a tag: the trigger, then the stop, then the items in the order of the table. -/
def actionsAt (s : Script) (tag : UInt64) : List Action :=
  (if s.triggerAt.contains tag then [.shutDown none] else []) ++
    (if s.stopAt.contains tag then [.stop] else []) ++
    (s.emits.filter (·.1 == tag)).map fun pair => .submit (.tagged pair.2)

/-- The handler that follows the tables. -/
def handler (s : Script) : Handler := fun _ item =>
  { actions := s.actionsAt item.tag
    complaint :=
      if s.refuses.contains item.tag then some (.other s!"rejected {item.tag}") else none }

end Script

/-! ## §3 Consumers and their reports -/

/-- Why a consumer ended. -/
inductive StopReason where
  | stopMessage
  | shutdown
  deriving DecidableEq, Repr

/-- The word for the reason. -/
def StopReason.word : StopReason → String
  | .stopMessage => "stop_message"
  | .shutdown => "shutdown"

/-- What a consumer did, said at its end. The counters are words. -/
structure Report where
  processed : UInt64
  failed : UInt64
  stoppedBy : StopReason
  deriving DecidableEq, Repr

/-- A consumer at work. -/
structure Consumer where
  handle : HandleId
  /-- For how many milliseconds it sleeps when there is nothing to do. -/
  pollInterval : Nat
  handler : Handler
  /-- The number of items that its handler was given. -/
  calls : Nat
  processed : UInt64
  failed : UInt64

namespace Consumer

/-- A consumer that has handled nothing yet. -/
def fresh (handle : HandleId) (pollInterval : Nat) (handler : Handler) : Consumer :=
  ⟨handle, pollInterval, handler, 0, 0, 0⟩

/-- What its handler does with the item that comes next. -/
def react (c : Consumer) (item : WorkItem) : Reaction := c.handler c.calls item

/-- The consumer after its handler answered: an accepted item is processed, a refused one failed. -/
def tally (c : Consumer) : Option Error → Consumer
  | none => { c with calls := c.calls + 1, processed := c.processed + 1 }
  | some _ => { c with calls := c.calls + 1, failed := c.failed + 1 }

/-- The report of the consumer if it ends now. -/
def report (c : Consumer) (reason : StopReason) : Report := ⟨c.processed, c.failed, reason⟩

end Consumer

end Handoff
