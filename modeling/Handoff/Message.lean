/-
Handoff.Message — what producers hand to consumers.

A work item is a tag and a payload of bytes that only its handler understands. A message is an item
or the wish that a consumer stop, so that the end of the work is a message of its own and no tag or
payload has to stand for it.
-/

namespace Handoff

/-- A tagged payload. -/
structure WorkItem where
  tag : UInt64
  payload : List UInt8
  deriving DecidableEq, Repr

namespace WorkItem

/-- An item with a tag and nothing else. -/
def tagged (tag : UInt64) : WorkItem := ⟨tag, []⟩

/-- The number of bytes of the payload. -/
def length (item : WorkItem) : Nat := item.payload.length

/-- Whether the payload has no byte. -/
def isEmpty (item : WorkItem) : Bool := item.payload.isEmpty

end WorkItem

/-- An item of work, or the end of it. -/
inductive Message where
  | data (item : WorkItem)
  | stop
  deriving DecidableEq, Repr

namespace Message

/-- Whether the message ends the work. -/
def isStop : Message → Bool
  | .data _ => false
  | .stop => true

/-- The item that the message carries. -/
def item? : Message → Option WorkItem
  | .data item => some item
  | .stop => none

end Message

end Handoff
