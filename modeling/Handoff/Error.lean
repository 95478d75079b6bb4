/-
Handoff.Error — what can go wrong, and the wording of it.

`ConfigFault` says what is wrong with a configuration and `Error` what went wrong in the library;
both are causes, and `message` is the one place that words them. `Rejection` is a push that did not
take place: it carries the item back to its owner beside the cause.
-/
import Handoff.Memory

namespace Handoff

/-! ## §1 Configuration -/

/-- What is wrong with a configuration. -/
inductive ConfigFault where
  /-- A queue is to start without a slot. -/
  | initialCapacityZero
  /-- The ceiling of a queue's settings leaves no slot for an item. -/
  | ceilingTooLow (max : Nat)
  /-- The ceiling of a queue's settings is below their initial capacity. -/
  | ceilingBelowInitial (max initial : Nat)
  /-- An idle consumer would never sleep. -/
  | pollIntervalZero
  /-- A buffer was asked for with a ceiling that leaves no slot for an item. -/
  | bufferCeilingTooLow (max : Nat)
  /-- A buffer was asked for with a ceiling below its initial capacity. -/
  | bufferCeilingBelowInitial (max initial : Nat)
  /-- An environment variable does not hold a number. -/
  | badVariable (name raw : String)
  /-- A configuration file could not be read. -/
  | unreadable (path reason : String)
  /-- A configuration file is not a configuration. -/
  | badFile (path : String)
  /-- A fault given by its text. -/
  | described (text : String)
  deriving DecidableEq, Repr

/-- The text that describes the fault. -/
def ConfigFault.message : ConfigFault → String
  | .initialCapacityZero => "initial_capacity must be at least 1"
  | .ceilingTooLow max =>
    s!"max_capacity {max} leaves no usable slot; it must be at least 2"
  | .ceilingBelowInitial max initial =>
    s!"max_capacity {max} is below initial_capacity {initial}"
  | .pollIntervalZero => "poll_interval_ms must be greater than zero"
  | .bufferCeilingTooLow max =>
    s!"max capacity {max} leaves no usable slot; it must be at least 2"
  | .bufferCeilingBelowInitial max initial =>
    s!"max capacity {max} is below initial capacity {initial}"
  | .badVariable name raw => s!"environment variable {name}={raw} is not valid"
  | .unreadable path reason => s!"cannot read config {path}: {reason}"
  | .badFile path => s!"bad config {path}"
  | .described text => text

/-! ## §2 Errors -/

/-- What went wrong. -/
inductive Error where
  /-- A buffer was asked for with no slot at all. -/
  | invalidCapacity (capacity : Nat)
  /-- The memory did not hand out `requested` slots. -/
  | allocation (requested : Nat) (fault : AllocationFault)
  /-- Twice the capacity is not a word. -/
  | capacityOverflow (capacity : Nat)
  /-- The buffer is full and at its ceiling. -/
  | capacityExceeded (capacity max : Nat)
  /-- The configuration is at fault. -/
  | config (fault : ConfigFault)
  /-- Reading or writing failed. -/
  | io (text : String)
  /-- Anything else, given by its text. -/
  | other (text : String)
  deriving DecidableEq, Repr

namespace Error

/-- The text that describes the error. -/
def message : Error → String
  | .invalidCapacity capacity => s!"invalid queue capacity {capacity}: must be at least 1"
  | .allocation requested _ => s!"failed to allocate {requested} queue slots"
  | .capacityOverflow capacity =>
    s!"queue capacity {capacity} cannot be doubled without overflow"
  | .capacityExceeded capacity max =>
    s!"queue is at its maximum capacity of {max} slots (current {capacity})"
  | .config fault => "configuration error: " ++ fault.message
  | .io text => "io error: " ++ text
  | .other text => text

/-- The text of the cause below the error, where it has one. -/
def source? : Error → Option String
  | .allocation _ fault => some fault.message
  | .io text => some text
  | _ => none

/-- Whether the error says that the buffer is full and at its ceiling. -/
def isFull : Error → Bool
  | .capacityExceeded .. => true
  | _ => false

end Error

/-! ## §3 Rejected pushes -/

/-- A push that did not take place: the item, handed back, and the cause. -/
structure Rejection (α : Type) where
  item : α
  error : Error
  deriving DecidableEq, Repr

namespace Rejection

variable {α : Type}

/-- Whether the push failed because the buffer is full and at its ceiling; only then can it succeed
later without anything but a removal. -/
def isFull (r : Rejection α) : Bool := r.error.isFull

/-- The text that describes the rejection. -/
def message (r : Rejection α) : String := "push rejected: " ++ r.error.message

/-- The rejection of a full buffer as a developer sees it; the item is left out. -/
def inspectFull? (r : Rejection α) : Option String :=
  match r.error with
  | .capacityExceeded capacity max =>
    some ("PushError \x7b error: CapacityExceeded \x7b capacity: " ++ toString capacity ++
      ", max: " ++ toString max ++ " \x7d, .. \x7d")
  | _ => none

end Rejection

end Handoff
