/-
Handoff.Memory — the memory that slots are taken from.

A buffer asks for all its slots at once. The request is answered by a `Memory`: it fails when the
bytes asked for pass the largest size that one block of memory can have (`maxBlockBytes`), and else
the memory is free to grant or to refuse it (`grants`). Nothing here is about a particular machine:
the statements of this library hold for every `Memory`, so for every pattern of refusals.
-/

namespace Handoff

/-! ## §1 Words -/

/-- One more than the largest number that a 64-bit word holds. -/
def wordLimit : Nat := Nat.pow 2 64

/-- The largest number of bytes that one block of memory can have. -/
def maxBlockBytes : Nat := Nat.pow 2 63 - 1

/-! ## §2 Requests -/

/-- Why slots were not handed out. -/
inductive AllocationFault where
  /-- The request is larger than any block of memory can be. -/
  | tooLarge
  /-- The memory refused the request. -/
  | refused
  deriving DecidableEq, Repr

/-- The text that describes the fault. -/
def AllocationFault.message : AllocationFault → String
  | .tooLarge =>
    "memory allocation failed because the computed capacity exceeded the collection's maximum"
  | .refused => "memory allocation failed because the memory allocator returned an error"

/-- Memory for slots of one size: the size of a slot in bytes, and for which numbers of slots a
request is granted. -/
structure Memory where
  slotBytes : Nat
  grants : Nat → Bool

namespace Memory

/-- A memory that grants every request below `2 ^ 52` slots and none above. -/
def ofSlotBytes (slotBytes : Nat) : Memory where
  slotBytes := slotBytes
  grants slots := slots < Nat.pow 2 52

/-- The same memory, except that requests for more than `limit` slots are refused. -/
def limitedTo (memory : Memory) (limit : Nat) : Memory where
  slotBytes := memory.slotBytes
  grants slots := slots ≤ limit && memory.grants slots

/-- The fault that a request for `slots` slots ends with, if it fails. -/
def fault? (memory : Memory) (slots : Nat) : Option AllocationFault :=
  if maxBlockBytes < slots * memory.slotBytes then some .tooLarge
  else if memory.grants slots then none
  else some .refused

end Memory

end Handoff
