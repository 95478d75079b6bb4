/-
Handoff.Wire.Printed — the written form of items and messages.

An item is written as an object with its tag and its payload; a message as an object whose `type`
says whether it is data, and which then has the item's members beside it.
-/
import Handoff.Message

namespace Handoff

/-- The decimal digits of a number. -/
def decimalChars (n : Nat) : List Char := Nat.toDigits 10 n

namespace WorkItem

/-- Bytes with a comma between each two. -/
def payloadChars (payload : List UInt8) : List Char :=
  [','].intercalate (payload.map fun b => decimalChars b.toNat)

/-- The members of an item, up to the end of the object. -/
def memberChars (item : WorkItem) : List Char :=
  "\"tag\":".toList ++ decimalChars item.tag.toNat ++ ",\"payload\":[".toList ++
    payloadChars item.payload ++ "]\x7d".toList

/-- The written form of an item. -/
def encode (item : WorkItem) : String := .ofList ('{' :: item.memberChars)

end WorkItem

namespace Message

/-- The characters of a message. -/
def chars : Message → List Char
  | .data item => "\x7b\"type\":\"data\",".toList ++ item.memberChars
  | .stop => "\x7b\"type\":\"stop\"\x7d".toList

/-- The written form of a message. -/
def encode (message : Message) : String := .ofList message.chars

end Message

end Handoff
