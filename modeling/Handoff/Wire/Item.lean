/-
Handoff.Wire.Item — reading the written form of an item.

An item is an object with exactly one member `tag` and one member `payload`, among any others, or an
array of just these two values. Reading goes from left to right and a wrong or repeated member ends
it there; what else may be wrong after it is not seen.
-/
import Handoff.Json.Value
import Handoff.Message

namespace Handoff.Wire

open Json (Fault Reader Care)

/-! ## §1 Fields -/

/-- The word that a value is. -/
def wordOf : Json.Value → Option UInt64
  | .number n =>
    match n.natural? with
    | some k => if k < Nat.pow 2 64 then some (UInt64.ofNat k) else none
    | none => none
  | _ => none

/-- The byte that a value is. -/
def byteOf : Json.Value → Option UInt8
  | .number n =>
    match n.natural? with
    | some k => if k < Nat.pow 2 8 then some (UInt8.ofNat k) else none
    | none => none
  | _ => none

/-- Reads a scalar of the right kind. -/
def kind {α : Type} (accept : Json.Value → Option α) (s : List Char) :
    Except Fault (α × List Char) :=
  match Json.scalar s with
  | .error f => .error f
  | .ok (v, rest) =>
    match accept v with
    | none => .error .mismatched
    | some a => .ok (a, rest)

/-- Reads a byte and puts it before those read so far. -/
def collectByte (read : List UInt8) : Reader (List UInt8) := fun s =>
  match kind byteOf s with
  | .error f => .error f
  | .ok (b, rest) => .ok (b :: read, rest)

/-- A scalar where something else has to stand: its own faults come first. -/
def wrongKind {α : Type} (s : List Char) : Except Fault α :=
  match Json.scalar s with
  | .error f => .error f
  | .ok _ => .error .mismatched

/-- Reads an array of bytes. -/
def bytes (limit : Nat) (s : List Char) : Except Fault (List UInt8 × List Char) :=
  match Json.skipBlanks s with
  | '[' :: rest =>
    match Json.foldElements limit collectByte true [] rest with
    | .error f => .error f
    | .ok (bs, t) => .ok (bs.reverse, t)
  | t => wrongKind t

/-! ## §2 Items -/

/-- The members of an item that were read so far. -/
structure Fields where
  tag : Option UInt64
  payload : Option (List UInt8)
  deriving DecidableEq, Repr

/-- No member yet. -/
def Fields.empty : Fields := ⟨none, none⟩

/-- The item, once both members are there. -/
def Fields.item (f : Fields) : Except Fault WorkItem :=
  match f.tag, f.payload with
  | some tag, some payload => .ok ⟨tag, payload⟩
  | _, _ => .error .mismatched

/-- Reads the value of a member after its name. -/
def afterColon {α : Type} (read : Reader α) (s : List Char) : Except Fault (α × List Char) :=
  match Json.colon s with
  | .error f => .error f
  | .ok t => read t

/-- Reads a member: the tag or the payload if it is the first of its name; any other is dropped. -/
def member (limit : Nat) (fields : Fields) : Reader Fields := fun s =>
  match Json.string .keep s with
  | .error f => .error f
  | .ok (name, t) =>
    if name = "tag" then
      if fields.tag.isSome then .error .mismatched
      else match afterColon (kind wordOf) t with
        | .error f => .error f
        | .ok (tag, u) => .ok ({ fields with tag := some tag }, u)
    else if name = "payload" then
      if fields.payload.isSome then .error .mismatched
      else match afterColon (bytes limit) t with
        | .error f => .error f
        | .ok (payload, u) => .ok ({ fields with payload := some payload }, u)
    else
      match Json.colon t with
      | .error f => .error f
      | .ok u =>
        match Json.skip limit u with
        | .error f => .error f
        | .ok v => .ok (fields, v)

/-- Reads an element of an array that must have one more. -/
def nextElement {α : Type} (first : Bool) (read : Reader α) (s : List Char) :
    Except Fault (α × List Char) :=
  match Json.arrayNext first s with
  | .error f => .error f
  | .ok (.close _) => .error .mismatched
  | .ok (.more t) => read t

/-- Reads the closing bracket of an array that must have no further element. -/
def closeArray (s : List Char) : Except Fault (List Char) :=
  match Json.skipBlanks s with
  | [] => .error .truncated
  | c :: rest => if c = ']' then .ok rest else .error .malformed

/-- Reads the elements of an item written as an array. -/
def itemElements (limit : Nat) (s : List Char) : Except Fault (WorkItem × List Char) :=
  match nextElement true (kind wordOf) s with
  | .error f => .error f
  | .ok (tag, t) =>
    match nextElement false (bytes limit) t with
    | .error f => .error f
    | .ok (payload, u) =>
      match closeArray u with
      | .error f => .error f
      | .ok rest => .ok (⟨tag, payload⟩, rest)

/-- Reads the members of an item written as an object. -/
def itemMembers (limit : Nat) (s : List Char) : Except Fault (WorkItem × List Char) :=
  match Json.foldMembers limit (member limit) .empty s with
  | .error f => .error f
  | .ok (fields, rest) =>
    match fields.item with
    | .error f => .error f
    | .ok item => .ok (item, rest)

/-- Reads an item. -/
def readItem (limit : Nat) (s : List Char) : Except Fault (WorkItem × List Char) :=
  match Json.skipBlanks s with
  | '[' :: rest => itemElements limit rest
  | '{' :: rest => itemMembers limit rest
  | t => wrongKind t

/-- Reads a text that holds one value and nothing else. -/
def readWhole {α : Type} (read : Nat → Reader α) (text : String) : Except Fault α :=
  match read text.toList.length text.toList with
  | .error f => .error f
  | .ok (a, rest) =>
    match Json.endOfText rest with
    | .error f => .error f
    | .ok () => .ok a

end Handoff.Wire

/-- Reads the written form of an item. -/
def Handoff.WorkItem.decode (text : String) : Except Handoff.Json.Fault Handoff.WorkItem :=
  Handoff.Wire.readWhole Handoff.Wire.readItem text
