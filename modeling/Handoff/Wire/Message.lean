/-
Handoff.Wire.Message — reading the written form of a message.

Where the member `type` stands is not fixed, so the whole object is read before its members are
looked at; only a wrong or repeated `type` ends the reading at once. The other members of data are
those of an item, under the same rules; those of a stop message do not matter. As an array, the type
comes first, then the tag and the payload.

At most `maxDepth` arrays and objects may stand inside each other, the outermost included.
-/
import Handoff.Wire.Item

namespace Handoff.Wire

open Json (Fault Reader Care)

/-- How many arrays and objects may stand inside each other. -/
def maxDepth : Nat := 127

/-! ## §1 The type -/

/-- What a message is. -/
inductive MessageType where
  | data
  | stop
  deriving DecidableEq, Repr

/-- The type that a value names. -/
def typeOf : Json.Value → Option MessageType
  | .string s => if s = "data" then some .data else if s = "stop" then some .stop else none
  | _ => none

/-! ## §2 Items from values -/

/-- The bytes that values are. -/
def bytesOf : List Json.Value → Option (List UInt8)
  | [] => some []
  | v :: vs =>
    match byteOf v, bytesOf vs with
    | some b, some bs => some (b :: bs)
    | _, _ => none

/-- The payload that a value is. -/
def payloadOf : Json.Value → Option (List UInt8)
  | .array vs => bytesOf vs
  | _ => none

/-- The fields after one more member: the tag or the payload if it is right and the first of its
name; any other is dropped. -/
def Fields.add (fields : Fields) (member : String × Json.Value) : Option Fields :=
  if member.1 = "tag" then
    if fields.tag.isSome then none
    else (wordOf member.2).map fun tag => { fields with tag := some tag }
  else if member.1 = "payload" then
    if fields.payload.isSome then none
    else (payloadOf member.2).map fun payload => { fields with payload := some payload }
  else some fields

/-- The fields after more members. -/
def Fields.addAll : Fields → List (String × Json.Value) → Option Fields
  | fields, [] => some fields
  | fields, m :: ms =>
    match fields.add m with
    | none => none
    | some more => more.addAll ms

/-- The item with these members. -/
def itemOfMembers (members : List (String × Json.Value)) : Except Fault WorkItem :=
  match Fields.empty.addAll members with
  | none => .error .mismatched
  | some fields => fields.item

/-- The item with these elements. -/
def itemOfElements : List Json.Value → Except Fault WorkItem
  | [tag, payload] =>
    match wordOf tag, payloadOf payload with
    | some tag, some payload => .ok ⟨tag, payload⟩
    | _, _ => .error .mismatched
  | _ => .error .mismatched

/-! ## §3 Messages -/

/-- What was read of an object: its type, and its other members, the last one first. -/
structure Gathered where
  type? : Option MessageType
  others : List (String × Json.Value)

/-- Reads a member. -/
def gather (limit : Nat) (g : Gathered) : Reader Gathered := fun s =>
  match Json.string .keep s with
  | .error f => .error f
  | .ok (name, t) =>
    if name = "type" then
      if g.type?.isSome then .error .mismatched
      else match afterColon (kind typeOf) t with
        | .error f => .error f
        | .ok (type, u) => .ok ({ g with type? := some type }, u)
    else
      match afterColon (Json.value .keep limit (maxDepth - 1)) t with
      | .error f => .error f
      | .ok (v, u) => .ok ({ g with others := (name, v) :: g.others }, u)

/-- The message that was read as an object. -/
def Gathered.message (g : Gathered) : Except Fault Message :=
  match g.type? with
  | none => .error .mismatched
  | some .stop => .ok .stop
  | some .data =>
    match itemOfMembers g.others.reverse with
    | .error f => .error f
    | .ok item => .ok (.data item)

/-- The message of a type with these elements after it. -/
def messageOfElements (elements : List Json.Value) : MessageType → Except Fault Message
  | .stop => if elements.isEmpty then .ok .stop else .error .mismatched
  | .data =>
    match itemOfElements elements with
    | .error f => .error f
    | .ok item => .ok (.data item)

/-- Reads the members of a message written as an object. -/
def messageMembers (limit : Nat) (s : List Char) : Except Fault (Message × List Char) :=
  match Json.foldMembers limit (gather limit) ⟨none, []⟩ s with
  | .error f => .error f
  | .ok (gathered, rest) =>
    match gathered.message with
    | .error f => .error f
    | .ok message => .ok (message, rest)

/-- Reads the elements of a message written as an array. -/
def messageElements (limit : Nat) (s : List Char) : Except Fault (Message × List Char) :=
  match nextElement true (kind typeOf) s with
  | .error f => .error f
  | .ok (type, t) =>
    match Json.foldElements limit (Json.collectElement (Json.value .keep limit (maxDepth - 1)))
        false [] t with
    | .error f => .error f
    | .ok (vs, rest) =>
      match messageOfElements vs.reverse type with
      | .error f => .error f
      | .ok message => .ok (message, rest)

/-- Reads a message. -/
def readMessage (limit : Nat) (s : List Char) : Except Fault (Message × List Char) :=
  match Json.skipBlanks s with
  | '[' :: rest => messageElements limit rest
  | '{' :: rest => messageMembers limit rest
  | t => wrongKind t

end Handoff.Wire

/-- Reads the written form of a message. -/
def Handoff.Message.decode (text : String) : Except Handoff.Json.Fault Handoff.Message :=
  Handoff.Wire.readWhole Handoff.Wire.readMessage text
