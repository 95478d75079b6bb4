/-
Handoff.Proofs.Wire.RoundTrip — what is written is read back.

The written form of an item spells an object of its members, that of a message the same object with
a `type` before them. What is read of them is therefore decided by the members, and these are few:
the rest is to look at them. A reader of items drops the `type` of a message as it drops any member
that it does not know, and a reader of messages misses it in an item.

  §1 members      — `WorkItem.members`, `WorkItem.spells_members`
  §2 documents    — `WorkItem.document_encode`, `Message.document_encode`
  §3 round trips  — `WorkItem.itemOfMembers_eq`, `decode_encode`
-/
import Handoff.Proofs.Json.Plain
import Handoff.Proofs.Wire.Reading

namespace Handoff

open Json Wire

/-! ## §1 Members -/

/-- The tag of an item as a member of an object. -/
def WorkItem.tagMember (item : WorkItem) : String × Value :=
  ("tag", .number (.plain item.tag.toNat))

/-- The payload of an item as a member of an object. -/
def WorkItem.payloadMember (item : WorkItem) : String × Value :=
  ("payload", .array (item.payload.map fun b => .number (.plain b.toNat)))

/-- The `type` of a message as a member of an object. -/
def Message.typeMember : Message → String × Value
  | .data _ => ("type", .string "data")
  | .stop => ("type", .string "stop")

/-- The members of a message. -/
def Message.members : Message → List (String × Value)
  | .data item => [typeMember (.data item), item.tagMember, item.payloadMember]
  | .stop => [typeMember .stop]

namespace WorkItem

variable (item : WorkItem) (care : Care) (depth : Nat)

theorem member_tag : Member care (Spells care depth)
    ("\"tag\":".toList ++ decimalChars item.tag.toNat) item.tagMember := by
  exact (Member.plain care (show "tag".toList.all isPlain = true by decide)
    (spells_plain care depth item.tag.toNat_lt) :)

theorem member_payload : Member care (Spells care (depth + 1))
    ("\"payload\":[".toList ++ (payloadChars item.payload ++ [']'])) item.payloadMember := by
  have helements : Series ']' (Spells care depth) (payloadChars item.payload ++ [']'])
      (item.payload.map fun b => .number (.plain b.toNat)) :=
    Series.intercalate fun b _ => spells_plain care depth (Nat.lt_trans b.toNat_lt (by decide))
  have harray : Spells care (depth + 1) ('[' :: (payloadChars item.payload ++ [']'])) _ :=
    .array helements
  exact (Member.plain care (show "payload".toList.all isPlain = true by decide) harray :)

/-- The members of an item are its tag, a comma, its payload and the end of the object. -/
theorem memberChars_eq : item.memberChars =
    ("\"tag\":".toList ++ decimalChars item.tag.toNat) ++
      ',' :: (("\"payload\":[".toList ++ (payloadChars item.payload ++ [']'])) ++ ['}']) := by
  have hcomma : ",\"payload\":[".toList = ',' :: "\"payload\":[".toList := by decide
  have hend : "]\x7d".toList = [']', '}'] := by decide
  delta memberChars
  simp only [hcomma, hend, List.append_assoc, List.cons_append, List.nil_append]

/-- After its tag an item goes on with its payload. -/
theorem continued_payload : Continued '}' (Member care (Spells care (depth + 1)))
    (',' :: (("\"payload\":[".toList ++ (payloadChars item.payload ++ [']'])) ++ ['}']))
    [item.payloadMember] :=
  .next .nil .nil (item.member_payload care depth) (.closing '}')

theorem spells_chars : Spells care (depth + 2) ('{' :: item.memberChars)
    (.object [item.tagMember, item.payloadMember]) := by
  have h := Series.items Blanks.nil (item.member_tag care (depth + 1))
    (item.continued_payload care depth)
  rw [memberChars_eq]
  exact .object h

end WorkItem

namespace Message

variable (message : Message) (care : Care) (depth : Nat)

theorem member_type {name : String} (plain : name.toList.all isPlain = true) :
    Member care (Spells care depth)
      ("\"type\":".toList ++ ('"' :: (name.toList ++ ['"']))) ("type", .string name) := by
  have hname : Spells care depth ('"' :: (name.toList ++ ['"']))
      (.string (String.ofList name.toList)) := (Scalar.string (.plain care plain)).spells depth
  rw [String.ofList_toList] at hname
  exact (Member.plain care (show "type".toList.all isPlain = true by decide) hname :)

theorem spells_chars : Spells care (depth + 2) message.chars (.object message.members) := by
  cases message with
  | stop =>
    have hmember := member_type care (depth + 1)
      (show "stop".toList.all isPlain = true by decide)
    have hspells := Nested.object (Series.items Blanks.nil hmember (.closing '}'))
    exact hspells
  | data item =>
    have htag := Continued.next Blanks.nil Blanks.nil (item.member_tag care (depth + 1))
      (item.continued_payload care depth)
    have hmember := member_type care (depth + 1)
      (show "data".toList.all isPlain = true by decide)
    have hspells := Nested.object (Series.items Blanks.nil hmember htag)
    show Spells care (depth + 2) ("\x7b\"type\":\"data\",".toList ++ item.memberChars) _
    rw [item.memberChars_eq]
    exact hspells

end Message

/-! ## §2 Documents -/

theorem WorkItem.document_encode (item : WorkItem) (care : Care) (depth : Nat) :
    Document care (depth + 2) item.encode (.object [item.tagMember, item.payloadMember]) :=
  ⟨[], _, [], .nil, .nil, item.spells_chars care depth, by simp [encode]⟩

theorem Message.document_encode (message : Message) (care : Care) (depth : Nat) :
    Document care (depth + 2) message.encode (.object message.members) :=
  ⟨[], _, [], .nil, .nil, message.spells_chars care depth, by simp [encode]⟩

/-! ## §3 Round trips -/

theorem Wire.wordOf_plain (w : UInt64) : wordOf (.number (.plain w.toNat)) = some w := by
  have hlt : w.toNat < Nat.pow 2 64 := w.toNat_lt
  simp only [wordOf, Numeral.natural?_plain, UInt64.ofNat_toNat, hlt, if_true]

theorem Wire.byteOf_plain (b : UInt8) : byteOf (.number (.plain b.toNat)) = some b := by
  have hlt : b.toNat < Nat.pow 2 8 := b.toNat_lt
  simp only [byteOf, Numeral.natural?_plain, UInt8.ofNat_toNat, hlt, if_true]

theorem Wire.bytesOf_plain (bs : List UInt8) :
    bytesOf (bs.map fun b => .number (.plain b.toNat)) = some bs := by
  induction bs with
  | nil => rfl
  | cons b bs ih => simp only [List.map_cons, bytesOf, byteOf_plain, ih]

/-- The members of an item give the item. -/
theorem WorkItem.itemOfMembers_eq (item : WorkItem) :
    itemOfMembers [item.tagMember, item.payloadMember] = .ok item := by
  simp [itemOfMembers, Fields.addAll, Fields.add, Fields.empty, Fields.item, tagMember,
    payloadMember, payloadOf, wordOf_plain, bytesOf_plain]

/-- A reader of items does not see the `type` of a message. -/
theorem Message.itemOfMembers_eq (message : Message) : itemOfMembers message.members =
    match message with
    | .data item => .ok item
    | .stop => .error .mismatched := by
  have htype : ∀ v, Fields.empty.add ("type", v) = some .empty := fun v =>
    Fields.empty.add_other (by simp) (by simp)
  cases message with
  | stop =>
    simp only [members, typeMember, itemOfMembers, Fields.addAll, htype]
    rfl
  | data item =>
    have hskip : itemOfMembers (members (.data item)) =
        itemOfMembers [item.tagMember, item.payloadMember] := by
      simp only [members, typeMember, itemOfMembers, Fields.addAll, htype]
    rw [hskip, item.itemOfMembers_eq]

/-- The members of a message give the message. -/
theorem Message.messageOfMembers_eq (message : Message) :
    messageOfMembers message.members = .ok message := by
  cases message with
  | stop => rfl
  | data item =>
    have hreverse : [item.payloadMember, item.tagMember].reverse =
        [item.tagMember, item.payloadMember] := rfl
    show Gathered.message ⟨some .data, [item.payloadMember, item.tagMember]⟩ = _
    simp only [Gathered.message, hreverse, item.itemOfMembers_eq]

/-- **What is written is read back**: an item as an item, a message as a message, and the item of a
message also as an item; no item is read as a message, and a stop message not as an item. So the
value of a text, however the text spells it, is also that of what is written for the value. -/
theorem decode_encode :
    (∀ item : WorkItem, WorkItem.decode item.encode = .ok item) ∧
    (∀ message : Message, Message.decode message.encode = .ok message) ∧
    (∀ item : WorkItem, WorkItem.decode (Message.data item).encode = .ok item) ∧
    (∀ item : WorkItem, Message.decode item.encode = .error .mismatched) ∧
    WorkItem.decode Message.stop.encode = .error .mismatched ∧
    (∀ text, (WorkItem.decode text >>= fun item => WorkItem.decode item.encode) =
      WorkItem.decode text) ∧
    ∀ text, (Message.decode text >>= fun message => Message.decode message.encode) =
      Message.decode text := by
  have hitem : ∀ item : WorkItem, WorkItem.decode item.encode = .ok item := fun item =>
    (WorkItem.decode_object (item.document_encode .keep 0)).trans item.itemOfMembers_eq
  have hmessage : ∀ message : Message, Message.decode message.encode = .ok message := by
    intro message
    rw [Message.decode_object (message.document_encode .keep 125)]
    exact message.messageOfMembers_eq
  refine ⟨hitem, hmessage, fun item => ?_, fun item => ?_, ?_, fun text => ?_, fun text => ?_⟩
  · rw [WorkItem.decode_object ((Message.data item).document_encode .keep 0),
      Message.itemOfMembers_eq]
  · rw [Message.decode_object (item.document_encode .keep 125)]
    rfl
  · rw [WorkItem.decode_object (Message.stop.document_encode .keep 0), Message.itemOfMembers_eq]
  · cases hdecode : WorkItem.decode text with
    | error f => rfl
    | ok item => simp only [bind, Except.bind, hitem]
  · cases hdecode : Message.decode text with
    | error f => rfl
    | ok message => simp only [bind, Except.bind, hmessage]

end Handoff
