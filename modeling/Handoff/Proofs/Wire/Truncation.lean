/-
Handoff.Proofs.Wire.Truncation — a written form that is cut short is truncated.

A short read must not look like bad data. What is left of a written form can end anywhere: in a
name, in a number, whose front is a number too, or between two pieces. Reading always comes to that
end. Members that are missing are not missed before the object is closed, and no member is taken up
in vain on the way, as the whole form would have been accepted.

The members are told apart as they are written, by their text (`WorkItem.Writes`,
`Message.Writes`), since not all that may be read as a member can be cut so: a number that is
dropped must not end with the text.

  §1 scalars and bytes   — `word_cut`, `bytes_cut`
  §2 names               — `named_cut`
  §3 members of items    — `WorkItem.Writes`, `member_cut`
  §4 members of messages — `Message.Writes`, `gather_cut`
  §5 whole texts         — `truncation_detected`
-/
import Handoff.Proofs.Json.Truncation
import Handoff.Proofs.Wire.RoundTrip

namespace Handoff.Wire

open Json

variable {p s : List Char} {m : String × Value} {limit : Nat}

/-! ## §1 Scalars and bytes -/

/-- What is left of a tag is a tag. -/
theorem word_cut {w : UInt64} (cut : Cut p (decimalChars w.toNat)) : RunsOut (kind wordOf p) := by
  have hreads := kind_reads wordOf (fun _ => rfl) (fun _ => rfl) p.length 0
  have haccepts : ∀ n < wordLimit, ∃ tag, required (wordOf (.number (.plain n))) = .ok tag := by
    intro n hn
    have hlt : n < Nat.pow 2 64 := hn
    exact ⟨_, by simp only [wordOf, Numeral.natural?_plain, hlt, if_true]; rfl⟩
  have hprinted : PrintedNumber wordLimit (decimalChars w.toNat) (.number (.plain w.toNat)) :=
    ⟨_, w.toNat_lt, rfl, rfl⟩
  exact hprinted.cut hreads rfl (Nat.le_refl _) haccepts cut (Nat.le_refl _)

/-- What is left of a byte is a byte. -/
theorem byte_cut {v : Value} (h : PrintedNumber 256 s v) (cut : Cut p s) :
    RunsOut (kind byteOf p) := by
  have hreads := kind_reads byteOf (fun _ => rfl) (fun _ => rfl) p.length 0
  have haccepts : ∀ n < 256, ∃ b, required (byteOf (.number (.plain n))) = .ok b := by
    intro n hn
    have hlt : n < Nat.pow 2 8 := hn
    exact ⟨_, by simp only [byteOf, Numeral.natural?_plain, hlt, if_true]; rfl⟩
  exact h.cut hreads rfl (by decide) haccepts cut (Nat.le_refl _)

/-- A string that is cut lacks its closing quote, of whatever kind it should be. -/
theorem kind_cut_string {α : Type} (accept : Value → Option α) {cs : List Char}
    (plain : cs.all isPlain = true) (cut : Cut p ('"' :: (cs ++ ['"']))) :
    kind accept p = .error .truncated := by
  rcases cut.cons with rfl | ⟨q, rfl, hq⟩
  · rfl
  · rw [kind, scalar, skipBlanks_cons (by decide), scalarFrom, if_pos rfl, hq.string_eq plain]

/-- The bytes of a payload as they are written. -/
theorem series_payload (payload : List UInt8) :
    Series ']' (PrintedNumber 256) (WorkItem.payloadChars payload ++ [']'])
      (payload.map fun b => .number (.plain b.toNat)) :=
  Series.intercalate fun b _ => ⟨b.toNat, b.toNat_lt, rfl, rfl⟩

theorem byteBreaks (limit : Nat) : Breaks arrayNext collectByte (PrintedNumber 256) limit
    fun read v => required ((byteOf v).map (· :: read)) := by
  refine arrayBreaks (fun _ _ h => (h.spells (by decide) .keep 0).starts) ?_
  intro s v p h cut _ _ read _ _
  have hbyte := byte_cut h cut
  have hcollect : collectByte read p = (kind byteOf p).map fun a => (a.1 :: read, a.2) := by
    rw [collectByte]
    cases kind byteOf p <;> rfl
  rw [hcollect]
  exact hbyte.map (· :: read)

/-- A payload that is cut lacks its closing bracket. -/
theorem bytes_cut {payload : List UInt8}
    (cut : Cut p ('[' :: (WorkItem.payloadChars payload ++ [']']))) (small : p.length ≤ limit) :
    bytes limit p = .error .truncated := by
  rcases cut.cons with rfl | ⟨q, rfl, hq⟩
  · rfl
  · rw [List.length_cons] at small
    have hsteps := (byteSteps limit 0).narrow (F := PrintedNumber 256) fun _ _ h =>
      h.spells (by decide) .keep 0
    have haccepts := foldlM_byteOf (payload.map fun b => .number (.plain b.toNat)) []
    rw [bytesOf_plain] at haccepts
    have hfold := (series_payload payload).foldPieces_cut hsteps (byteBreaks limit) hq small
      haccepts
    unfold bytes
    rw [skipBlanks_cons (by decide)]
    simp only [foldElements, hfold]

/-! ## §2 Names -/

/-- A member is cut in its name, or in its value, or between them. What its reader makes of a whole
name and of a value is all that matters. -/
theorem named_cut {α β : Type} {piece : Reader α} {read : Reader β} {name : String} {t : List Char}
    (plain : name.toList.all isPlain = true) (cut : Cut p (name.toList ++ '"' :: ':' :: t))
    (small : p.length < limit) (f : β → α)
    (unnamed : string .keep p = .error .truncated → piece p = .error .truncated)
    (named : ∀ rest, string .keep p = .ok (name, rest) →
      piece p = (afterColon read rest).map fun read => (f read.1, read.2))
    (reads : ∀ q, Cut q t → q.length ≤ limit → RunsOut (read q)) : RunsOut (piece p) := by
  have htext : name.toList ++ '"' :: ':' :: t = (name.toList ++ ['"']) ++ ':' :: t := by simp
  rw [htext] at cut
  rcases cut.append with hname | ⟨rest, rfl, hrest⟩
  · exact .inl (unnamed (hname.string_eq plain))
  · rw [named rest (by simpa using string_plain plain rest)]
    rcases hrest.cons with rfl | ⟨q, rfl, hq⟩
    · exact .inl rfl
    · simp only [List.length_append, List.length_cons] at small
      exact (reads q hq (by omega)).map f

/-! ## §3 Members of items -/

variable {fields later : Fields} {rest : List Char}

/-- The first tag is read as the field that it is. -/
theorem member_of_tag (new : fields.tag = none) (name : string .keep p = .ok ("tag", rest)) :
    member limit fields p = (afterColon (kind wordOf) rest).map fun read =>
      ({ fields with tag := some read.1 }, read.2) := by
  rw [member, name]
  simp only [new, if_true, Option.isSome_none, Bool.false_eq_true, if_false]
  cases afterColon (kind wordOf) rest <;> rfl

theorem member_of_payload (new : fields.payload = none)
    (name : string .keep p = .ok ("payload", rest)) :
    member limit fields p = (afterColon (bytes limit) rest).map fun read =>
      ({ fields with payload := some read.1 }, read.2) := by
  have hother : "payload" ≠ "tag" := by decide
  rw [member, name]
  simp only [hother, new, if_true, Option.isSome_none, Bool.false_eq_true, if_false]
  cases afterColon (bytes limit) rest <;> rfl

/-- A field is only accepted once. -/
theorem new_of_add (accepts : required (fields.add m) = .ok later) :
    (m.1 = "tag" → fields.tag = none) ∧ (m.1 = "payload" → fields.payload = none) := by
  constructor
  · intro hname
    rw [Fields.add, if_pos hname] at accepts
    cases htag : fields.tag with
    | none => rfl
    | some tag =>
      rw [htag] at accepts
      cases accepts
  · intro hname
    rw [Fields.add, if_neg (by rw [hname]; decide), if_pos hname] at accepts
    cases hpayload : fields.payload with
    | none => rfl
    | some payload =>
      rw [hpayload] at accepts
      cases accepts

end Handoff.Wire

namespace Handoff

open Json Wire

/-- The text of a member of the item, and the member. -/
def WorkItem.Writes (item : WorkItem) (s : List Char) (m : String × Value) : Prop :=
  s = '"' :: ("tag".toList ++ '"' :: ':' :: decimalChars item.tag.toNat) ∧ m = item.tagMember ∨
  s = '"' :: ("payload".toList ++
    '"' :: ':' :: '[' :: (payloadChars item.payload ++ [']'])) ∧ m = item.payloadMember

namespace WorkItem

variable {item : WorkItem} {p s : List Char} {m : String × Value} {limit : Nat}

theorem Writes.spells (h : item.Writes s m) (depth : Nat) :
    Member .keep (Spells .keep (depth + 1)) s m := by
  rcases h with ⟨rfl, rfl⟩ | ⟨rfl, rfl⟩
  · exact item.member_tag .keep (depth + 1)
  · exact item.member_payload .keep depth

theorem writes_tag (item : WorkItem) :
    item.Writes ("\"tag\":".toList ++ decimalChars item.tag.toNat) item.tagMember :=
  .inl ⟨rfl, rfl⟩

theorem writes_payload (item : WorkItem) :
    item.Writes ("\"payload\":[".toList ++ (payloadChars item.payload ++ [']']))
      item.payloadMember :=
  .inr ⟨rfl, rfl⟩

/-- A member of an item that is cut is read until the text ends. -/
theorem Writes.member_cut {fields later : Fields} (h : item.Writes ('"' :: s) m) (cut : Cut p s)
    (small : p.length < limit) (accepts : required (fields.add m) = .ok later) :
    RunsOut (member limit fields p) := by
  obtain ⟨htag, hpayload⟩ := new_of_add accepts
  have hunnamed : string .keep p = .error .truncated → member limit fields p = .error .truncated :=
    fun h => by rw [member, h]
  rcases h with ⟨htext, rfl⟩ | ⟨htext, rfl⟩
  · obtain ⟨-, rfl⟩ := List.cons.inj htext
    exact named_cut (by decide) cut small (fun tag => { fields with tag := some tag }) hunnamed
      (fun _ => member_of_tag (htag rfl)) fun q hq _ => word_cut hq
  · obtain ⟨-, rfl⟩ := List.cons.inj htext
    exact named_cut (by decide) cut small (fun payload => { fields with payload := some payload })
      hunnamed (fun _ => member_of_payload (hpayload rfl)) fun q hq hlength =>
        .inl (bytes_cut hq hlength)

/-- Members of an item that are cut lack the closing bracket. -/
theorem itemMembers_cut (cut : Cut p item.memberChars) (small : p.length < limit) :
    itemMembers limit p = .error .truncated := by
  have hseries : Series '}' item.Writes item.memberChars [item.tagMember, item.payloadMember] := by
    rw [memberChars_eq]
    exact .items .nil item.writes_tag (.next .nil .nil item.writes_payload (.closing '}'))
  have hsteps := (memberSteps limit 1).narrow fun s m (h : item.Writes s m) => h.spells 0
  have hbreaks : Breaks objectNext (member limit) item.Writes limit fun fields m =>
      required (fields.add m) :=
    objectBreaks (fun s m h => (h.spells 0).quoted) fun s m p h cut small fields later accepts =>
      h.member_cut cut small accepts
  have haccepts := foldlM_add [item.tagMember, item.payloadMember] .empty
  cases hadd : Fields.empty.addAll [item.tagMember, item.payloadMember] with
  | none =>
    have hitem := item.itemOfMembers_eq
    rw [itemOfMembers, hadd] at hitem
    cases hitem
  | some fields =>
    rw [hadd] at haccepts
    have hfold := hseries.foldPieces_cut hsteps hbreaks cut small haccepts
    simp only [itemMembers, foldMembers, hfold]

end WorkItem

/-! ## §4 Members of messages -/

namespace Wire

variable {p rest : List Char} {g : Gathered} {limit : Nat}

theorem gather_of_type (new : g.type? = none) (name : string .keep p = .ok ("type", rest)) :
    gather limit g p = (afterColon (kind typeOf) rest).map fun read =>
      ({ g with type? := some read.1 }, read.2) := by
  rw [gather, name]
  simp only [new, if_true, Option.isSome_none, Bool.false_eq_true, if_false]
  cases afterColon (kind typeOf) rest <;> rfl

/-- Any other member is read as a value. -/
theorem gather_of_other {name : String} (other : name ≠ "type")
    (h : string .keep p = .ok (name, rest)) :
    gather limit g p = (afterColon (value .keep limit (maxDepth - 1)) rest).map fun read =>
      ({ g with others := (name, read.1) :: g.others }, read.2) := by
  rw [gather, h]
  simp only [other, if_false]
  cases afterColon (value .keep limit (maxDepth - 1)) rest <;> rfl

/-- A type is only accepted once. -/
theorem untyped_of_add {m : String × Value} {later : Gathered} (accepts : g.add m = .ok later)
    (name : m.1 = "type") : g.type? = none := by
  rw [Gathered.add, if_pos name] at accepts
  cases htype : g.type? with
  | none => rfl
  | some type =>
    rw [htype] at accepts
    cases accepts

end Wire

/-- The text of a member of a message, and the member. -/
def Message.Writes (s : List Char) (m : String × Value) : Prop :=
  (∃ name ∈ ["data", "stop"],
    s = '"' :: ("type".toList ++ '"' :: ':' :: '"' :: (name.toList ++ ['"'])) ∧
      m = ("type", .string name)) ∨
  ∃ item : WorkItem, item.Writes s m

namespace Message

variable {message : Message} {p s : List Char} {m : String × Value} {limit : Nat}

theorem plain_of_mem {name : String} (h : name ∈ ["data", "stop"]) :
    name.toList.all isPlain = true := by
  simp only [List.mem_cons, List.not_mem_nil, or_false] at h
  rcases h with rfl | rfl <;> decide

theorem Writes.spells (h : Writes s m) : Member .keep (Spells .keep (maxDepth - 1)) s m := by
  rcases h with ⟨name, hname, rfl, rfl⟩ | ⟨item, hitem⟩
  · exact member_type .keep (maxDepth - 1) (plain_of_mem hname)
  · exact hitem.spells 125

/-- A member of a message that is cut is read until the text ends. -/
theorem Writes.gather_cut {g later : Gathered} (h : Writes ('"' :: s) m) (cut : Cut p s)
    (small : p.length < limit) (accepts : g.add m = .ok later) : RunsOut (gather limit g p) := by
  have hunnamed : string .keep p = .error .truncated → gather limit g p = .error .truncated :=
    fun h => by rw [gather, h]
  rcases h with ⟨type, htype, htext, rfl⟩ | ⟨item, ⟨htext, rfl⟩ | ⟨htext, rfl⟩⟩
  · obtain ⟨-, rfl⟩ := List.cons.inj htext
    exact named_cut (by decide) cut small (fun type => { g with type? := some type }) hunnamed
      (fun _ => gather_of_type (untyped_of_add accepts rfl)) fun q hq _ =>
        .inl (kind_cut_string typeOf (plain_of_mem htype) hq)
  · obtain ⟨-, rfl⟩ := List.cons.inj htext
    have hprinted : PrintedNumber wordLimit (decimalChars item.tag.toNat) _ :=
      ⟨_, item.tag.toNat_lt, rfl, rfl⟩
    exact named_cut (by decide) cut small (fun v => { g with others := ("tag", v) :: g.others })
      hunnamed (fun _ => gather_of_other (by decide)) fun q hq hlength =>
        value_cut_number (Nat.le_refl _) hprinted hq hlength
  · obtain ⟨-, rfl⟩ := List.cons.inj htext
    have hvalue : ∀ q, Cut q _ → q.length ≤ limit → RunsOut (value .keep limit (125 + 1) q) :=
      fun q hq hlength => .inl (value_cut_array (by decide) (series_payload item.payload) hq hlength)
    exact named_cut (by decide) cut small (fun v => { g with others := ("payload", v) :: g.others })
      hunnamed (fun _ => gather_of_other (by decide)) hvalue

theorem writes_type {name : String} (h : name ∈ ["data", "stop"]) :
    Writes ("\"type\":".toList ++ ('"' :: (name.toList ++ ['"']))) ("type", .string name) :=
  .inl ⟨name, h, rfl, rfl⟩

theorem writes_item {item : WorkItem} (h : item.Writes s m) : Writes s m := .inr ⟨item, h⟩

/-- A message is a bracket and a series of its members. -/
theorem series_chars (message : Message) :
    ∃ t, message.chars = '{' :: t ∧ Series '}' Writes t message.members := by
  cases message with
  | stop =>
    have hseries := Series.items Blanks.nil (writes_type (show "stop" ∈ _ by simp)) (.closing '}')
    exact ⟨_, rfl, hseries⟩
  | data item =>
    have hpayload := Continued.next Blanks.nil Blanks.nil (writes_item item.writes_payload)
      (.closing '}')
    have htag := Continued.next Blanks.nil Blanks.nil (writes_item item.writes_tag) hpayload
    have hseries := Series.items Blanks.nil (writes_type (show "data" ∈ _ by simp)) htag
    refine ⟨_, ?_, hseries⟩
    show "\x7b\"type\":\"data\",".toList ++ item.memberChars = _
    rw [item.memberChars_eq]
    rfl

/-- Members of a message that are cut lack the closing bracket. -/
theorem messageMembers_cut {t : List Char} (series : Series '}' Writes t message.members)
    (cut : Cut p t) (small : p.length < limit) : messageMembers limit p = .error .truncated := by
  have hsteps := (gatherSteps limit).narrow fun s m (h : Writes s m) => h.spells
  have hbreaks : Breaks objectNext (gather limit) Writes limit Gathered.add :=
    objectBreaks (fun s m h => h.spells.quoted) fun s m p h cut small g later accepts =>
      h.gather_cut cut small accepts
  have hmessage := message.messageOfMembers_eq
  rw [messageOfMembers] at hmessage
  cases haccepts : message.members.foldlM Gathered.add ⟨none, []⟩ with
  | error f =>
    rw [haccepts] at hmessage
    cases hmessage
  | ok g =>
    have hfold := series.foldPieces_cut hsteps hbreaks cut small haccepts
    simp only [messageMembers, foldMembers, hfold]

end Message

/-! ## §5 Whole texts -/

/-- Of a written form that is cut nothing is left, or its bracket and part of its members. -/
theorem Wire.readWhole_cut {α : Type} {read members : Nat → Reader α} {t : List Char}
    {text : String} (nothing : ∀ limit, read limit [] = .error .truncated)
    (opens : ∀ limit q, read limit ('{' :: q) = members limit q)
    (cut : Cut text.toList ('{' :: t))
    (truncated : ∀ limit q, Cut q t → q.length < limit → members limit q = .error .truncated) :
    readWhole read text = .error .truncated := by
  have hread : read text.toList.length text.toList = .error .truncated := by
    rcases cut.cons with hnil | ⟨q, htext, hq⟩
    · rw [hnil, nothing]
    · rw [htext, opens]
      exact truncated _ q hq (Nat.lt_succ_self q.length)
  rw [readWhole, hread]

/-- **A written form that is cut short is truncated**: whatever proper part of it is left from its
start, be it nothing, is read neither as an item or a message, nor as one that is wrong. -/
theorem truncation_detected :
    (∀ (item : WorkItem) (front : String), front.toList <+: item.encode.toList →
      front ≠ item.encode → WorkItem.decode front = .error .truncated) ∧
    ∀ (message : Message) (front : String), front.toList <+: message.encode.toList →
      front ≠ message.encode → Message.decode front = .error .truncated := by
  have hcut : ∀ {front text : String} {chars : List Char}, text = .ofList chars →
      front.toList <+: text.toList → front ≠ text → Cut front.toList chars := by
    rintro front _ chars rfl hfront hne
    rw [String.toList_ofList] at hfront
    exact ⟨hfront, fun heq => hne (by rw [← heq, String.ofList_toList])⟩
  constructor
  · intro item front hfront hne
    exact readWhole_cut (fun _ => rfl) (fun _ _ => rfl) (hcut rfl hfront hne)
      fun _ _ cut small => item.itemMembers_cut cut small
  · intro message front hfront hne
    obtain ⟨t, hchars, hseries⟩ := message.series_chars
    have hencode : message.encode = .ofList ('{' :: t) := by rw [Message.encode, hchars]
    exact readWhole_cut (fun _ => rfl) (fun _ _ => rfl) (hcut hencode hfront hne)
      fun _ _ cut small => message.messageMembers_cut hseries cut small

/-- A tag that was cut after its first digit, and a type without its closing quote. -/
theorem truncation_detected_inside :
    WorkItem.decode "\x7b\"tag\":1" = .error .truncated ∧
    Message.decode "\x7b\"type\":\"sto" = .error .truncated :=
  ⟨truncation_detected.1 ⟨12, [3]⟩ _ (by decide) (by decide),
    truncation_detected.2 .stop _ (by decide) (by decide)⟩

end Handoff
