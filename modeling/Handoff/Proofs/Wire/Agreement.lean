/-
Handoff.Proofs.Wire.Agreement — the reader of messages agrees with the reader of items.

The two readers go different ways: one takes up the members of an object as they come and drops what
it does not know, the other gathers all of them and looks for the `type` first. Both answers are
functions of the members, and of the members only two lists matter: the values of those named
`type`, in their order, and the other members, in theirs (`messageOfMembers_eq`). The reader of
items looks at the second list alone (`itemOfMembers_others`), which is why they agree, and why it
does not matter where the `type` stands.

  §1 the two lists   — `typeValues`, `otherMembers`
  §2 types           — `soleType_eq_some`
  §3 messages        — `foldlM_gather`, `messageOfMembers_eq`
  §4 items           — `itemOfMembers_others`
  §5 arrays          — `messageOfValues_eq_data`, `Document.tail`
  §6 agreement       — `decoders_agree`
-/
import Handoff.Proofs.Json.Plain
import Handoff.Proofs.Wire.Reading

namespace Handoff.Wire

open Json

variable {ms : List (String × Value)}

/-! ## §1 The two lists -/

/-- The values of the members that are named `type`. -/
def typeValues (ms : List (String × Value)) : List Value :=
  (ms.filter fun m => m.1 = "type").map (·.2)

/-- The members that are not named `type`. -/
def otherMembers (ms : List (String × Value)) : List (String × Value) :=
  ms.filter fun m => m.1 ≠ "type"

theorem typeValues_cons_type {m : String × Value} (h : m.1 = "type") :
    typeValues (m :: ms) = m.2 :: typeValues ms := by
  rw [typeValues, List.filter_cons_of_pos (by simpa using h)]
  rfl

theorem typeValues_cons_other {m : String × Value} (h : m.1 ≠ "type") :
    typeValues (m :: ms) = typeValues ms := by
  rw [typeValues, List.filter_cons_of_neg (by simpa using h)]
  rfl

theorem otherMembers_cons_type {m : String × Value} (h : m.1 = "type") :
    otherMembers (m :: ms) = otherMembers ms := by
  rw [otherMembers, List.filter_cons_of_neg (by simpa using h)]
  rfl

theorem otherMembers_cons_other {m : String × Value} (h : m.1 ≠ "type") :
    otherMembers (m :: ms) = m :: otherMembers ms := by
  rw [otherMembers, List.filter_cons_of_pos (by simpa using h)]
  rfl

/-! ## §2 Types -/

/-- The one type among these values; there has to be one, and one only. -/
def soleType : List Value → Option MessageType
  | [v] => typeOf v
  | _ => none

/-- The word for a type. -/
def MessageType.word : MessageType → String
  | .data => "data"
  | .stop => "stop"

theorem typeOf_eq_some {v : Value} {type : MessageType} :
    typeOf v = some type ↔ v = .string type.word := by
  cases v with
  | string s =>
    rw [typeOf, Value.string.injEq]
    cases type with
    | data => split <;> simp_all [MessageType.word]
    | stop => split <;> simp_all [MessageType.word]
  | null => simp [typeOf]
  | bool => simp [typeOf]
  | number => simp [typeOf]
  | array => simp [typeOf]
  | object => simp [typeOf]

theorem soleType_eq_some {vs : List Value} {type : MessageType} :
    soleType vs = some type ↔ vs = [.string type.word] := by
  match vs with
  | [] => simp [soleType]
  | [v] => simp [soleType, typeOf_eq_some]
  | _ :: _ :: _ => simp [soleType]

theorem required_bind_eq_ok {α β : Type} {a? : Option α} {f : α → Except Fault β} {b : β} :
    (required a? >>= f) = .ok b ↔ ∃ a, a? = some a ∧ f a = .ok b := by
  cases a? with
  | none => exact iff_of_false (fun h => by cases h) (by simp)
  | some a => simp [required, bind, Except.bind]

/-! ## §3 Messages -/

/-- Once the type is known, no other may come. -/
theorem foldlM_gather_typed (type : MessageType) (others : List (String × Value)) :
    ms.foldlM Gathered.add ⟨some type, others⟩ =
      if typeValues ms = [] then .ok ⟨some type, (otherMembers ms).reverse ++ others⟩
      else .error .mismatched := by
  induction ms generalizing others with
  | nil => rfl
  | cons m ms ih =>
    rw [List.foldlM_cons, Gathered.add]
    by_cases h : m.1 = "type"
    · rw [typeValues_cons_type h, if_pos h, if_neg (List.cons_ne_nil _ _)]
      rfl
    · rw [typeValues_cons_other h, otherMembers_cons_other h, if_neg h]
      refine (ih (m :: others)).trans ?_
      simp

/-- A message has the type that its members have and the other members. -/
theorem foldlM_gather (others : List (String × Value)) :
    ms.foldlM Gathered.add ⟨none, others⟩ =
      if typeValues ms = [] then .ok ⟨none, (otherMembers ms).reverse ++ others⟩
      else required ((soleType (typeValues ms)).map
        fun type => ⟨some type, (otherMembers ms).reverse ++ others⟩) := by
  induction ms generalizing others with
  | nil => rfl
  | cons m ms ih =>
    rw [List.foldlM_cons, Gathered.add]
    by_cases h : m.1 = "type"
    · rw [typeValues_cons_type h, otherMembers_cons_type h, if_pos h,
        if_neg (List.cons_ne_nil _ _)]
      cases htype : typeOf m.2 with
      | none =>
        have hsole : soleType (m.2 :: typeValues ms) = none := by
          cases typeValues ms with
          | nil => exact htype
          | cons => rfl
        rw [hsole]
        rfl
      | some type =>
        refine (foldlM_gather_typed type others).trans ?_
        cases typeValues ms with
        | nil =>
          rw [if_pos rfl, soleType, htype]
          rfl
        | cons => rfl
    · rw [typeValues_cons_other h, otherMembers_cons_other h, if_neg h]
      refine (ih (m :: others)).trans ?_
      simp

/-- The message that an item is part of, or the stop message. -/
def messageOf (item : Except Fault WorkItem) : MessageType → Except Fault Message
  | .data => item.map .data
  | .stop => .ok .stop

theorem messageOf_eq_data {item? : Except Fault WorkItem} {type : MessageType} {item : WorkItem} :
    messageOf item? type = .ok (.data item) ↔ type = .data ∧ item? = .ok item := by
  cases type with
  | data => cases item? <;> simp [messageOf, Except.map]
  | stop => simp [messageOf]

theorem messageOf_eq_stop {item? : Except Fault WorkItem} {type : MessageType} :
    messageOf item? type = .ok .stop ↔ type = .stop := by
  cases type with
  | data => cases item? <;> simp [messageOf, Except.map]
  | stop => simp [messageOf]

/-- **What is read of an object as a message is decided by its types and its other members.** -/
theorem messageOfMembers_eq (ms : List (String × Value)) :
    messageOfMembers ms =
      required (soleType (typeValues ms)) >>= messageOf (itemOfMembers (otherMembers ms)) := by
  rw [messageOfMembers, foldlM_gather]
  split
  · next h => rw [h]; rfl
  · cases soleType (typeValues ms) with
    | none => rfl
    | some type =>
      have hreverse : ((otherMembers ms).reverse ++ []).reverse = otherMembers ms := by simp
      cases type with
      | stop => rfl
      | data =>
        show Gathered.message ⟨some .data, (otherMembers ms).reverse ++ []⟩ = _
        simp only [Gathered.message, hreverse]
        cases itemOfMembers (otherMembers ms) <;> rfl

/-! ## §4 Items -/

/-- The reader of items does not look at members named `type`. -/
theorem addAll_others (fields : Fields) (ms : List (String × Value)) :
    fields.addAll (otherMembers ms) = fields.addAll ms := by
  induction ms generalizing fields with
  | nil => rfl
  | cons m ms ih =>
    by_cases h : m.1 = "type"
    · rw [otherMembers_cons_type h, Fields.addAll,
        fields.add_other (by rw [h]; simp) (by rw [h]; simp)]
      exact ih fields
    · rw [otherMembers_cons_other h, Fields.addAll, Fields.addAll]
      cases fields.add m with
      | none => rfl
      | some more => exact ih more

theorem itemOfMembers_others (ms : List (String × Value)) :
    itemOfMembers (otherMembers ms) = itemOfMembers ms := by
  rw [itemOfMembers, itemOfMembers, addAll_others]

/-- Whatever is wrong with the members of an item, it is a mismatch. -/
theorem mismatched_of_itemOfMembers {f : Fault} (h : itemOfMembers ms = .error f) :
    f = .mismatched := by
  unfold itemOfMembers at h
  split at h
  · cases h; rfl
  · unfold Fields.item at h
    split at h <;> cases h
    rfl

theorem messageOfMembers_eq_data (ms : List (String × Value)) (item : WorkItem) :
    messageOfMembers ms = .ok (.data item) ↔
      typeValues ms = [.string "data"] ∧ itemOfMembers ms = .ok item := by
  rw [messageOfMembers_eq, required_bind_eq_ok, itemOfMembers_others]
  constructor
  · rintro ⟨type, htype, h⟩
    obtain ⟨rfl, hitem⟩ := messageOf_eq_data.mp h
    exact ⟨soleType_eq_some.mp htype, hitem⟩
  · rintro ⟨htypes, hitem⟩
    exact ⟨.data, soleType_eq_some.mpr htypes, messageOf_eq_data.mpr ⟨rfl, hitem⟩⟩

theorem messageOfMembers_eq_stop (ms : List (String × Value)) :
    messageOfMembers ms = .ok .stop ↔ typeValues ms = [.string "stop"] := by
  rw [messageOfMembers_eq, required_bind_eq_ok]
  constructor
  · rintro ⟨type, htype, h⟩
    rw [messageOf_eq_stop] at h
    subst h
    exact soleType_eq_some.mp htype
  · exact fun htypes => ⟨.stop, soleType_eq_some.mpr htypes, messageOf_eq_stop.mpr rfl⟩

/-- A message that is not accepted is a mismatch. -/
theorem messageOfMembers_cases (ms : List (String × Value)) :
    (∃ message, messageOfMembers ms = .ok message) ∨ messageOfMembers ms = .error .mismatched := by
  rw [messageOfMembers_eq, itemOfMembers_others]
  cases soleType (typeValues ms) with
  | none => exact .inr rfl
  | some type =>
    cases type with
    | stop => exact .inl ⟨.stop, rfl⟩
    | data =>
      show (∃ message, (itemOfMembers ms).map Message.data = .ok message) ∨ _
      cases hitem : itemOfMembers ms with
      | ok item => exact .inl ⟨.data item, rfl⟩
      | error f =>
        rw [mismatched_of_itemOfMembers hitem]
        exact .inr rfl

/-! ## §5 Arrays -/

theorem messageOfValues_eq_ok {vs : List Value} {message : Message} :
    messageOfValues vs = .ok message ↔ ∃ type elements, vs = .string type.word :: elements ∧
      messageOfElements elements type = .ok message := by
  cases vs with
  | nil => exact iff_of_false (fun h => by cases h) (by simp)
  | cons v vs =>
    rw [messageOfValues, required_bind_eq_ok]
    simp only [typeOf_eq_some, List.cons.injEq]
    constructor
    · rintro ⟨type, rfl, h⟩
      exact ⟨type, vs, ⟨rfl, rfl⟩, h⟩
    · rintro ⟨type, elements, ⟨rfl, rfl⟩, h⟩
      exact ⟨type, rfl, h⟩

theorem messageOfElements_eq_data {elements : List Value} {type : MessageType} {item : WorkItem} :
    messageOfElements elements type = .ok (.data item) ↔
      type = .data ∧ itemOfElements elements = .ok item := by
  cases type with
  | data => simp only [messageOfElements]; cases itemOfElements elements <;> simp
  | stop => simp only [messageOfElements]; split <;> simp

theorem messageOfElements_eq_stop {elements : List Value} {type : MessageType} :
    messageOfElements elements type = .ok .stop ↔ type = .stop ∧ elements = [] := by
  cases type with
  | data => simp only [messageOfElements]; cases itemOfElements elements <;> simp
  | stop => simp [messageOfElements]

theorem exists_of_itemOfElements {elements : List Value} {item : WorkItem}
    (h : itemOfElements elements = .ok item) : ∃ a b, elements = [a, b] := by
  unfold itemOfElements at h
  split at h
  · exact ⟨_, _, rfl⟩
  · cases h

theorem messageOfValues_eq_data {vs : List Value} {item : WorkItem} :
    messageOfValues vs = .ok (.data item) ↔
      ∃ a b, vs = [.string "data", a, b] ∧ itemOfElements [a, b] = .ok item := by
  rw [messageOfValues_eq_ok]
  constructor
  · rintro ⟨type, elements, rfl, h⟩
    obtain ⟨rfl, hitem⟩ := messageOfElements_eq_data.mp h
    obtain ⟨a, b, rfl⟩ := exists_of_itemOfElements hitem
    exact ⟨a, b, rfl, hitem⟩
  · rintro ⟨a, b, rfl, hitem⟩
    exact ⟨.data, [a, b], rfl, messageOfElements_eq_data.mpr ⟨rfl, hitem⟩⟩

theorem messageOfValues_eq_stop {vs : List Value} :
    messageOfValues vs = .ok .stop ↔ vs = [.string "stop"] := by
  rw [messageOfValues_eq_ok]
  constructor
  · rintro ⟨type, elements, rfl, h⟩
    obtain ⟨rfl, rfl⟩ := messageOfElements_eq_stop.mp h
    rfl
  · rintro rfl
    exact ⟨.stop, [], rfl, messageOfElements_eq_stop.mpr ⟨rfl, rfl⟩⟩

/-- A series without its first item is a series. -/
theorem Series.tail {β : Type} {close : Char} {E : List Char → β → Prop} {t : List Char} {v : β}
    {vs : List β} (h : Series close E t (v :: vs)) : ∃ t', Series close E t' vs := by
  cases h with
  | items _ _ others =>
    cases others with
    | close blanks => exact ⟨_, .empty blanks⟩
    | next _ blanks item others => exact ⟨_, .items blanks item others⟩

/-- If an array can be written, so can the array without its first element. -/
theorem Document.tail {care : Care} {depth : Nat} {text : String} {v : Value} {vs : List Value}
    (h : Document care depth text (.array (v :: vs))) :
    ∃ text', Document care depth text' (.array vs) := by
  obtain ⟨d, _, _, rfl, -, -, -, elements⟩ := Document.array h
  obtain ⟨t, ht⟩ := Series.tail elements
  exact ⟨String.ofList ('[' :: t), [], _, [], .nil, .nil, Nested.array ht, by simp⟩

/-! ## §6 Agreement -/

end Handoff.Wire

namespace Handoff

open Json Wire

/-- **The reader of messages agrees with the reader of items.** An object is read as data if its one
`type` says so and the same text is read as the item, and as a stop message if its one `type` says
so, whatever else it holds; any other object is rejected. Two objects with the same types and the
same other members have the same answer, wherever the types stand. An array is read as data if it
starts with that word and the array of its two other elements is read as the item, and as a stop
message if it holds that word alone; any other array is rejected. -/
theorem decoders_agree :
    (∀ text ms, Document .keep maxDepth text (.object ms) →
      (∀ item, Message.decode text = .ok (.data item) ↔
        typeValues ms = [.string "data"] ∧ WorkItem.decode text = .ok item) ∧
      (Message.decode text = .ok .stop ↔ typeValues ms = [.string "stop"]) ∧
      (Message.decode text = .error .mismatched ↔ typeValues ms ≠ [.string "stop"] ∧
        ∀ item, ¬ (typeValues ms = [.string "data"] ∧ WorkItem.decode text = .ok item)) ∧
      ∀ text' ms', Document .keep maxDepth text' (.object ms') →
        typeValues ms' = typeValues ms → otherMembers ms' = otherMembers ms →
        Message.decode text' = Message.decode text) ∧
    ∀ text vs, Document .keep maxDepth text (.array vs) →
      (∀ a b, vs = [.string "data", a, b] →
        (∃ text', Document .keep maxDepth text' (.array [a, b])) ∧
        ∀ text', Document .keep maxDepth text' (.array [a, b]) → ∀ item,
          (Message.decode text = .ok (.data item) ↔ WorkItem.decode text' = .ok item)) ∧
      (Message.decode text = .ok .stop ↔ vs = [.string "stop"]) ∧
      ∀ message, Message.decode text = .ok message →
        vs = [.string "stop"] ∨ ∃ a b, vs = [.string "data", a, b] := by
  constructor
  · intro text ms h
    have hitem := WorkItem.decode_object h
    have hmessage := Message.decode_object h
    have hdata := messageOfMembers_eq_data ms
    have hstop := messageOfMembers_eq_stop ms
    rw [← hmessage] at hstop
    simp only [← hmessage, ← hitem] at hdata
    refine ⟨hdata, hstop, ⟨fun herror => ⟨fun htypes => ?_, fun item hboth => ?_⟩, fun hnone => ?_⟩,
      fun text' ms' h' htypes hothers => ?_⟩
    · rw [hstop.mpr htypes] at herror
      cases herror
    · rw [(hdata item).mpr hboth] at herror
      cases herror
    · rw [hmessage]
      refine (messageOfMembers_cases ms).resolve_left ?_
      rw [← hmessage]
      rintro ⟨message, hok⟩
      cases message with
      | data item => exact hnone.2 item ((hdata item).mp hok)
      | stop => exact hnone.1 (hstop.mp hok)
    · rw [hmessage, Message.decode_object h', messageOfMembers_eq, messageOfMembers_eq, htypes,
        hothers]
  · intro text vs h
    have hmessage := Message.decode_array h
    refine ⟨?_, ?_, fun message hok => ?_⟩
    · rintro a b rfl
      refine ⟨Document.tail h, fun text' h' item => ?_⟩
      rw [hmessage, messageOfValues_eq_data, WorkItem.decode_pair h']
      constructor
      · rintro ⟨_, _, heq, hitem⟩
        cases heq
        exact hitem
      · exact fun hitem => ⟨a, b, rfl, hitem⟩
    · rw [hmessage, messageOfValues_eq_stop]
    · rw [hmessage] at hok
      cases message with
      | data item =>
        obtain ⟨a, b, heq, -⟩ := messageOfValues_eq_data.mp hok
        exact .inr ⟨a, b, heq⟩
      | stop => exact .inl (messageOfValues_eq_stop.mp hok)

/-- The `type` is spelled with an escape and stands after a member that one reader gathers and the
other drops; and a stop message is an array. -/
theorem decoders_agree_escaped :
    let text := "\x7b\"x\":[\x7b\x7d,-1.5e3], \"\\u0074ype\":\"data\",\"tag\":7,\"payload\":[1]\x7d"
    let ms := [("x", .array [.object [], .number ⟨true, ['1'], some ['5'], some (false, ['3'])⟩]),
      ("type", .string "data"), ("tag", .number (.plain 7)),
      ("payload", .array [.number (.plain 1)])]
    Document .keep maxDepth text (.object ms) ∧
      Document .keep maxDepth "[ \"stop\"]" (.array [.string "stop"]) ∧
      WorkItem.decode text = .ok ⟨7, [1]⟩ ∧ Message.decode text = .ok (.data ⟨7, [1]⟩) ∧
      Message.decode "[ \"stop\"]" = .ok .stop := by
  intro text ms
  have hnumber : Spells .keep 125 ['-', '1', '.', '5', 'e', '3']
      (.number ⟨true, ['1'], some ['5'], some (false, ['3'])⟩) :=
    .scalar (.number (@Numeral.Spelled.mk true ['1'] ['.', '5'] ['e', '3'] _ _
      (.digits ⟨by simp, by simp⟩ (by decide)) (.some ⟨by simp, by simp⟩)
      (.some (.inl rfl) .none ⟨by simp, by simp⟩)) fun _ => by decide +kernel)
  have hobject : Spells .keep 125 ['{', '}'] (.object []) := .object (.empty .nil)
  have harray : Spells .keep 126 "[\x7b\x7d,-1.5e3]".toList
      (.array [.object [], .number ⟨true, ['1'], some ['5'], some (false, ['3'])⟩]) :=
    .array (.items .nil hobject (.next .nil .nil hnumber (.closing ']')))
  have hbytes : Spells .keep 126 "[1]".toList (.array [.number (.plain 1)]) :=
    .array (.items .nil (spells_plain .keep 125 (show 1 < wordLimit by decide)) (.closing ']'))
  have hword : ∀ {word : String}, word.toList.all isPlain = true →
      Spells .keep 126 ('"' :: (word.toList ++ ['"'])) (.string (String.ofList word.toList)) :=
    fun plain => (Scalar.string (.plain .keep plain)).spells 126
  have hhex : HexNumber ['0', '0', '7', '4'] 0x74 :=
    .mk (show hexValue '0' = some 0 by decide) (show hexValue '0' = some 0 by decide)
      (show hexValue '7' = some 7 by decide) (show hexValue '4' = some 4 by decide)
  have hescape : Piece .keep ['\\', 'u', '0', '0', '7', '4'] 't' :=
    .numbered hhex (by decide) (by decide)
  have hname := Body.next hescape (.plain .keep (show "ype".toList.all isPlain = true by decide))
  have hx := Member.plain .keep (show "x".toList.all isPlain = true by decide) harray
  have htype := Member.mk hname .nil .nil (hword (show "data".toList.all isPlain = true by decide))
  have htag := Member.plain .keep (show "tag".toList.all isPlain = true by decide)
    (spells_plain .keep 126 (show 7 < wordLimit by decide))
  have hpayload := Member.plain .keep (show "payload".toList.all isPlain = true by decide) hbytes
  have hmembers := Series.items Blanks.nil hx (.next .nil (show Blanks [' '] by decide) htype
    (.next .nil .nil htag (.next .nil .nil hpayload (.closing '}'))))
  have hdocument : Document .keep maxDepth text (.object ms) :=
    ⟨[], _, [], .nil, .nil, .object hmembers, by decide⟩
  have hstop : Document .keep maxDepth "[ \"stop\"]" (.array [.string "stop"]) :=
    ⟨[], _, [], .nil, .nil, .array (.items (show Blanks [' '] by decide)
      (hword (show "stop".toList.all isPlain = true by decide)) (.closing ']')), by decide⟩
  have hitem : WorkItem.decode text = .ok ⟨7, [1]⟩ := by
    rw [WorkItem.decode_object hdocument]
    rfl
  obtain ⟨hobjects, harrays⟩ := decoders_agree
  exact ⟨hdocument, hstop, hitem, ((hobjects text ms hdocument).1 ⟨7, [1]⟩).mpr ⟨rfl, hitem⟩,
    (harrays _ _ hstop).2.1.mpr rfl⟩

end Handoff
