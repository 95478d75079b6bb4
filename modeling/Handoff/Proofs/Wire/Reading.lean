/-
Handoff.Proofs.Wire.Reading — what is read of a text is decided by the value that it spells.

Items are read from left to right, and members that are not theirs are dropped on the way; messages
are read as a whole and looked at afterwards. Either way the answer to a text that spells a value is
a function of the value: of the members in their order, or of the elements. How the text spells it,
by which escapes and with which blanks, does not matter (`WorkItem.decode_object`,
`Message.decode_object` and their likes for arrays).

All of this holds while half a surrogate pair and a number out of the range of doubles stand
nowhere, and for messages as long as the depth suffices: such a text is a `Document` that is kept.

  §1 scalars of a kind   — `required`, `kind_reads`
  §2 bytes               — `bytes_reads`
  §3 items               — `memberSteps`, `WorkItem.decode_object`, `WorkItem.decode_pair`
  §4 messages            — `Gathered.add`, `Message.decode_object`, `Message.decode_array`
-/
import Handoff.Proofs.Json.Completeness
import Handoff.Wire.Message

namespace Handoff.Wire

open Json

/-! ## §1 Scalars of a kind -/

/-- What has to be there; its absence is a mismatch. -/
def required {α : Type} : Option α → Except Fault α
  | none => .error .mismatched
  | some a => .ok a

variable {b s rest : List Char} {v : Value} {limit depth : Nat}

/-- An array or object in the place of a scalar is a mismatch. -/
theorem scalar_bracket {c : Char} (h : c = '[' ∨ c = '{') (blanks : Blanks b) (t : List Char) :
    scalar (b ++ c :: t) = .error .mismatched := by
  rw [scalar, skipBlanks_append blanks]
  rcases h with rfl | rfl <;> rfl

theorem scalar_eq (h : Scalar .keep s v) (blanks : Blanks b) (clear : Clear rest) :
    scalar (b ++ (s ++ rest)) = .ok (v, rest) := by
  rw [scalar, skipBlanks_append blanks, h.starts.skipBlanks_eq, h.scalarFrom_eq clear]

/-- A scalar of some kind is read, whatever else stands in its place is a mismatch. -/
theorem kind_reads {α : Type} (accept : Value → Option α)
    (noArray : ∀ vs, accept (.array vs) = none) (noObject : ∀ ms, accept (.object ms) = none)
    (limit depth : Nat) :
    Reads (kind accept) limit (Spells .keep depth) fun v => required (accept v) := by
  have hscalar : ∀ b s v rest, Blanks b → Scalar .keep s v → Clear rest →
      kind accept (b ++ (s ++ rest)) = (required (accept v)).map (·, rest) := by
    intro b s v rest blanks h clear
    rw [kind, scalar_eq h blanks clear]
    cases haccept : accept v <;> simp [haccept, required, Except.map]
  intro b s v rest blanks h _ clear
  cases depth with
  | zero => exact hscalar b s v rest blanks h clear
  | succ depth =>
    cases h with
    | scalar spells => exact hscalar b s v rest blanks spells clear
    | array =>
      rw [kind, List.cons_append, scalar_bracket (.inl rfl) blanks]
      simp only [noArray]
      rfl
    | object =>
      rw [kind, List.cons_append, scalar_bracket (.inr rfl) blanks]
      simp only [noObject]
      rfl

/-! ## §2 Bytes -/

/-- Bytes are collected until something else stands among them. -/
theorem foldlM_byteOf (vs : List Value) (read : List UInt8) :
    vs.foldlM (fun read v => required ((byteOf v).map (· :: read))) read =
      required ((bytesOf vs).map fun bs => bs.reverse ++ read) := by
  induction vs generalizing read with
  | nil => rfl
  | cons v vs ih =>
    rw [List.foldlM_cons, bytesOf]
    cases hbyte : byteOf v with
    | none => rfl
    | some byte =>
      refine (ih (byte :: read)).trans ?_
      cases bytesOf vs <;> simp

theorem wrongKind_of_scalar {α : Type} (h : Scalar .keep s v) (clear : Clear rest) :
    (wrongKind (s ++ rest) : Except Fault α) = .error .mismatched := by
  rw [wrongKind, show scalar (s ++ rest) = .ok (v, rest) from scalar_eq h .nil clear]

/-- Where a bracket is looked for, any other value is a mismatch. -/
theorem bytes_of_not_bracket {c : Char} {t : List Char} (h : c ≠ '[')
    (wrong : (wrongKind (c :: t) : Except Fault (List UInt8 × List Char)) = .error .mismatched)
    (hskip : skipBlanks s = c :: t) : bytes limit s = .error .mismatched := by
  unfold bytes
  rw [hskip]
  split
  · next heq =>
    rw [List.cons.injEq] at heq
    exact absurd heq.1 h
  · exact wrong

/-- The bytes of a payload are collected one after the other. -/
theorem byteSteps (limit depth : Nat) :
    Steps arrayNext collectByte ']' (Spells .keep depth) limit
      fun read v => required ((byteOf v).map (· :: read)) :=
  arraySteps (fun _ _ h => h.starts) fun read b s v rest blanks h small clear => by
    have hkind := kind_reads byteOf (fun _ => rfl) (fun _ => rfl) limit depth
      b s v rest blanks h small clear
    simp only [collectByte, hkind]
    cases byteOf v <;> rfl

/-- A payload is read, whatever else stands in its place is a mismatch. -/
theorem bytes_reads (limit depth : Nat) :
    Reads (bytes limit) limit (Spells .keep depth) fun v => required (payloadOf v) := by
  have hscalar : ∀ b s v rest, Blanks b → Scalar .keep s v → Clear rest →
      bytes limit (b ++ (s ++ rest)) = (required (payloadOf v)).map (·, rest) := by
    intro b s v rest blanks h clear
    have hwrong := wrongKind_of_scalar (α := List UInt8 × List Char) h clear
    have hskip : skipBlanks (b ++ (s ++ rest)) = s ++ rest := by
      rw [skipBlanks_append blanks, h.starts.skipBlanks_eq]
    have hnone : payloadOf v = none := by cases h <;> rfl
    obtain ⟨c, t, rfl, -, hmem⟩ := h.head
    rw [bytes_of_not_bracket (by rintro rfl; exact hmem (by simp)) hwrong hskip, hnone]
    rfl
  intro b s v rest blanks h small clear
  cases depth with
  | zero => exact hscalar b s v rest blanks h clear
  | succ depth =>
    cases h with
    | scalar spells => exact hscalar b s v rest blanks spells clear
    | @array s vs elements =>
      have hfold := elements.foldPieces_eq (byteSteps limit depth) (by simp at small; omega) [] rest
      rw [foldlM_byteOf] at hfold
      unfold bytes
      rw [skipBlanks_append blanks, List.cons_append, skipBlanks_cons (by decide)]
      simp only [foldElements, hfold, payloadOf]
      cases bytesOf vs <;> simp [required, Except.map]
    | object =>
      refine bytes_of_not_bracket (c := '{') (by decide) ?_
        (by rw [skipBlanks_append blanks, List.cons_append, skipBlanks_cons (by decide)])
      rw [wrongKind, show scalar ('{' :: _) = _ from scalar_bracket (.inr rfl) .nil _]

/-! ## §3 Items -/

/-- A member that is neither the tag nor the payload is dropped. -/
theorem Fields.add_other (fields : Fields) {m : String × Value} (tag : m.1 ≠ "tag")
    (payload : m.1 ≠ "payload") : fields.add m = some fields := by
  rw [Fields.add, if_neg tag, if_neg payload]

theorem foldlM_add (ms : List (String × Value)) (fields : Fields) :
    ms.foldlM (fun fields m => required (fields.add m)) fields = required (fields.addAll ms) := by
  induction ms generalizing fields with
  | nil => rfl
  | cons m ms ih =>
    rw [List.foldlM_cons, Fields.addAll]
    cases fields.add m with
    | none => rfl
    | some more => exact ih more

theorem afterColon_eq {α β : Type} {read : Reader α} {E : List Char → β → Prop}
    {make : β → Except Fault α} {v : β} (reads : Reads read limit E make) {b' : List Char}
    (blanks : Blanks b) (blanks' : Blanks b') (h : E s v) (small : s.length ≤ limit)
    (clear : Clear rest) :
    afterColon read (b ++ ':' :: (b' ++ (s ++ rest))) = (make v).map (·, rest) := by
  rw [afterColon, colon_eq blanks]
  exact reads b' s v rest blanks' h small clear

/-- The members of an item are taken up one after the other. -/
theorem memberSteps (limit depth : Nat) :
    Steps objectNext (member limit) '}' (Member .keep (Spells .keep depth)) limit
      fun fields m => required (fields.add m) := by
  refine objectSteps (fun _ _ h => h.quoted) fun fields s m rest h small clear => ?_
  cases h with
  | @mk s cs b b' t v name blanks blanks' spells =>
    simp only [List.length_append, List.length_cons] at small
    have hword := afterColon_eq (kind_reads wordOf (fun _ => rfl) (fun _ => rfl) limit
      depth) blanks blanks' spells (by omega) clear
    have hbytes := afterColon_eq (bytes_reads limit depth) blanks blanks' spells (by omega) clear
    have hskip := spells.skip_eq limit blanks' (by omega) clear
    simp only [List.append_assoc, List.cons_append]
    rw [member, name.string_eq]
    simp only [Fields.add, hword, hbytes, colon_eq blanks, hskip]
    split
    · split
      · rfl
      · cases wordOf v <;> rfl
    · split
      · split
        · rfl
        · cases payloadOf v <;> rfl
      · rfl

/-- A text that spells an object is a bracket and a series of members, with blanks around them. -/
theorem Document.object {care : Care} {text : String} {ms : List (String × Value)}
    (h : Document care depth text (.object ms)) : ∃ d t b', depth = d + 1 ∧ Blanks b' ∧
      skipBlanks text.toList = '{' :: (t ++ b') ∧ t.length ≤ text.toList.length ∧
      Series '}' (Member care (Spells care d)) t ms := by
  obtain ⟨b, s, b', blanks, blanks', spells, htext⟩ := h
  cases depth with
  | zero => cases spells
  | succ depth =>
    cases spells with
    | scalar spells => cases spells
    | @object t _ members =>
      refine ⟨depth, t, b', rfl, blanks', ?_, ?_, members⟩
      · rw [htext, skipBlanks_append blanks, List.cons_append, skipBlanks_cons (by decide)]
      · simp only [htext, List.length_append, List.length_cons]
        omega

/-- And one that spells an array is a bracket and a series of elements. -/
theorem Document.array {care : Care} {text : String} {vs : List Value}
    (h : Document care depth text (.array vs)) : ∃ d t b', depth = d + 1 ∧ Blanks b' ∧
      skipBlanks text.toList = '[' :: (t ++ b') ∧ t.length ≤ text.toList.length ∧
      Series ']' (Spells care d) t vs := by
  obtain ⟨b, s, b', blanks, blanks', spells, htext⟩ := h
  cases depth with
  | zero => cases spells
  | succ depth =>
    cases spells with
    | scalar spells => cases spells
    | @array t _ elements =>
      refine ⟨depth, t, b', rfl, blanks', ?_, ?_, elements⟩
      · rw [htext, skipBlanks_append blanks, List.cons_append, skipBlanks_cons (by decide)]
      · simp only [htext, List.length_append, List.length_cons]
        omega

/-- Blanks after a value are the end of the text. -/
theorem readWhole_eq {α : Type} {read : Nat → Reader α} {text : String} {answer : Except Fault α}
    {b' : List Char} (blanks : Blanks b')
    (h : read text.toList.length text.toList = answer.map (·, b')) :
    readWhole read text = answer := by
  unfold readWhole
  rw [h]
  cases answer with
  | error f => rfl
  | ok a => simp [Except.map, endOfText_of_blanks blanks]

/-- The first element of an array is read as its reader reads it. -/
theorem nextElement_first {α β : Type} {read : Reader α} {E : List Char → β → Prop}
    {make : β → Except Fault α} {v : β} (reads : Reads read limit E make) (blanks : Blanks b)
    (h : E s v) (starts : Starts s) (small : s.length ≤ limit) (clear : Clear rest) :
    nextElement true read (b ++ (s ++ rest)) = (make v).map (·, rest) := by
  rw [nextElement, arrayNext_first blanks starts]
  exact reads [] s v rest .nil h small clear

/-- And so is a later one, after its comma. -/
theorem nextElement_next {α β : Type} {read : Reader α} {E : List Char → β → Prop}
    {make : β → Except Fault α} {v : β} (reads : Reads read limit E make) {b' : List Char}
    (blanks : Blanks b) (blanks' : Blanks b') (h : E s v) (starts : Starts s)
    (small : s.length ≤ limit) (clear : Clear rest) :
    nextElement false read (b ++ ',' :: (b' ++ (s ++ rest))) = (make v).map (·, rest) := by
  rw [nextElement, arrayNext_next blanks' blanks starts]
  exact reads [] s v rest .nil h small clear

theorem closeArray_eq (blanks : Blanks b) (rest : List Char) :
    closeArray (b ++ ']' :: rest) = .ok rest := by
  rw [closeArray, skipBlanks_append blanks, skipBlanks_cons (by decide)]
  rfl

theorem itemElements_eq {t : List Char} {tag payload : Value}
    (h : Series ']' (Spells .keep depth) t [tag, payload]) (small : t.length ≤ limit)
    (rest : List Char) :
    itemElements limit (t ++ rest) = (itemOfElements [tag, payload]).map (·, rest) := by
  have hword := kind_reads wordOf (fun _ => rfl) (fun _ => rfl) limit depth
  have hbytes := bytes_reads limit depth
  cases h with
  | items blanks first others =>
    have hclear := others.clear (by decide) rest
    cases others with
    | next comma blanks' second closing =>
      have hclear' := closing.clear (by decide) rest
      cases closing with
      | close end_ =>
        simp only [List.length_append, List.length_cons] at small
        have htag := nextElement_first hword blanks first first.starts (by omega) hclear
        have hpayload := nextElement_next hbytes comma blanks' second second.starts (by omega) hclear'
        simp only [List.append_assoc, List.cons_append] at htag hpayload ⊢
        rw [itemElements, htag]
        cases htagged : wordOf tag with
        | none => simp [itemOfElements, htagged, required, Except.map]
        | some word =>
          simp only [required, Except.map]
          rw [hpayload]
          cases hread : payloadOf payload with
          | none => simp [itemOfElements, htagged, hread, required, Except.map]
          | some bytes =>
            simp [itemOfElements, htagged, hread, required, Except.map, closeArray_eq end_]

/-! ## §4 Messages -/

/-- What is gathered of an object when a member more is there. -/
def Gathered.add (g : Gathered) (m : String × Value) : Except Fault Gathered :=
  if m.1 = "type" then
    if g.type?.isSome then .error .mismatched
    else required ((typeOf m.2).map fun type => { g with type? := some type })
  else .ok { g with others := m :: g.others }

/-- The message with these members. -/
def messageOfMembers (ms : List (String × Value)) : Except Fault Message :=
  ms.foldlM Gathered.add ⟨none, []⟩ >>= Gathered.message

/-- The message with these elements, the type included. -/
def messageOfValues : List Value → Except Fault Message
  | [] => .error .mismatched
  | v :: vs => required (typeOf v) >>= messageOfElements vs

/-- The members of a message are gathered one after the other. -/
theorem gatherSteps (limit : Nat) :
    Steps objectNext (gather limit) '}' (Member .keep (Spells .keep (maxDepth - 1))) limit
      Gathered.add := by
  refine objectSteps (fun _ _ h => h.quoted) fun g s m rest h small clear => ?_
  cases h with
  | @mk s cs b b' t v name blanks blanks' spells =>
    simp only [List.length_append, List.length_cons] at small
    have htype := afterColon_eq (kind_reads typeOf (fun _ => rfl) (fun _ => rfl) limit
      (maxDepth - 1)) blanks blanks' spells (by omega) clear
    have hvalue := afterColon_eq (value_reads .keep limit (maxDepth - 1)) blanks blanks' spells
      (by omega) clear
    simp only [List.append_assoc, List.cons_append]
    rw [gather, name.string_eq]
    simp only [Gathered.add, htype, hvalue]
    split
    · split
      · rfl
      · cases typeOf v <;> rfl
    · rfl

theorem messageElements_eq {t : List Char} {vs : List Value}
    (h : Series ']' (Spells .keep (maxDepth - 1)) t vs) (small : t.length ≤ limit)
    (rest : List Char) :
    messageElements limit (t ++ rest) = (messageOfValues vs).map (·, rest) := by
  have htype := kind_reads typeOf (fun _ => rfl) (fun _ => rfl) limit (maxDepth - 1)
  have hsteps : Steps arrayNext (collectElement (value .keep limit (maxDepth - 1))) ']'
      (Spells .keep (maxDepth - 1)) limit fun read v => .ok (v :: read) :=
    arraySteps (fun _ _ h => h.starts) fun read b s v rest blanks h small clear => by
      rw [collectElement, value_reads .keep limit _ b s v rest blanks h small clear]
      rfl
  cases h with
  | @empty b blanks =>
    have hclose := arrayNext_close true blanks rest
    rw [List.append_assoc]
    show messageElements limit (b ++ ']' :: rest) = _
    rw [messageElements, nextElement, hclose]
    rfl
  | @items b s t v vs blanks first others =>
    simp only [List.length_append] at small
    have hfirst := nextElement_first htype blanks first first.starts (by omega)
      (others.clear (by decide) rest)
    have hfold := others.foldPieces_eq hsteps limit (by omega) (by omega) [] rest
    rw [foldlM_collect] at hfold
    simp only [List.append_assoc]
    rw [messageElements, hfirst]
    cases htyped : typeOf v with
    | none => simp [messageOfValues, htyped, required, Except.map, bind, Except.bind]
    | some type =>
      simp only [required, Except.map, foldElements] at hfold ⊢
      rw [hfold]
      cases hmessage : messageOfElements vs type <;>
        simp [messageOfValues, htyped, hmessage, required, bind, Except.bind]

end Handoff.Wire

namespace Handoff

open Json Wire

variable {depth : Nat} {text : String}

/-- **What is read of an object as an item is decided by its members.** -/
theorem WorkItem.decode_object {ms : List (String × Value)}
    (h : Document .keep depth text (.object ms)) : WorkItem.decode text = itemOfMembers ms := by
  obtain ⟨d, t, b', rfl, blanks', hskip, hsmall, members⟩ := Document.object h
  refine readWhole_eq blanks' ?_
  have hfold := members.foldPieces_eq (memberSteps text.toList.length d) hsmall .empty b'
  rw [foldlM_add] at hfold
  rw [readItem, hskip]
  simp only [itemMembers, foldMembers, hfold]
  rw [itemOfMembers]
  cases Fields.empty.addAll ms with
  | none => rfl
  | some fields => cases hitem : fields.item <;> simp [required, Except.map, hitem]

/-- What is read of a pair as an item is decided by its two elements. -/
theorem WorkItem.decode_pair {tag payload : Value}
    (h : Document .keep depth text (.array [tag, payload])) :
    WorkItem.decode text = itemOfElements [tag, payload] := by
  obtain ⟨d, t, b', rfl, blanks', hskip, hsmall, elements⟩ := Document.array h
  refine readWhole_eq blanks' ?_
  rw [readItem, hskip]
  exact itemElements_eq elements hsmall b'

/-- **What is read of an object as a message is decided by its members.** -/
theorem Message.decode_object {ms : List (String × Value)}
    (h : Document .keep maxDepth text (.object ms)) :
    Message.decode text = messageOfMembers ms := by
  obtain ⟨d, t, b', hdepth, blanks', hskip, hsmall, members⟩ := Document.object h
  obtain rfl : maxDepth - 1 = d := by omega
  refine readWhole_eq blanks' ?_
  have hfold := members.foldPieces_eq (gatherSteps text.toList.length) hsmall ⟨none, []⟩ b'
  rw [readMessage, hskip]
  simp only [messageMembers, foldMembers, hfold]
  rw [messageOfMembers]
  cases ms.foldlM Gathered.add ⟨none, []⟩ with
  | error f => rfl
  | ok g => cases hmessage : g.message <;> simp [Except.map, bind, Except.bind, hmessage]

/-- What is read of an array as a message is decided by its elements. -/
theorem Message.decode_array {vs : List Value}
    (h : Document .keep maxDepth text (.array vs)) : Message.decode text = messageOfValues vs := by
  obtain ⟨d, t, b', hdepth, blanks', hskip, hsmall, elements⟩ := Document.array h
  obtain rfl : maxDepth - 1 = d := by omega
  refine readWhole_eq blanks' ?_
  rw [readMessage, hskip]
  exact messageElements_eq elements hsmall b'

end Handoff
