/-
Handoff.Proofs.Wire.Acceptance — which texts are items.

The format of an item is a grammar of its own: numbers in digits, an array of them, and members that
are a tag, a payload or something else. It says nothing of the order in which a reader looks at a
text, or of where it stops. That a text is read as an item exactly if it is in the format has two
halves, and each reader has a lemma for either: it reads all that its part of the grammar spells
(`Reads`), and it reads nothing else (`ReadsOnly`).

What is then left of an object is the list of its parts. Reading takes them up one by one and fails
at a repeated one, while the format looks at the list as a whole: its tags and its payloads have to be
one each (`foldlM_take_eq_ok`). Only these two lists matter, so that neither the order of the parts
nor the number of others among them changes the answer.

  §1 the format   — `Natural`, `PayloadText`, `PartText`, `ItemText`
  §2 numbers      — `kind_reads_natural`, `kind_readsOnly_natural`
  §3 payloads     — `bytes_reads_payload`, `bytes_readsOnly_payload`
  §4 members      — `partSteps`, `partYields`
  §5 parts        — `foldlM_take_eq_ok`, `itemOfParts_eq_ok`
  §6 items        — `ItemText.readItem_eq`, `readItem_sound`
  §7 acceptance   — `WorkItem.decode_eq_ok_iff`
-/
import Handoff.Proofs.Json.Plain
import Handoff.Proofs.Json.Soundness
import Handoff.Proofs.Wire.Reading

namespace Handoff.Wire

open Json Text

/-! ## §1 The format -/

/-- A number in digits: without sign, fraction and exponent, and without zeros before it. -/
structure Natural (s : List Char) (n : Nat) : Prop where
  whole : Whole s
  value : decimalValue s = n

/-- A tag is a number that a word holds. -/
def TagText (s : List Char) (w : UInt64) : Prop := Natural s w.toNat

/-- An element of a payload is a number that a byte holds. -/
def ByteText (s : List Char) (b : UInt8) : Prop := Natural s b.toNat

/-- A payload is an array of bytes. -/
inductive PayloadText : List Char → List UInt8 → Prop where
  | mk {s : List Char} {bs : List UInt8} (bytes : Series ']' ByteText s bs) :
      PayloadText ('[' :: s) bs

/-- What a member of an item is. -/
inductive Part where
  | tag (w : UInt64)
  | payload (bs : List UInt8)
  | other
  deriving DecidableEq, Repr

/-- A name, a colon, and the characters of a value. -/
inductive Labelled (name : String) (value : List Char) : List Char → Prop where
  | mk {s b b' : List Char} (spells : Body .keep s name.toList) (blanks : Blanks b)
      (blanks' : Blanks b') : Labelled name value ('"' :: (s ++ (b ++ ':' :: (b' ++ value))))

/-- A member of an item. One that is neither its tag nor its payload may have any value, of any
depth. -/
inductive PartText : List Char → Part → Prop where
  | tag {s t : List Char} {w : UInt64} (label : Labelled "tag" t s) (value : TagText t w) :
      PartText s (.tag w)
  | payload {s t : List Char} {bs : List UInt8} (label : Labelled "payload" t s)
      (value : PayloadText t bs) : PartText s (.payload bs)
  | other {name : String} {depth : Nat} {s t : List Char} {v : Value} (label : Labelled name t s)
      (tag : name ≠ "tag") (payload : name ≠ "payload") (value : Spells .drop depth t v) :
      PartText s .other

/-- The tag that a part is. -/
def Part.tag? : Part → Option UInt64
  | .tag w => some w
  | _ => none

/-- The payload that a part is. -/
def Part.payload? : Part → Option (List UInt8)
  | .payload bs => some bs
  | _ => none

/-- The tags among parts. -/
def tags (parts : List Part) : List UInt64 := parts.filterMap Part.tag?

/-- The payloads among parts. -/
def payloads (parts : List Part) : List (List UInt8) := parts.filterMap Part.payload?

/-- An item: an object of parts of which one is a tag and one is a payload, or an array of just a tag
and a payload. -/
inductive ItemText : List Char → WorkItem → Prop where
  | object {s : List Char} {parts : List Part} {item : WorkItem}
      (members : Series '}' PartText s parts) (tag : tags parts = [item.tag])
      (payload : payloads parts = [item.payload]) : ItemText ('{' :: s) item
  | array {b b' b'' e s t : List Char} {item : WorkItem} (blanks : Blanks b) (blanks' : Blanks b')
      (blanks'' : Blanks b'') (blanksEnd : Blanks e) (tag : TagText s item.tag)
      (payload : PayloadText t item.payload) :
      ItemText ('[' :: (b ++ (s ++ (b' ++ ',' :: (b'' ++ (t ++ (e ++ [']']))))))) item

/-- A text that is an item and nothing else, with blanks around it. -/
def IsItem (text : String) (item : WorkItem) : Prop :=
  ∃ b s b', Blanks b ∧ Blanks b' ∧ ItemText s item ∧ text.toList = b ++ (s ++ b')

/-- A text that is an object of these parts, with blanks around it. -/
def HasParts (text : String) (parts : List Part) : Prop :=
  ∃ b s b', Blanks b ∧ Blanks b' ∧ Series '}' PartText s parts ∧
    text.toList = b ++ ('{' :: s ++ b')

theorem Natural.starts {s : List Char} {n : Nat} (h : Natural s n) : Starts s := by
  obtain ⟨c, t, rfl, hdigit⟩ := h.whole.head
  refine ⟨c, t, rfl, not_isBlank_of_isDigit hdigit, ?_⟩
  rintro rfl
  exact absurd hdigit (by decide)

theorem PayloadText.starts {s : List Char} {bs : List UInt8} (h : PayloadText s bs) : Starts s := by
  cases h
  exact ⟨_, _, rfl, by decide, by decide⟩

theorem PartText.quoted {s : List Char} {part : Part} (h : PartText s part) :
    ∃ t, s = '"' :: t := by
  cases h with
  | tag label => cases label; exact ⟨_, rfl⟩
  | payload label => cases label; exact ⟨_, rfl⟩
  | other label => cases label; exact ⟨_, rfl⟩

/-! ## §2 Numbers -/

/-- A number in digits is a numeral of which nothing but the digits is there. -/
theorem Natural.scalar {s : List Char} {n : Nat} (h : Natural s n) (small : n < wordLimit) :
    Scalar .keep s (.number ⟨false, s, none, none⟩) := by
  have hspelled := @Numeral.Spelled.mk false s [] [] none none h.whole .none .none
  have hvalue : decimalValue s < wordLimit := h.value ▸ small
  exact .number (by simpa using hspelled) fun _ => Numeral.isFinite_digits hvalue

theorem Natural.natural? {s : List Char} {n : Nat} (h : Natural s n) :
    (Numeral.mk false s none none).natural? = some n := by
  simp [Numeral.natural?, h.value]

theorem Numeral.Spelled.natural {s : List Char} {m : Numeral} {n : Nat} (h : m.Spelled s)
    (plain : m.natural? = some n) : Natural s n := by
  cases h with
  | @mk negative whole point mark fraction exponent wholePart fractionPart exponentPart =>
    unfold Numeral.natural? at plain
    split at plain
    · cases plain
    · next hnone =>
      simp only [not_or, Bool.not_eq_true, Option.isSome_eq_false_iff, Option.isNone_iff_eq_none]
        at hnone
      obtain ⟨rfl, rfl, rfl⟩ := hnone
      cases fractionPart
      cases exponentPart
      cases plain
      simpa using Natural.mk wholePart rfl

/-- What a bounded kind of number is made of. -/
theorem bounded_eq_some {α : Type} {ofNat : Nat → α} {toNat : α → Nat} {bound : Nat}
    (lt : ∀ a, toNat a < bound) (ofNat_toNat : ∀ a, ofNat (toNat a) = a)
    (toNat_ofNat : ∀ k, k < bound → toNat (ofNat k) = k) {n? : Option Nat} {a : α} :
    (match n? with
      | some k => if k < bound then some (ofNat k) else none
      | none => none) = some a ↔ n? = some (toNat a) := by
  cases n? with
  | none => simp
  | some k =>
    simp only [Option.ite_none_right_eq_some, Option.some.injEq]
    constructor
    · rintro ⟨hk, rfl⟩
      exact (toNat_ofNat k hk).symm
    · rintro rfl
      exact ⟨lt a, ofNat_toNat a⟩

theorem wordOf_eq_some {v : Value} {w : UInt64} :
    wordOf v = some w ↔ ∃ n, v = .number n ∧ n.natural? = some w.toNat := by
  cases v with
  | number n =>
    have hbounded : wordOf (.number n) = some w ↔ n.natural? = some w.toNat :=
      bounded_eq_some UInt64.toNat_lt (fun _ => UInt64.ofNat_toNat)
        fun _ => UInt64.toNat_ofNat_of_lt
    simp [hbounded]
  | _ => simp [wordOf]

theorem byteOf_eq_some {v : Value} {b : UInt8} :
    byteOf v = some b ↔ ∃ n, v = .number n ∧ n.natural? = some b.toNat := by
  cases v with
  | number n =>
    have hbounded : byteOf (.number n) = some b ↔ n.natural? = some b.toNat :=
      bounded_eq_some UInt8.toNat_lt (fun _ => UInt8.ofNat_toNat)
        fun _ => UInt8.toNat_ofNat_of_lt
    simp [hbounded]
  | _ => simp [byteOf]

section Kind

variable {α : Type} {accept : Value → Option α} {toNat : α → Nat}

/-- A kind of scalar that is numbers: each that it holds is read. -/
theorem kind_reads_natural
    (accepts : ∀ v a, accept v = some a ↔ ∃ n, v = .number n ∧ n.natural? = some (toNat a))
    (small : ∀ a, toNat a < wordLimit) (limit : Nat) :
    Reads (kind accept) limit (fun s a => Natural s (toNat a)) .ok := by
  intro b s a rest blanks natural _ clear
  have haccept := (accepts _ a).mpr ⟨_, rfl, natural.natural?⟩
  rw [kind, scalar_eq (natural.scalar (small a)) blanks clear]
  simp only [haccept]
  rfl

/-- And nothing else is. -/
theorem kind_readsOnly_natural
    (accepts : ∀ v a, accept v = some a ↔ ∃ n, v = .number n ∧ n.natural? = some (toNat a)) :
    ReadsOnly (kind accept) (fun s a => Natural s (toNat a)) .ok := by
  intro s a rest h
  unfold kind at h
  split at h
  · cases h
  · next v after hscalar =>
    split at h
    · cases h
    · next haccept =>
      cases h
      obtain ⟨n, rfl, hnatural⟩ := (accepts _ a).mp haccept
      obtain ⟨b, blanks, hs⟩ := skipBlanks_sound s
      obtain ⟨w, spells, hw⟩ := scalarFrom_sound hscalar
      cases spells with
      | number spelled =>
        exact ⟨b, w, a, blanks, Numeral.Spelled.natural spelled hnatural, rfl, by rw [← hw, ← hs]⟩

end Kind

theorem tag_reads (limit : Nat) : Reads (kind wordOf) limit TagText .ok :=
  kind_reads_natural (fun _ _ => wordOf_eq_some) UInt64.toNat_lt limit

theorem tag_readsOnly : ReadsOnly (kind wordOf) TagText .ok :=
  kind_readsOnly_natural fun _ _ => wordOf_eq_some

/-! ## §3 Payloads -/

theorem collectByte_reads (limit : Nat) (read : List UInt8) :
    Reads (collectByte read) limit ByteText fun b => .ok (b :: read) := by
  intro b s byte rest blanks h small clear
  have hkind := kind_reads_natural (fun _ _ => byteOf_eq_some)
    (fun b => Nat.lt_trans b.toNat_lt (by decide)) limit b s byte rest blanks h small clear
  rw [collectByte, hkind]
  rfl

theorem collectByte_readsOnly (read : List UInt8) :
    ReadsOnly (collectByte read) ByteText fun b => .ok (b :: read) := by
  intro s bytes rest h
  unfold collectByte at h
  split at h
  · cases h
  · next byte after hkind =>
    cases h
    obtain ⟨b, w, _, blanks, natural, hmake, hs⟩ :=
      kind_readsOnly_natural (fun _ _ => byteOf_eq_some) _ _ _ hkind
    cases hmake
    exact ⟨b, w, byte, blanks, natural, rfl, hs⟩

theorem payload_reads (limit : Nat) : Reads (bytes limit) limit PayloadText .ok := by
  intro b s bs rest blanks h small _
  cases h with
  | @mk s bs series =>
    have hsteps : Steps arrayNext collectByte ']' ByteText limit fun read b => .ok (b :: read) :=
      arraySteps (fun _ _ h => Natural.starts h) (collectByte_reads limit)
    have hfold := series.foldPieces_eq hsteps (by simp at small; omega) [] rest
    rw [foldlM_collect] at hfold
    unfold bytes
    rw [skipBlanks_append blanks, List.cons_append, skipBlanks_cons (by decide)]
    simp only [foldElements, hfold]
    simp [Except.map]

/-- A scalar in the place of something else is never right. -/
theorem wrongKind_ne_ok {α : Type} (s : List Char) (a : α) : wrongKind s ≠ .ok a := by
  unfold wrongKind
  split
  · exact nofun
  · exact nofun

theorem payload_readsOnly (limit : Nat) : ReadsOnly (bytes limit) PayloadText .ok := by
  intro s bs rest h
  unfold bytes at h
  split at h
  · next after hskip =>
    simp only [foldElements] at h
    split at h
    · cases h
    · next read t hfold =>
      cases h
      obtain ⟨u, vs, series, hsteps, rfl⟩ := (arrayYields collectByte_readsOnly).series hfold
      rw [foldlM_collect, List.append_nil] at hsteps
      cases hsteps
      obtain ⟨b, blanks, rfl⟩ := skipBlanks_eq_cons hskip
      exact ⟨b, '[' :: u, _, blanks, .mk series, by rw [List.reverse_reverse], rfl⟩
  · exact absurd h (wrongKind_ne_ok _ _)

/-! ## §4 Members -/

/-- The members that were read after one more part: no second tag, and no second payload. -/
def Fields.take (fields : Fields) : Part → Except Fault Fields
  | .tag w => if fields.tag.isSome then .error .mismatched else .ok { fields with tag := some w }
  | .payload bs =>
    if fields.payload.isSome then .error .mismatched
    else .ok { fields with payload := some bs }
  | .other => .ok fields

theorem member_reads {limit : Nat} (fields : Fields) {s rest : List Char} {part : Part}
    (h : PartText ('"' :: s) part) (small : s.length < limit) (clear : Clear rest) :
    member limit fields (s ++ rest) = (fields.take part).map (·, rest) := by
  cases h with
  | @tag _ t w label value =>
    cases label with
    | @mk s b b' spells blanks blanks' =>
      simp only [List.length_append, List.length_cons] at small
      have hvalue := afterColon_eq (tag_reads limit) blanks blanks' value (by omega) clear
      simp only [List.append_assoc, List.cons_append]
      rw [member, spells.string_eq]
      simp only [String.ofList_toList, if_true, hvalue, Fields.take]
      split <;> rfl
  | @payload _ t bs label value =>
    cases label with
    | @mk s b b' spells blanks blanks' =>
      simp only [List.length_append, List.length_cons] at small
      have hvalue := afterColon_eq (payload_reads limit) blanks blanks' value (by omega) clear
      simp only [List.append_assoc, List.cons_append]
      rw [member, spells.string_eq]
      simp only [String.ofList_toList, show "payload" ≠ "tag" by decide, if_true, if_false, hvalue,
        Fields.take]
      split <;> rfl
  | @other name depth _ t v label tag payload value =>
    cases label with
    | @mk s b b' spells blanks blanks' =>
      simp only [List.length_append, List.length_cons] at small
      have hskip := value.skip_eq limit blanks' (by omega) clear
      simp only [List.append_assoc, List.cons_append]
      rw [member, spells.string_eq]
      simp only [String.ofList_toList, tag, payload, if_false, colon_eq blanks, hskip]
      rfl

theorem afterColon_sound {α β : Type} {read : Reader α} {E : List Char → β → Prop}
    {make : β → Except Fault α} (reads : ReadsOnly read E make) {s rest : List Char} {a : α}
    (h : afterColon read s = .ok (a, rest)) :
    ∃ b b' w v, Blanks b ∧ Blanks b' ∧ E w v ∧ make v = .ok a ∧
      s = b ++ ':' :: (b' ++ (w ++ rest)) := by
  unfold afterColon at h
  split at h
  · cases h
  · next t hcolon =>
    obtain ⟨b, blanks, rfl⟩ := colon_sound hcolon
    obtain ⟨b', w, v, blanks', spells, hmake, rfl⟩ := reads _ _ _ h
    exact ⟨b, b', w, v, blanks, blanks', spells, hmake, rfl⟩

theorem member_sound {limit : Nat} (fields later : Fields) (s rest : List Char)
    (h : member limit fields s = .ok (later, rest)) :
    ∃ w part, PartText ('"' :: w) part ∧ fields.take part = .ok later ∧ s = w ++ rest := by
  unfold member at h
  split at h
  · cases h
  · next name t hname =>
    obtain ⟨w, cs, body, hcs, rfl⟩ := string_sound hname
    have hspells : Body .keep w name.toList := by
      rw [hcs, String.toList_ofList]
      exact body
    split at h
    · next htag =>
      subst htag
      split at h
      · cases h
      · next hfirst =>
        split at h
        · cases h
        · next tag u hread =>
          cases h
          obtain ⟨b, b', t, _, blanks, blanks', value, hmake, rfl⟩ :=
            afterColon_sound tag_readsOnly hread
          cases hmake
          exact ⟨_, .tag tag, .tag (.mk hspells blanks blanks') value, if_neg hfirst, by simp⟩
    · next htag =>
      split at h
      · next hpayload =>
        subst hpayload
        split at h
        · cases h
        · next hfirst =>
          split at h
          · cases h
          · next payload u hread =>
            cases h
            obtain ⟨b, b', t, _, blanks, blanks', value, hmake, rfl⟩ :=
              afterColon_sound (payload_readsOnly limit) hread
            cases hmake
            exact ⟨_, .payload payload, .payload (.mk hspells blanks blanks') value,
              if_neg hfirst, by simp⟩
      · next hpayload =>
        split at h
        · cases h
        · next u hcolon =>
          split at h
          · cases h
          · next after hskip =>
            cases h
            obtain ⟨b, blanks, rfl⟩ := colon_sound hcolon
            obtain ⟨b', t, v, blanks', value, rfl⟩ := skip_sound hskip
            exact ⟨_, .other, .other (.mk hspells blanks blanks') htag hpayload value, rfl,
              by simp⟩

/-- The parts of an item are taken up one after the other. -/
theorem partSteps (limit : Nat) :
    Steps objectNext (member limit) '}' PartText limit Fields.take :=
  objectSteps (fun _ _ h => h.quoted) fun fields _ _ _ h small clear =>
    member_reads fields h small clear

theorem partYields (limit : Nat) : Yields objectNext (member limit) '}' PartText Fields.take :=
  objectYields member_sound

/-! ## §5 Parts -/

theorem eq_of_toList {α : Type} {a? b? : Option α} (h : a?.toList = b?.toList) : a? = b? := by
  rw [← Option.head?_toList (o := a?), h, Option.head?_toList]

theorem toList_ne_cons_cons {α : Type} {a? : Option α} {a b : α} {as : List α} :
    a?.toList ≠ a :: b :: as := by
  cases a? with
  | none => exact nofun
  | some => exact nofun

/-- **All parts are taken up if there is at most one of each kind**, with what was there before. -/
theorem foldlM_take_eq_ok {parts : List Part} {fields later : Fields} :
    parts.foldlM Fields.take fields = .ok later ↔
      later.tag.toList = fields.tag.toList ++ tags parts ∧
        later.payload.toList = fields.payload.toList ++ payloads parts := by
  induction parts generalizing fields with
  | nil =>
    show Except.ok fields = .ok later ↔ _
    rw [Except.ok.injEq]
    simp only [tags, payloads, List.filterMap_nil, List.append_nil]
    constructor
    · rintro rfl
      exact ⟨rfl, rfl⟩
    · rintro ⟨htag, hpayload⟩
      obtain ⟨tag, payload⟩ := fields
      obtain ⟨tag', payload'⟩ := later
      rw [Fields.mk.injEq]
      exact ⟨(eq_of_toList htag).symm, (eq_of_toList hpayload).symm⟩
  | cons part parts ih =>
    rw [List.foldlM_cons]
    cases part with
    | tag w =>
      have htags : tags (.tag w :: parts) = w :: tags parts := rfl
      have hpayloads : payloads (.tag w :: parts) = payloads parts := rfl
      rw [htags, hpayloads]
      cases htag : fields.tag with
      | none =>
        have htake : fields.take (.tag w) = .ok { fields with tag := some w } := by
          simp [Fields.take, htag]
        rw [htake]
        exact ih
      | some first =>
        have htake : fields.take (.tag w) = .error .mismatched := by
          simp [Fields.take, htag]
        rw [htake]
        exact iff_of_false nofun fun h => toList_ne_cons_cons h.1
    | payload bs =>
      have htags : tags (.payload bs :: parts) = tags parts := rfl
      have hpayloads : payloads (.payload bs :: parts) = bs :: payloads parts := rfl
      rw [htags, hpayloads]
      cases hpayload : fields.payload with
      | none =>
        have htake : fields.take (.payload bs) = .ok { fields with payload := some bs } := by
          simp [Fields.take, hpayload]
        rw [htake]
        exact ih
      | some first =>
        have htake : fields.take (.payload bs) = .error .mismatched := by
          simp [Fields.take, hpayload]
        rw [htake]
        exact iff_of_false nofun fun h => toList_ne_cons_cons h.2
    | other => exact ih

/-- A part that is not taken up is a mismatch. -/
theorem mismatched_of_foldlM_take {parts : List Part} {fields : Fields} {f : Fault}
    (h : parts.foldlM Fields.take fields = .error f) : f = .mismatched := by
  induction parts generalizing fields with
  | nil => cases h
  | cons part parts ih =>
    rw [List.foldlM_cons] at h
    cases htake : fields.take part with
    | ok later =>
      rw [htake] at h
      exact ih h
    | error g =>
      rw [htake] at h
      cases h
      unfold Fields.take at htake
      split at htake
      · split at htake <;> cases htake
        rfl
      · split at htake <;> cases htake
        rfl
      · cases htake

/-- The item that parts make. -/
def itemOfParts (parts : List Part) : Except Fault WorkItem :=
  parts.foldlM Fields.take .empty >>= Fields.item

theorem Fields.item_eq_ok {fields : Fields} {item : WorkItem} :
    fields.item = .ok item ↔ fields.tag = some item.tag ∧ fields.payload = some item.payload := by
  obtain ⟨tag, payload⟩ := fields
  obtain ⟨w, bs⟩ := item
  cases tag <;> cases payload <;> simp [Fields.item]

theorem Fields.mismatched_of_item {fields : Fields} {f : Fault} (h : fields.item = .error f) :
    f = .mismatched := by
  unfold Fields.item at h
  split at h <;> cases h
  rfl

/-- **Parts make an item if one is a tag and one is a payload.** -/
theorem itemOfParts_eq_ok {parts : List Part} {item : WorkItem} :
    itemOfParts parts = .ok item ↔
      tags parts = [item.tag] ∧ payloads parts = [item.payload] := by
  unfold itemOfParts
  constructor
  · intro h
    cases hfold : parts.foldlM Fields.take .empty with
    | error f =>
      rw [hfold] at h
      cases h
    | ok fields =>
      rw [hfold] at h
      obtain ⟨htag, hpayload⟩ := Fields.item_eq_ok.mp h
      obtain ⟨htags, hpayloads⟩ := foldlM_take_eq_ok.mp hfold
      rw [htag] at htags
      rw [hpayload] at hpayloads
      exact ⟨htags.symm, hpayloads.symm⟩
  · rintro ⟨htags, hpayloads⟩
    have hfold : parts.foldlM Fields.take .empty = .ok ⟨some item.tag, some item.payload⟩ :=
      foldlM_take_eq_ok.mpr ⟨htags.symm, hpayloads.symm⟩
    rw [hfold]
    rfl

theorem mismatched_of_itemOfParts {parts : List Part} {f : Fault}
    (h : itemOfParts parts = .error f) : f = .mismatched := by
  unfold itemOfParts at h
  cases hfold : parts.foldlM Fields.take .empty with
  | error g =>
    rw [hfold] at h
    cases h
    exact mismatched_of_foldlM_take hfold
  | ok fields =>
    rw [hfold] at h
    exact Fields.mismatched_of_item h

/-- The tags and the payloads among the parts decide, in whatever order. -/
theorem itemOfParts_congr {parts parts' : List Part} (htags : (tags parts').Perm (tags parts))
    (hpayloads : (payloads parts').Perm (payloads parts)) :
    itemOfParts parts' = itemOfParts parts := by
  have hok : ∀ item, itemOfParts parts' = .ok item ↔ itemOfParts parts = .ok item := by
    intro item
    rw [itemOfParts_eq_ok, itemOfParts_eq_ok]
    constructor
    · rintro ⟨htag, hpayload⟩
      rw [htag] at htags
      rw [hpayload] at hpayloads
      exact ⟨htags.singleton_eq.symm, hpayloads.singleton_eq.symm⟩
    · rintro ⟨htag, hpayload⟩
      rw [htag] at htags
      rw [hpayload] at hpayloads
      exact ⟨htags.eq_singleton, hpayloads.eq_singleton⟩
  cases h : itemOfParts parts with
  | ok item => exact (hok item).mpr h
  | error f =>
    cases h' : itemOfParts parts' with
    | ok item => exact absurd (h.symm.trans ((hok item).mp h')) nofun
    | error g => rw [mismatched_of_itemOfParts h, mismatched_of_itemOfParts h']

/-! ## §6 Items -/

theorem itemMembers_eq {limit : Nat} {s : List Char} {parts : List Part}
    (h : Series '}' PartText s parts) (small : s.length ≤ limit) (rest : List Char) :
    itemMembers limit (s ++ rest) = (itemOfParts parts).map (·, rest) := by
  have hfold := h.foldPieces_eq (partSteps limit) small .empty rest
  simp only [itemMembers, foldMembers, hfold]
  unfold itemOfParts
  cases parts.foldlM Fields.take .empty with
  | error f => rfl
  | ok fields => cases hitem : fields.item <;> simp [Except.map, bind, Except.bind, hitem]

theorem readItem_object {limit : Nat} {b s : List Char} {parts : List Part} (blanks : Blanks b)
    (h : Series '}' PartText s parts) (small : s.length ≤ limit) (rest : List Char) :
    readItem limit (b ++ ('{' :: s ++ rest)) = (itemOfParts parts).map (·, rest) := by
  unfold readItem
  rw [skipBlanks_append blanks, List.cons_append, skipBlanks_cons (by decide)]
  exact itemMembers_eq h small rest

/-- An item that is written is read. -/
theorem item_reads (limit : Nat) : Reads (readItem limit) limit ItemText .ok := by
  intro b s item rest blanks h small _
  cases h with
  | object members tag payload =>
    simp only [List.length_cons] at small
    rw [readItem_object blanks members (by omega), itemOfParts_eq_ok.mpr ⟨tag, payload⟩]
  | @array b₁ b₂ b₃ e s t _ blanks₁ blanks₂ blanks₃ blanksEnd tag payload =>
    simp only [List.length_cons, List.length_append] at small
    have hcomma : Clear (b₂ ++ ',' :: (b₃ ++ (t ++ (e ++ ']' :: rest)))) :=
      (clear_cons (by decide) _).blanks blanks₂
    have hend : Clear (e ++ ']' :: rest) := (clear_cons (by decide) _).blanks blanksEnd
    have htag := nextElement_first (tag_reads limit) blanks₁ tag (Natural.starts tag) (by omega)
      hcomma
    have hpayload := nextElement_next (payload_reads limit) blanks₂ blanks₃ payload payload.starts
      (by omega) hend
    unfold readItem
    rw [skipBlanks_append blanks, List.cons_append, skipBlanks_cons (by decide)]
    simp only [List.append_assoc, List.cons_append, List.nil_append, itemElements, htag, hpayload,
      Except.map, closeArray_eq blanksEnd]

theorem nextElement_first_sound {α β : Type} {read : Reader α} {E : List Char → β → Prop}
    {make : β → Except Fault α} (reads : ReadsOnly read E make) {s rest : List Char} {a : α}
    (h : nextElement true read s = .ok (a, rest)) :
    ∃ b w v, Blanks b ∧ E w v ∧ make v = .ok a ∧ s = b ++ (w ++ rest) := by
  unfold nextElement at h
  split at h
  · cases h
  · cases h
  · next hmore => exact reads.first hmore h

theorem nextElement_next_sound {α β : Type} {read : Reader α} {E : List Char → β → Prop}
    {make : β → Except Fault α} (reads : ReadsOnly read E make) {s rest : List Char} {a : α}
    (h : nextElement false read s = .ok (a, rest)) :
    ∃ b b' w v, Blanks b ∧ Blanks b' ∧ E w v ∧ make v = .ok a ∧
      s = b ++ ',' :: (b' ++ (w ++ rest)) := by
  unfold nextElement at h
  split at h
  · cases h
  · cases h
  · next hmore => exact reads.next hmore h

theorem closeArray_sound {s rest : List Char} (h : closeArray s = .ok rest) :
    ∃ b, Blanks b ∧ s = b ++ ']' :: rest := by
  unfold closeArray at h
  split at h
  · cases h
  · next c after hskip =>
    split at h
    · next hclose =>
      cases h
      exact skipBlanks_eq_cons (hclose ▸ hskip)
    · cases h

theorem itemElements_sound {limit : Nat} {s rest : List Char} {item : WorkItem}
    (h : itemElements limit s = .ok (item, rest)) :
    ∃ t, ItemText ('[' :: t) item ∧ s = t ++ rest := by
  unfold itemElements at h
  split at h
  · cases h
  · next tag t htag =>
    split at h
    · cases h
    · next payload u hpayload =>
      split at h
      · cases h
      · next after hclose =>
        cases h
        obtain ⟨b₁, w, _, blanks₁, spells, hmake, rfl⟩ := nextElement_first_sound tag_readsOnly htag
        cases hmake
        obtain ⟨b₂, b₃, w', _, blanks₂, blanks₃, spells', hmake, rfl⟩ :=
          nextElement_next_sound (payload_readsOnly limit) hpayload
        cases hmake
        obtain ⟨e, blanksEnd, rfl⟩ := closeArray_sound hclose
        exact ⟨_, .array blanks₁ blanks₂ blanks₃ blanksEnd spells spells', by simp⟩

theorem itemMembers_sound {limit : Nat} {s rest : List Char} {item : WorkItem}
    (h : itemMembers limit s = .ok (item, rest)) :
    ∃ t, ItemText ('{' :: t) item ∧ s = t ++ rest := by
  unfold itemMembers at h
  simp only [foldMembers] at h
  split at h
  · cases h
  · next fields after hfold =>
    split at h
    · cases h
    · next hitem =>
      cases h
      obtain ⟨t, parts, members, htaken, rfl⟩ := (partYields limit).series hfold
      have hparts : itemOfParts parts = .ok item := by
        rw [itemOfParts, htaken]
        exact hitem
      obtain ⟨htag, hpayload⟩ := itemOfParts_eq_ok.mp hparts
      exact ⟨t, .object members htag hpayload, rfl⟩

/-- Whatever is read as an item is one. -/
theorem item_readsOnly (limit : Nat) : ReadsOnly (readItem limit) ItemText .ok := by
  intro s item rest h
  unfold readItem at h
  split at h
  · next after hskip =>
    obtain ⟨t, spells, rfl⟩ := itemElements_sound h
    obtain ⟨b, blanks, rfl⟩ := skipBlanks_eq_cons hskip
    exact ⟨b, _, item, blanks, spells, rfl, rfl⟩
  · next after hskip =>
    obtain ⟨t, spells, rfl⟩ := itemMembers_sound h
    obtain ⟨b, blanks, rfl⟩ := skipBlanks_eq_cons hskip
    exact ⟨b, _, item, blanks, spells, rfl, rfl⟩
  · exact absurd h (wrongKind_ne_ok _ _)

theorem readWhole_sound {α : Type} {read : Nat → Reader α} {text : String} {a : α}
    (h : readWhole read text = .ok a) :
    ∃ rest, read text.toList.length text.toList = .ok (a, rest) ∧ Blanks rest := by
  unfold readWhole at h
  split at h
  · cases h
  · next rest hread =>
    split at h
    · cases h
    · next hend =>
      cases h
      exact ⟨rest, hread, endOfText_sound hend⟩

end Handoff.Wire

/-! ## §7 Acceptance -/

namespace Handoff

open Json Wire

variable {text : String} {item : WorkItem} {parts : List Part}

theorem WorkItem.decode_of_isItem (h : IsItem text item) : WorkItem.decode text = .ok item := by
  obtain ⟨b, s, b', blanks, blanks', spells, htext⟩ := h
  have hclear : Clear (b' ++ []) := Clear.blanks nofun blanks'
  rw [List.append_nil] at hclear
  have hsmall : s.length ≤ text.toList.length := by
    simp only [htext, List.length_append]
    omega
  have hread := item_reads text.toList.length b s item b' blanks spells hsmall hclear
  rw [← htext] at hread
  exact readWhole_eq blanks' hread

theorem WorkItem.isItem_of_decode (h : WorkItem.decode text = .ok item) : IsItem text item := by
  obtain ⟨b', hread, blanks'⟩ := readWhole_sound h
  obtain ⟨b, s, _, blanks, spells, hmake, htext⟩ := item_readsOnly _ _ _ _ hread
  cases hmake
  exact ⟨b, s, b', blanks, blanks', spells, htext⟩

theorem Wire.HasParts.isItem (h : HasParts text parts) (tag : tags parts = [item.tag])
    (payload : payloads parts = [item.payload]) : IsItem text item := by
  obtain ⟨b, s, b', blanks, blanks', members, htext⟩ := h
  exact ⟨b, '{' :: s, b', blanks, blanks', .object members tag payload, htext⟩

/-- What is read of an object is what its parts make. -/
theorem WorkItem.decode_of_hasParts (h : HasParts text parts) :
    WorkItem.decode text = itemOfParts parts := by
  obtain ⟨b, s, b', blanks, blanks', members, htext⟩ := h
  refine readWhole_eq blanks' ?_
  rw [htext]
  exact readItem_object blanks members
    (by simp only [List.length_append, List.length_cons]; omega) b'

/-- **A text is read as an item exactly if it is one**: up to blanks an object with one tag, one
payload and any other members, or an array of a tag and a payload. What is read is this tag and this
payload, and of two objects with the same tags and the same payloads the same is read, in whatever
order the members stand, however they are spelled, and whatever else is among them. -/
theorem WorkItem.decode_eq_ok_iff :
    (∀ text item, WorkItem.decode text = .ok item ↔ IsItem text item) ∧
    ∀ text text' parts parts', HasParts text parts → HasParts text' parts' →
      (tags parts').Perm (tags parts) → (payloads parts').Perm (payloads parts) →
      WorkItem.decode text' = WorkItem.decode text := by
  constructor
  · exact fun text item => ⟨isItem_of_decode, decode_of_isItem⟩
  · intro text text' parts parts' h h' htags hpayloads
    rw [decode_of_hasParts h, decode_of_hasParts h']
    exact itemOfParts_congr htags hpayloads

/-- The tag stands last, the name of the payload is spelled with an escape, and a member that is
dropped holds a number out of every range; the second text is as a printer writes it. -/
theorem WorkItem.decode_eq_ok_iff_reordered :
    let text := " \x7b\"x\":[\x7b\"tag\":-1e999\x7d],\"p\\u0061yload\": [0,255 ]," ++
      "\"tag\":18446744073709551615\x7d\n"
    let text' := "\x7b\"tag\":18446744073709551615,\"payload\":[0,255]\x7d"
    let item : WorkItem := ⟨18446744073709551615, [0, 255]⟩
    HasParts text [.other, .payload item.payload, .tag item.tag] ∧
      HasParts text' [.tag item.tag, .payload item.payload] ∧
      IsItem text item ∧ WorkItem.decode text = .ok item ∧
      WorkItem.decode text' = WorkItem.decode text := by
  intro text text' item
  have hdigits : "18446744073709551615".toList.all Char.isDigit = true := by decide
  have htag : TagText "18446744073709551615".toList item.tag :=
    ⟨.digits ⟨by simp, List.all_eq_true.mp hdigits⟩ (by decide), by decide⟩
  have hzero : ByteText ['0'] 0 := ⟨.zero, rfl⟩
  have hbyte : ByteText ['2', '5', '5'] 255 := ⟨.digits ⟨by simp, by simp⟩ (by decide), rfl⟩
  have hspaced : PayloadText "[0,255 ]".toList item.payload :=
    .mk (.items .nil hzero (.next .nil .nil hbyte (.close (show Blanks [' '] by decide))))
  have hpayload : PayloadText "[0,255]".toList item.payload :=
    .mk (.items .nil hzero (.next .nil .nil hbyte (.closing ']')))
  have hnumber : Spells .drop 0 "-1e999".toList
      (.number ⟨true, ['1'], none, some (false, ['9', '9', '9'])⟩) :=
    .number (@Numeral.Spelled.mk true ['1'] [] ['e', '9', '9', '9'] _ _
      (.digits ⟨by simp, by simp⟩ (by decide)) .none
      (.some (.inl rfl) .none ⟨by simp, by simp⟩)) nofun
  have hinner := Member.plain .drop (show "tag".toList.all isPlain = true by decide) hnumber
  have hobject : Spells .drop 1 "\x7b\"tag\":-1e999\x7d".toList _ :=
    .object (.items .nil hinner (.closing '}'))
  have harray : Spells .drop 2 "[\x7b\"tag\":-1e999\x7d]".toList _ :=
    .array (.items .nil hobject (.closing ']'))
  have hplain : ∀ {name : String}, name.toList.all isPlain = true →
      Body .keep (name.toList ++ ['"']) name.toList := Body.plain .keep
  have hhex : HexNumber ['0', '0', '6', '1'] 0x61 :=
    .mk (show hexValue '0' = some 0 by decide) (show hexValue '0' = some 0 by decide)
      (show hexValue '6' = some 6 by decide) (show hexValue '1' = some 1 by decide)
  have hescape : Piece .keep ['\\', 'u', '0', '0', '6', '1'] 'a' :=
    .numbered hhex (by decide) (by decide)
  have hname : Body .keep "p\\u0061yload\"".toList "payload".toList :=
    .next (.plain (by decide) (by decide) (by decide)) (.next hescape
      (.plain .keep (show "yload".toList.all isPlain = true by decide)))
  have hx : PartText _ .other := .other
    (.mk (hplain (show "x".toList.all isPlain = true by decide)) .nil .nil) (by decide) (by decide)
    harray
  have hfirst : PartText _ (.payload item.payload) :=
    .payload (.mk hname .nil (show Blanks [' '] by decide)) hspaced
  have hsecond : PartText _ (.tag item.tag) := .tag
    (.mk (hplain (show "tag".toList.all isPlain = true by decide)) .nil .nil) htag
  have hlast : PartText _ (.payload item.payload) := .payload
    (.mk (hplain (show "payload".toList.all isPlain = true by decide)) .nil .nil) hpayload
  have hparts : HasParts text [.other, .payload item.payload, .tag item.tag] :=
    ⟨[' '], _, ['\n'], by decide, by decide,
      .items .nil hx (.next .nil .nil hfirst (.next .nil .nil hsecond (.closing '}'))), by decide⟩
  have hparts' : HasParts text' [.tag item.tag, .payload item.payload] :=
    ⟨[], _, [], .nil, .nil, .items .nil hsecond (.next .nil .nil hlast (.closing '}')), by decide⟩
  have hitem : IsItem text item := hparts.isItem rfl rfl
  obtain ⟨accepts, agree⟩ := decode_eq_ok_iff
  exact ⟨hparts, hparts', hitem, (accepts text item).mpr hitem,
    agree text text' _ _ hparts hparts' (.refl _) (.refl _)⟩

end Handoff
