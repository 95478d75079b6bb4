/-
Handoff.Proofs.Text.Utf8 — bytes are decoded exactly if they are the encoding of a text.

The decoder goes by a table of first bytes and by bounds of the second. `Opens` says the same of the
two numbers, and `Starts` what it means that a character stands at the front of bytes. Read one way it
is a step of the decoder, read the other way the encoding of that character, which computes the bytes
from the character's number and knows of no table.

  §1 first bytes   — `Opens`, `leadOf_iff`
  §2 one character — `Starts`
  §3 all bytes     — `decodeUtf8_eq_ok_iff`, `IsUtf8`, `isUtf8_append_ascii`
-/
import Handoff.Text.Utf8
import Mathlib.Tactic.SplitIfs

namespace Handoff.Text

open String (utf8EncodeChar)

/-! ## §1 First bytes -/

/-- The second byte of a character has the right form, and the first announces `n` bytes after it; the
bounds exclude the numbers that have a shorter form, those of surrogates and those that are too
large. -/
def Opens (n a b : Nat) : Prop :=
  0x80 ≤ b ∧ b ≤ 0xBF ∧
    (n = 1 ∧ 0xC2 ≤ a ∧ a ≤ 0xDF ∨
      n = 2 ∧ 0xE0 ≤ a ∧ a ≤ 0xEF ∧ (a = 0xE0 → 0xA0 ≤ b) ∧ (a = 0xED → b ≤ 0x9F) ∨
      n = 3 ∧ 0xF0 ≤ a ∧ a ≤ 0xF4 ∧ (a = 0xF0 → 0x90 ≤ b) ∧ (a = 0xF4 → b ≤ 0x8F))

/-- A byte that goes on with a character. -/
def Tail (b : Nat) : Prop := 0x80 ≤ b ∧ b ≤ 0xBF

theorem byteIn_iff {low high b : UInt8} :
    byteIn low high b = true ↔ low.toNat ≤ b.toNat ∧ b.toNat ≤ high.toNat := by
  simp [byteIn, UInt8.le_iff_toNat_le]

theorem isTail_iff {b : UInt8} : isTail b = true ↔ Tail b.toNat := byteIn_iff

/-- The table of first bytes says what `Opens` says. -/
theorem leadOf_iff {n : Nat} {a b : UInt8} :
    (∃ lead, leadOf a = some lead ∧ lead.tails = n ∧ byteIn lead.low lead.high b = true) ↔
      Opens n a.toNat b.toNat := by
  have hbyte : ∀ k : UInt8, a = k ↔ a.toNat = k.toNat := fun k => UInt8.toNat_inj.symm
  unfold leadOf Opens
  simp only [byteIn_iff, hbyte, UInt8.reduceToNat]
  -- One case for each row of the table, and one for the bytes that are in none.
  constructor
  · rintro ⟨lead, hlead, rfl, hbounds⟩
    split_ifs at hlead <;> cases hlead <;> simp only [UInt8.reduceToNat] at hbounds <;> grind
  · intro hopens
    split_ifs <;> simp only [Option.some.injEq, exists_eq_left', UInt8.reduceToNat, false_and,
      exists_false] <;> omega

/-! ## §2 One character -/

/-- Bytes start with a character, and the others follow. -/
inductive Starts : List UInt8 → Char → List UInt8 → Prop where
  | one {a : UInt8} {rest : List UInt8} (ha : a.toNat < 0x80) :
      Starts (a :: rest) (Char.ofNat a.toNat) rest
  | two {a b : UInt8} {rest : List UInt8} (opens : Opens 1 a.toNat b.toNat) :
      Starts (a :: b :: rest) (Char.ofNat (addTail (a.toNat % 32) b)) rest
  | three {a b c : UInt8} {rest : List UInt8} (opens : Opens 2 a.toNat b.toNat)
      (hc : Tail c.toNat) :
      Starts (a :: b :: c :: rest) (Char.ofNat (addTail (addTail (a.toNat % 16) b) c)) rest
  | four {a b c d : UInt8} {rest : List UInt8} (opens : Opens 3 a.toNat b.toNat)
      (hc : Tail c.toNat) (hd : Tail d.toNat) :
      Starts (a :: b :: c :: d :: rest)
        (Char.ofNat (addTail (addTail (addTail (a.toNat % 8) b) c) d)) rest

variable {bytes rest : List UInt8} {c : Char} {i : Nat} {read cs : List Char}

/-- The decoder takes the character. -/
theorem Starts.decodeFrom (h : Starts bytes c rest) (i : Nat) (read : List Char) :
    ∃ j, decodeFrom i read bytes = decodeFrom j (c :: read) rest := by
  have hfirst : ∀ (n : Nat) {a b : UInt8}, Opens n a.toNat b.toNat → ¬ a < 0x80 := by
    intro n a b hopens hlt
    have hlt : a.toNat < 0x80 := hlt
    unfold Opens at hopens
    omega
  cases h with
  | one ha => exact ⟨i + 1, by rw [Text.decodeFrom, if_pos (show _ < (0x80 : UInt8) from ha)]⟩
  | two opens =>
    obtain ⟨lead, hlead, htails, hbounds⟩ := leadOf_iff.mpr opens
    refine ⟨i + 2, ?_⟩
    rw [Text.decodeFrom, if_neg (hfirst 1 opens)]
    simp [hlead, htails, hbounds]
  | three opens hc =>
    obtain ⟨lead, hlead, htails, hbounds⟩ := leadOf_iff.mpr opens
    refine ⟨i + 3, ?_⟩
    rw [Text.decodeFrom, if_neg (hfirst 2 opens)]
    simp [hlead, htails, hbounds, isTail_iff.mpr hc]
  | four opens hc hd =>
    obtain ⟨lead, hlead, htails, hbounds⟩ := leadOf_iff.mpr opens
    refine ⟨i + 4, ?_⟩
    rw [Text.decodeFrom, if_neg (hfirst 3 opens)]
    simp [hlead, htails, hbounds, isTail_iff.mpr hc, isTail_iff.mpr hd]

/-- Where the decoder succeeds there is a character in front. -/
theorem starts_of_decodeFrom {a : UInt8} {s : List UInt8}
    (h : decodeFrom i read (a :: s) = .ok cs) : ∃ c rest, Starts (a :: s) c rest := by
  rw [decodeFrom] at h
  split at h
  · next hlt => exact ⟨_, _, .one hlt⟩
  split at h
  · cases h
  next lead hlead =>
  split at h
  · cases h
  next b t =>
  split at h
  · cases h
  next hbounds =>
  have hbounds : byteIn lead.low lead.high b = true := by simpa using hbounds
  have hopens : Opens lead.tails a.toNat b.toNat := leadOf_iff.mp ⟨lead, hlead, rfl, hbounds⟩
  split at h
  · next hone => exact ⟨_, _, .two (hone ▸ hopens)⟩
  next hone =>
  split at h
  · cases h
  next c u =>
  split at h
  · cases h
  next hc =>
  have hc : Tail c.toNat := isTail_iff.mp (by simpa using hc)
  split at h
  · next htwo => exact ⟨_, _, .three (htwo ▸ hopens) hc⟩
  next htwo =>
  split at h
  · cases h
  next d v =>
  split at h
  · cases h
  next hd =>
  have hd : Tail d.toNat := isTail_iff.mp (by simpa using hd)
  have hthree : lead.tails = 3 := by
    unfold Opens at hopens
    omega
  exact ⟨_, _, .four (hthree ▸ hopens) hc hd⟩

theorem toNat_ofNat {n : Nat} (h : n.isValidChar) : (Char.ofNat n).toNat = n := by
  rw [Char.ofNat, dif_pos h]
  rfl

theorem ofNat_eq {n : Nat} {a : UInt8} (h : n = a.toNat) : UInt8.ofNat n = a := by
  rw [h, UInt8.ofNat_toNat]

/-- The bytes that start with a character start with its encoding. -/
theorem Starts.bytes_eq (h : Starts bytes c rest) : bytes = utf8EncodeChar c ++ rest := by
  have hencode : ∀ n : Nat, n.isValidChar → utf8EncodeChar (Char.ofNat n) =
      if n ≤ 0x7F then [UInt8.ofNat n]
      else if n ≤ 0x7FF then [UInt8.ofNat (n / 64 % 0x20 + 0xC0), UInt8.ofNat (n % 0x40 + 0x80)]
      else if n ≤ 0xFFFF then
        [UInt8.ofNat (n / 4096 % 0x10 + 0xE0), UInt8.ofNat (n / 64 % 0x40 + 0x80),
          UInt8.ofNat (n % 0x40 + 0x80)]
      else
        [UInt8.ofNat (n / 262144 % 0x08 + 0xF0), UInt8.ofNat (n / 4096 % 0x40 + 0x80),
          UInt8.ofNat (n / 64 % 0x40 + 0x80), UInt8.ofNat (n % 0x40 + 0x80)] := by
    intro n hn
    have hval : (Char.ofNat n).val.toNat = n := toNat_ofNat hn
    simp only [utf8EncodeChar, hval]
  cases h with
  | @one a rest ha =>
    rw [hencode _ (.inl (by omega)), if_pos (by omega), ofNat_eq rfl]
    rfl
  | @two a b rest opens =>
    unfold Opens at opens
    have hvalid : (addTail (a.toNat % 32) b).isValidChar := .inl (by unfold addTail; omega)
    rw [hencode _ hvalid]
    unfold addTail
    rw [if_neg (by omega), if_pos (by omega), ofNat_eq (a := a) (by omega),
      ofNat_eq (a := b) (by omega)]
    rfl
  | @three a b c rest opens hc =>
    unfold Opens at opens
    unfold Tail at hc
    have hvalid : (addTail (addTail (a.toNat % 16) b) c).isValidChar := by
      unfold addTail Nat.isValidChar
      omega
    rw [hencode _ hvalid]
    unfold addTail
    rw [if_neg (by omega), if_neg (by omega), if_pos (by omega), ofNat_eq (a := a) (by omega),
      ofNat_eq (a := b) (by omega), ofNat_eq (a := c) (by omega)]
    rfl
  | @four a b c d rest opens hc hd =>
    unfold Opens at opens
    unfold Tail at hc hd
    have hvalid : (addTail (addTail (addTail (a.toNat % 8) b) c) d).isValidChar := by
      unfold addTail Nat.isValidChar
      omega
    rw [hencode _ hvalid]
    unfold addTail
    rw [if_neg (by omega), if_neg (by omega), if_neg (by omega), ofNat_eq (a := a) (by omega),
      ofNat_eq (a := b) (by omega), ofNat_eq (a := c) (by omega), ofNat_eq (a := d) (by omega)]
    rfl

/-- The encoding of a character starts with it. -/
theorem starts_utf8EncodeChar (c : Char) (rest : List UInt8) :
    Starts (utf8EncodeChar c ++ rest) c rest := by
  have hvalid : c.toNat.isValidChar := c.valid
  have hbyte : ∀ n : Nat, n < 256 → (UInt8.ofNat n).toNat = n := fun n h => Nat.mod_eq_of_lt h
  have hnumber : ∀ n : Nat, n = c.toNat → Char.ofNat n = c := by
    rintro n rfl
    exact Char.ofNat_toNat c
  have hval : c.val.toNat = c.toNat := rfl
  generalize hn : c.toNat = n at hvalid hnumber hval
  unfold Nat.isValidChar at hvalid
  simp only [utf8EncodeChar, hval]
  split
  · next hone =>
    have hstarts : Starts (UInt8.ofNat n :: rest) _ rest := .one (by rw [hbyte n (by omega)]; omega)
    rwa [hnumber _ (by rw [hbyte n (by omega)])] at hstarts
  split
  · next htwo =>
    have hstarts : Starts (UInt8.ofNat (n / 64 % 32 + 192) :: UInt8.ofNat (n % 64 + 128) :: rest) _
        rest := .two (by rw [hbyte _ (by omega), hbyte _ (by omega)]; unfold Opens; omega)
    rwa [hnumber _ (by unfold addTail; rw [hbyte _ (by omega), hbyte _ (by omega)]; omega)]
      at hstarts
  split
  · next hthree =>
    have hstarts : Starts (UInt8.ofNat (n / 4096 % 16 + 224) :: UInt8.ofNat (n / 64 % 64 + 128) ::
        UInt8.ofNat (n % 64 + 128) :: rest) _ rest :=
      .three (by rw [hbyte _ (by omega), hbyte _ (by omega)]; unfold Opens; omega)
        (by rw [hbyte _ (by omega)]; unfold Tail; omega)
    rwa [hnumber _ (by
      unfold addTail; rw [hbyte _ (by omega), hbyte _ (by omega), hbyte _ (by omega)]; omega)]
      at hstarts
  · have hstarts : Starts (UInt8.ofNat (n / 262144 % 8 + 240) ::
        UInt8.ofNat (n / 4096 % 64 + 128) :: UInt8.ofNat (n / 64 % 64 + 128) ::
        UInt8.ofNat (n % 64 + 128) :: rest) _ rest :=
      .four (by rw [hbyte _ (by omega), hbyte _ (by omega)]; unfold Opens; omega)
        (by rw [hbyte _ (by omega)]; unfold Tail; omega)
        (by rw [hbyte _ (by omega)]; unfold Tail; omega)
    rwa [hnumber _ (by
      unfold addTail
      rw [hbyte _ (by omega), hbyte _ (by omega), hbyte _ (by omega), hbyte _ (by omega)]
      omega)] at hstarts

/-! ## §3 All bytes -/

theorem decodeFrom_flatMap (i : Nat) (read cs : List Char) :
    decodeFrom i read (cs.flatMap utf8EncodeChar) = .ok (read.reverse ++ cs) := by
  induction cs generalizing i read with
  | nil => simp [decodeFrom]
  | cons c cs ih =>
    obtain ⟨j, hstep⟩ := (starts_utf8EncodeChar c (cs.flatMap utf8EncodeChar)).decodeFrom i read
    rw [List.flatMap_cons, hstep, ih]
    simp

/-- Where the decoder succeeds the bytes are an encoding. -/
theorem exists_of_decodeFrom (h : decodeFrom i read bytes = .ok cs) :
    ∃ text : List Char, bytes = text.flatMap utf8EncodeChar := by
  induction hlength : bytes.length using Nat.strongRecOn generalizing i read bytes with
  | ind length ih =>
    cases bytes with
    | nil => exact ⟨[], rfl⟩
    | cons a s =>
      obtain ⟨c, rest, hstarts⟩ := starts_of_decodeFrom h
      obtain ⟨j, hstep⟩ := hstarts.decodeFrom i read
      have hbytes := hstarts.bytes_eq
      have hshorter : rest.length < length := by
        have hpos := c.utf8Size_pos
        rw [← hlength, hbytes, List.length_append, String.length_utf8EncodeChar]
        omega
      obtain ⟨text, htext⟩ := ih _ hshorter (hstep ▸ h) rfl
      exact ⟨c :: text, by rw [hbytes, htext, List.flatMap_cons]⟩

/-- **Bytes are decoded to a text exactly if they are its encoding.** -/
theorem decodeUtf8_eq_ok_iff {bytes : List UInt8} {text : List Char} :
    decodeUtf8 bytes = .ok text ↔ bytes = text.flatMap utf8EncodeChar := by
  constructor
  · intro h
    obtain ⟨cs, rfl⟩ := exists_of_decodeFrom h
    rw [decodeUtf8, decodeFrom_flatMap, Except.ok.injEq] at h
    rw [← h]
    rfl
  · rintro rfl
    exact decodeFrom_flatMap 0 [] text

/-- The bytes are the encoding of a text. -/
def IsUtf8 (bytes : List UInt8) : Prop := ∃ text : List Char, bytes = text.flatMap utf8EncodeChar

theorem isUtf8_iff {bytes : List UInt8} : IsUtf8 bytes ↔ ∃ text, decodeUtf8 bytes = .ok text :=
  exists_congr fun _ => decodeUtf8_eq_ok_iff.symm

/-- An encoding of one character that ends with an ASCII byte is that byte. -/
theorem Starts.eq_singleton {b : UInt8} (h : Starts bytes c []) (last : bytes.getLast? = some b)
    (ascii : b.toNat < 0x80) : bytes = [b] := by
  cases h with
  | one => simpa using last
  | @two a b' _ opens =>
    have hlast : b' = b := by simpa using last
    exact absurd (hlast ▸ opens.1) (Nat.not_le.mpr ascii)
  | @three a b' c' _ opens hc =>
    have hlast : c' = b := by simpa using last
    exact absurd (hlast ▸ hc.1) (Nat.not_le.mpr ascii)
  | @four a b' c' d' _ opens hc hd =>
    have hlast : d' = b := by simpa using last
    exact absurd (hlast ▸ hd.1) (Nat.not_le.mpr ascii)

/-- Whether bytes are an encoding does not depend on an ASCII byte at their end. -/
theorem isUtf8_append_ascii {bytes : List UInt8} {b : UInt8} (ascii : b.toNat < 0x80) :
    IsUtf8 (bytes ++ [b]) ↔ IsUtf8 bytes := by
  constructor
  · rintro ⟨text, htext⟩
    rcases List.eq_nil_or_concat text with rfl | ⟨init, c, rfl⟩
    · simp at htext
    rw [List.concat_eq_append, List.flatMap_append, List.flatMap_singleton] at htext
    have hstarts := starts_utf8EncodeChar c []
    rw [List.append_nil] at hstarts
    have hlast : (utf8EncodeChar c).getLast? = some b := by
      have hends := congrArg List.getLast? htext
      have hpos : utf8EncodeChar c ≠ [] := by
        rw [← List.length_pos_iff, String.length_utf8EncodeChar]
        exact c.utf8Size_pos
      rw [List.getLast?_append, List.getLast?_append, List.getLast?_singleton,
        List.getLast?_eq_some_getLast hpos] at hends
      rw [List.getLast?_eq_some_getLast hpos]
      exact hends.symm
    rw [hstarts.eq_singleton hlast ascii] at htext
    exact ⟨init, List.append_cancel_right htext⟩
  · rintro ⟨text, rfl⟩
    have hbyte : [b] = utf8EncodeChar (Char.ofNat b.toNat) := by
      simpa using (Starts.one ascii : Starts [b] _ []).bytes_eq
    exact ⟨text ++ [Char.ofNat b.toNat], by
      rw [List.flatMap_append, List.flatMap_singleton, ← hbyte]⟩

end Handoff.Text
