/-
Handoff.Proofs.Toml.Spelled — integers and texts as a document may spell them.

There are many ways to spell a value in a document; here is one for every signed 64-bit integer and
for every text: decimal digits, and characters between double quotes, with an escape for those that
may not stand there.

A number is tried as a date-time and as a float before it is read as an integer. Digits up to the end
of a line are neither: after any number of them comes a digit or the line break, but no hyphen, colon,
point or exponent (`fixedDigits_expect`).

  §1 values      — `Spelled`
  §2 integers    — `spelled_integer`
  §3 texts       — `spelled_text`
-/
import Handoff.Proofs.Json.Plain
import Handoff.Toml.Document
import Handoff.Toml.Printed

namespace Handoff.Toml

open Text (decimalValue)

/-! ## §1 Values -/

/-- The characters, up to the end of a line, are read as the value. -/
structure Spelled (text : List Char) (v : Value) : Prop where
  starts : ∃ c t, text = c :: t ∧ isBlank c = false
  reads : ∀ limit rest, text.length < limit →
    value limit maxDepth (text ++ '\n' :: rest) = some (v, '\n' :: rest)

/-- A character that is this one or of a class is no other that is not of the class. -/
theorem ne_of_eq_or {first c d : Char} {p : Char → Bool} (h : c = first ∨ p c = true)
    (ne : d ≠ first) (other : p d = false) : c ≠ d := by
  rintro rfl
  rcases h with h | h
  · exact ne h
  · simp [h] at other

section Scalars

variable {limit depth : Nat} {c : Char} {t : List Char}

/-- A value that starts with neither bracket nor brace is a scalar. -/
theorem value_scalar (bracket : c ≠ '[') (brace : c ≠ '{') :
    value limit depth (c :: t) = scalar limit (c :: t) := by
  unfold value
  simp only [bracket, brace, if_false]

/-- A scalar that starts with no letter of a truth value and no quote is a number. -/
theorem scalar_numeral (letters : c ≠ 't' ∧ c ≠ 'f') (quotes : ¬ (c = '"' ∨ c = '\'')) :
    scalar limit (c :: t) = numeral (c :: t) := by
  unfold scalar
  split
  · next heq => exact absurd (List.cons.inj heq).1 letters.1
  · next heq => exact absurd (List.cons.inj heq).1 letters.2
  · next heq =>
    rw [← (List.cons.inj heq).1, if_neg quotes]
  · next heq => cases heq

end Scalars

/-! ## §2 Integers -/

section Integers

variable {ds rest : List Char}

/-- Digits at the front of other digits up to the end of a line are some of them. -/
theorem exists_of_digits_append {p t : List Char} (hp : p.all Char.isDigit = true)
    (h : ds ++ '\n' :: rest = p ++ t) : ∃ ds', ds = p ++ ds' ∧ t = ds' ++ '\n' :: rest := by
  rcases List.append_eq_append_iff.mp h with ⟨u, rfl, hu⟩ | ⟨u, rfl, hu⟩
  · cases u with
    | nil => exact ⟨[], by simp, by simpa using hu.symm⟩
    | cons c u =>
      rw [List.cons_append, List.cons.injEq] at hu
      obtain ⟨rfl, -⟩ := hu
      simp at hp
  · exact ⟨u, rfl, hu⟩

/-- What follows digits of a fixed number is a digit or the end of the line. -/
theorem fixedDigits_expect (digits : ds.all Char.isDigit = true) {k : Nat} {c : Char}
    (notDigit : c.isDigit = false) (notBreak : c ≠ '\n') {n : Nat} {t : List Char}
    (h : fixedDigits k (ds ++ '\n' :: rest) = some (n, t)) : expect c t = none := by
  simp only [fixedDigits, Option.ite_none_right_eq_some, Option.some.injEq, Prod.mk.injEq] at h
  obtain ⟨⟨-, hp⟩, -, rfl⟩ := h
  obtain ⟨ds', hds, ht⟩ := exists_of_digits_append hp (List.take_append_drop k _).symm
  rw [hds, List.all_append, Bool.and_eq_true] at digits
  rw [ht]
  cases ds' with
  | nil => exact if_neg notBreak.symm
  | cons d ds' =>
    refine if_neg ?_
    rintro rfl
    simp [notDigit] at digits

theorem dateTime_digits (digits : ds.all Char.isDigit = true) :
    dateTime (ds ++ '\n' :: rest) = none := by
  have hdate : date (ds ++ '\n' :: rest) = none := by
    unfold date
    cases h : fixedDigits 4 (ds ++ '\n' :: rest) with
    | none => rfl
    | some read =>
      have hnone := fixedDigits_expect digits (c := '-') (by decide) (by decide) h
      simp [hnone]
  have htime : time (ds ++ '\n' :: rest) = none := by
    unfold time hoursMinutes
    cases h : fixedDigits 2 (ds ++ '\n' :: rest) with
    | none => rfl
    | some read =>
      have hnone := fixedDigits_expect digits (c := ':') (by decide) (by decide) h
      simp [hnone]
  simp only [dateTime, hdate, htime, Option.map_none]

theorem dateTime_minus (s : List Char) : dateTime ('-' :: s) = none := by
  have hfixed : ∀ k, fixedDigits (k + 1) ('-' :: s) = none := by
    intro k
    simp [fixedDigits]
  simp [dateTime, date, time, hoursMinutes, hfixed]

theorem moreDigits_digits (digits : ds.all Char.isDigit = true) :
    moreDigits Char.isDigit (ds ++ '\n' :: rest) = (ds, '\n' :: rest) := by
  induction ds with
  | nil => rfl
  | cons c ds ih =>
    rw [List.all_cons, Bool.and_eq_true] at digits
    have hc : c ≠ '_' := by
      rintro rfl
      exact absurd digits.1 (by decide)
    rw [List.cons_append, moreDigits.eq_def]
    split
    · next heq => exact absurd (List.cons.inj heq).1 hc
    · next heq =>
      obtain ⟨rfl, rfl⟩ := List.cons.inj heq
      rw [if_pos digits.1, ih digits.2]
    · next heq => cases heq

theorem decimalDigits_whole (whole : Json.Whole ds) :
    decimalDigits (ds ++ '\n' :: rest) = some (ds, '\n' :: rest) := by
  cases whole with
  | zero => rfl
  | @digits c ds digits nonzero =>
    have hall : (c :: ds).all Char.isDigit = true := List.all_eq_true.mpr digits.isDigit
    rw [List.all_cons, Bool.and_eq_true] at hall
    rw [List.cons_append, decimalDigits, if_neg nonzero, digitRun, if_pos hall.1,
      moreDigits_digits hall.2]

/-- The digits of a number with its sign. -/
def signedChars (negative : Bool) (ds : List Char) : List Char :=
  if negative then '-' :: ds else ds

theorem optionalSign_signedChars (negative : Bool) (whole : Json.Whole ds) :
    optionalSign (signedChars negative ds ++ '\n' :: rest) = (negative, ds ++ '\n' :: rest) := by
  cases negative with
  | true => rfl
  | false =>
    obtain ⟨c, t, rfl, hdigit⟩ := whole.head
    show optionalSign (c :: (t ++ '\n' :: rest)) = _
    unfold optionalSign
    split
    · next heq =>
      rw [(List.cons.inj heq).1] at hdigit
      exact absurd hdigit (by decide)
    · next heq =>
      rw [(List.cons.inj heq).1] at hdigit
      exact absurd hdigit (by decide)
    · rfl

theorem float_signedChars (negative : Bool) (whole : Json.Whole ds) :
    float (signedChars negative ds ++ '\n' :: rest) = none := by
  have hsign : optionalSign (signedChars negative ds ++ '\n' :: rest) = _ :=
    optionalSign_signedChars negative whole
  have hdigit : digitFloat (signedChars negative ds ++ '\n' :: rest) = none := by
    simp only [digitFloat, hsign, decimalDigits_whole whole]
    simp [fraction, exponent]
  have hnamed : namedFloat (ds ++ '\n' :: rest) = none := by
    obtain ⟨c, t, rfl, hc⟩ := whole.head
    rw [List.cons_append]
    unfold namedFloat
    split
    · next heq =>
      rw [(List.cons.inj heq).1] at hc
      exact absurd hc (by decide)
    · next heq =>
      rw [(List.cons.inj heq).1] at hc
      exact absurd hc (by decide)
    · rfl
  simp only [float, hdigit, hsign, hnamed, Option.or_none]

theorem dateTime_signedChars (negative : Bool) (whole : Json.Whole ds) :
    dateTime (signedChars negative ds ++ '\n' :: rest) = none := by
  cases negative with
  | true => exact dateTime_minus _
  | false =>
    refine dateTime_digits ?_
    cases whole with
    | zero => rfl
    | digits digits => exact List.all_eq_true.mpr digits.isDigit

/-- A number that does not start with zero has no base but ten. -/
theorem integer_decimal {c : Char} {t : List Char} (h : c ≠ '0') :
    integer (c :: t) = decimalInteger (c :: t) := by
  unfold integer
  split
  · next heq => exact absurd (List.cons.inj heq).1 h
  · next heq => exact absurd (List.cons.inj heq).1 h
  · next heq => exact absurd (List.cons.inj heq).1 h
  · rfl

theorem integer_signedChars (negative : Bool) (whole : Json.Whole ds) :
    integer (signedChars negative ds ++ '\n' :: rest) =
      decimalInteger (signedChars negative ds ++ '\n' :: rest) := by
  cases negative with
  | true => exact integer_decimal (by decide)
  | false =>
    cases whole with
    | zero => rfl
    | digits _ nonzero => exact integer_decimal nonzero

end Integers

/-- The decimal digits of an integer, with a minus sign if it is negative. -/
def integerChars (n : Int) : List Char := signedChars (n < 0) (decimalChars n.natAbs)

/-- The value of the digits of an integer, with its sign, is the integer. -/
theorem signed_decimalChars (n : Int) :
    (if decide (n < 0) then -(decimalValue (decimalChars n.natAbs) : Int)
      else decimalValue (decimalChars n.natAbs)) = n := by
  rw [Json.Numeral.decimalValue_decimalChars]
  split
  · next hneg =>
    rw [decide_eq_true_eq] at hneg
    omega
  · next hneg =>
    rw [decide_eq_true_eq] at hneg
    omega

/-- **Every signed 64-bit integer is read from its digits.** -/
theorem spelled_integer {n : Int} (signed : isSigned64 n = true) :
    Spelled (integerChars n) (.integer n) := by
  have whole := Json.Numeral.whole_decimalChars n.natAbs
  have hstarts : ∃ c t, integerChars n = c :: t ∧ (c = '-' ∨ c.isDigit = true) := by
    unfold integerChars signedChars
    split
    · exact ⟨_, _, rfl, .inl rfl⟩
    · obtain ⟨c, t, heq, hc⟩ := whole.head
      exact ⟨c, t, heq, .inr hc⟩
  have hread : ∀ rest,
      numeral (integerChars n ++ '\n' :: rest) = some (.integer n, '\n' :: rest) := by
    intro rest
    have hdecimal : decimalInteger (integerChars n ++ '\n' :: rest) =
        some (.integer n, '\n' :: rest) := by
      simp only [decimalInteger, integerChars, optionalSign_signedChars _ whole,
        decimalDigits_whole whole, signed_decimalChars, signed, if_true]
    simp only [numeral, integerChars, dateTime_signedChars _ whole, float_signedChars _ whole,
      integer_signedChars _ whole]
    simpa [integerChars] using hdecimal
  obtain ⟨c, t, htext, hc⟩ := hstarts
  rw [htext] at hread ⊢
  have hother : ∀ d : Char, d ≠ '-' → d.isDigit = false → c ≠ d := fun _ => ne_of_eq_or hc
  have hblank : isBlank c = false := by
    simp [isBlank, hother ' ' (by decide) (by decide), hother '\t' (by decide) (by decide)]
  refine ⟨⟨c, t, rfl, hblank⟩, fun limit rest _ => ?_⟩
  rw [List.cons_append, value_scalar (hother '[' (by decide) (by decide))
    (hother '{' (by decide) (by decide)), scalar_numeral
    ⟨hother 't' (by decide) (by decide), hother 'f' (by decide) (by decide)⟩
    (not_or.mpr ⟨hother '"' (by decide) (by decide), hother '\'' (by decide) (by decide)⟩)]
  exact hread rest

/-! ## §3 Texts -/

/-- So many hexadecimal digits of a number. -/
def hexChars : Nat → Nat → List Char
  | 0, _ => []
  | k + 1, n => hexDigit (n / Nat.pow 16 k) :: hexChars k (n % Nat.pow 16 k)

theorem hexValue_hexDigit : ∀ d < 16, hexValue (hexDigit d) = some d := by decide

theorem hexDigits_hexChars {k n : Nat} (h : n < Nat.pow 16 k) (read : Nat) (rest : List Char) :
    hexDigits k read (hexChars k n ++ rest) = some (read * Nat.pow 16 k + n, rest) := by
  induction k generalizing n read with
  | zero =>
    have hn : n = 0 := Nat.lt_one_iff.mp h
    subst hn
    simp [hexChars, hexDigits]
  | succ k ih =>
    have hpos : 0 < Nat.pow 16 k := Nat.pow_pos (by decide)
    have hpow : Nat.pow 16 (k + 1) = Nat.pow 16 k * 16 := rfl
    have hdigit : n / Nat.pow 16 k < 16 := Nat.div_lt_of_lt_mul (hpow ▸ h)
    have hsplit := Nat.div_add_mod n (Nat.pow 16 k)
    rw [hexChars, List.cons_append, hexDigits, hexValue_hexDigit _ hdigit]
    simp only [ih (Nat.mod_lt n hpos), Option.some.injEq, Prod.mk.injEq, and_true]
    rw [hpow, Nat.add_mul, Nat.add_assoc, Nat.mul_comm (n / Nat.pow 16 k), hsplit, Nat.mul_assoc,
      Nat.mul_comm 16]

/-- A character between double quotes: itself, or else the escape of its number. -/
def writtenChar (c : Char) : List Char :=
  if isBasic c then [c] else '\\' :: 'U' :: hexChars 8 c.toNat

/-- A text between double quotes. -/
def textChars (s : String) : List Char := '"' :: (s.toList.flatMap writtenChar ++ ['"'])

theorem escape_number (c : Char) (rest : List Char) :
    escape ('U' :: (hexChars 8 c.toNat ++ rest)) = some ([c], rest) := by
  have hvalid : c.toNat.isValidChar := c.valid
  have hlt : c.toNat < Nat.pow 16 8 := by
    have hmax : c.toNat < 0x110000 := by
      rcases hvalid with h | h <;> omega
    exact Nat.lt_trans hmax (by decide)
  have hread := hexDigits_hexChars hlt 0 rest
  rw [Nat.zero_mul, Nat.zero_add] at hread
  show numbered 8 _ = _
  rw [numbered, hread]
  simp [hvalid]

/-- A written character does not end the text, and is read as the character. -/
theorem writtenChar_read (c : Char) (rest : List Char) :
    closeLine '"' (writtenChar c ++ rest) = none ∧
      basicPiece (writtenChar c ++ rest) = some ([c], rest) := by
  unfold writtenChar
  split
  · next basic =>
    have hquote : c ≠ '"' := by
      rintro rfl
      exact absurd basic (by decide)
    have hslash : c ≠ '\\' := by
      rintro rfl
      exact absurd basic (by decide)
    rw [List.cons_append, List.nil_append, closeLine, basicPiece, if_neg hquote, if_neg hslash,
      if_pos basic]
    exact ⟨rfl, rfl⟩
  · exact ⟨rfl, escape_number c rest⟩

theorem body_written {limit : Nat} {cs : List Char} (enough : cs.length < limit)
    (rest : List Char) :
    body (closeLine '"') basicPiece limit (cs.flatMap writtenChar ++ '"' :: rest) =
      some (cs, rest) := by
  obtain ⟨limit, rfl⟩ : ∃ n, limit = n + 1 := Nat.exists_eq_succ_of_ne_zero (by omega)
  induction cs generalizing limit with
  | nil => rfl
  | cons c cs ih =>
    rw [List.length_cons] at enough
    obtain ⟨limit, rfl⟩ : ∃ n, limit = n + 1 := Nat.exists_eq_succ_of_ne_zero (by omega)
    obtain ⟨hclose, hpiece⟩ := writtenChar_read c (cs.flatMap writtenChar ++ '"' :: rest)
    rw [List.flatMap_cons, List.append_assoc, body, hclose]
    simp only [hpiece, ih limit (by omega)]
    rfl

theorem writtenChar_ne_nil (c : Char) : writtenChar c ≠ [] := by
  unfold writtenChar
  split
  · exact List.cons_ne_nil _ _
  · exact List.cons_ne_nil _ _

/-- Pieces that are not empty take at least a character each. -/
theorem length_le_length_flatMap {α : Type} {f : α → List Char} (h : ∀ a, f a ≠ [])
    (as : List α) : as.length ≤ (as.flatMap f).length := by
  induction as with
  | nil => exact Nat.le_refl 0
  | cons a as ih =>
    have hpos := List.length_pos_iff.mpr (h a)
    rw [List.flatMap_cons, List.length_append, List.length_cons]
    omega

theorem tripled_eq_none {quote a b : Char} (h : ¬ (a = quote ∧ b = quote)) (t : List Char) :
    tripled quote (a :: b :: t) = none := by
  cases t with
  | nil => rfl
  | cons c t => exact if_neg fun ⟨ha, hb, _⟩ => h ⟨ha, hb⟩

/-- No three quotes stand at the front of a text with one quote on either side. -/
theorem tripled_textChars (s : String) (rest : List Char) :
    tripled '"' (textChars s ++ '\n' :: rest) = none ∧
      tripled '\'' (textChars s ++ '\n' :: rest) = none := by
  unfold textChars
  cases s.toList with
  | nil => exact ⟨rfl, rfl⟩
  | cons c cs =>
    have hfirst := (writtenChar_read c (cs.flatMap writtenChar ++ '"' :: '\n' :: rest)).1
    obtain ⟨d, t, heq⟩ := List.exists_cons_of_ne_nil (writtenChar_ne_nil c)
    rw [heq, List.cons_append, closeLine] at hfirst
    have hd : d ≠ '"' := by
      rintro rfl
      simp at hfirst
    rw [List.flatMap_cons, heq]
    exact ⟨tripled_eq_none (fun h => hd h.2) _, tripled_eq_none (fun h => by simp at h) _⟩

/-- **Every text is read from its characters between quotes.** -/
theorem spelled_text (s : String) : Spelled (textChars s) (.string s) := by
  refine ⟨⟨'"', _, rfl, by decide⟩, fun limit rest small => ?_⟩
  have henough : s.toList.length < limit := by
    have hlength := length_le_length_flatMap writtenChar_ne_nil s.toList
    simp only [textChars, List.length_cons, List.length_append] at small
    omega
  have htext : textChars s ++ '\n' :: rest =
      '"' :: (s.toList.flatMap writtenChar ++ '"' :: '\n' :: rest) := by
    simp [textChars]
  have hline : lineString limit (textChars s ++ '\n' :: rest) = some (s, '\n' :: rest) := by
    rw [htext]
    simp only [lineString, body_written henough, Option.map_some, String.ofList_toList]
  have hscalar : scalar limit (textChars s ++ '\n' :: rest) =
      (anyString limit (textChars s ++ '\n' :: rest)).map
        fun read => (.string read.1, read.2) := by
    rw [htext]
    rfl
  obtain ⟨hdouble, hsingle⟩ := tripled_textChars s rest
  rw [show textChars s ++ '\n' :: rest = '"' :: _ from htext,
    value_scalar (by decide) (by decide), ← htext, hscalar]
  simp only [anyString, hdouble, hsingle, hline, Option.map_some]

end Handoff.Toml
