/-
Handoff.Proofs.Json.Completeness — every value that a text spells is read.

A reader is complete for a way of spelling if, given the spelling and anything that may follow it,
it returns what was spelled and leaves what follows (`Reads`). What may follow is anything for most
values, but a number ends only where no further character of a number comes (`Clear`); commas,
blanks and closing characters are such ends.

Arrays and objects are folds. `foldPieces_eq` says once what a fold over the items of a series is,
for any reader of items and any state; it is used for values here and for bytes, items and messages
elsewhere.

  §1 blanks and ends     — `skipBlanks_append`, `Clear`
  §2 strings             — `Body.stringChars_eq`
  §3 numbers             — `Numeral.Spelled.scan_eq`
  §4 scalars             — `Reads`, `Scalar.scalarFrom_eq`
  §5 series              — `Steps`, `foldPieces_eq`
  §6 values              — `value_reads`, `skip_eq`
-/
import Handoff.Proofs.Json.Grammar

namespace Handoff.Json

/-! ## §1 Blanks and ends -/

theorem skipBlanks_append {b : List Char} (h : Blanks b) (s : List Char) :
    skipBlanks (b ++ s) = skipBlanks s := List.dropWhile_append_of_pos h

theorem skipBlanks_cons {c : Char} (h : isBlank c = false) (s : List Char) :
    skipBlanks (c :: s) = c :: s := by
  rw [skipBlanks, List.dropWhile_cons, h]
  rfl

theorem Starts.skipBlanks_eq {s : List Char} (h : Starts s) (rest : List Char) :
    skipBlanks (s ++ rest) = s ++ rest := by
  obtain ⟨c, t, rfl, hblank, -⟩ := h
  exact skipBlanks_cons hblank _

theorem endOfText_of_blanks {b : List Char} (h : Blanks b) : endOfText b = .ok () := by
  have hskip := skipBlanks_append h []
  rw [List.append_nil] at hskip
  rw [endOfText, hskip]
  rfl

/-- Whether a character can continue a number. -/
def continuesNumber (c : Char) : Bool := c.isDigit || c == '.' || c == 'e' || c == 'E'

/-- A number ends before this. -/
def Clear (rest : List Char) : Prop := ∀ c ∈ rest.head?, continuesNumber c = false

theorem clear_cons {c : Char} (h : continuesNumber c = false) (rest : List Char) :
    Clear (c :: rest) := by
  intro d hd
  rw [List.head?_cons, Option.mem_some_iff] at hd
  rw [← hd, h]

theorem not_continuesNumber_of_isBlank {c : Char} (h : isBlank c = true) :
    continuesNumber c = false := by
  simp only [isBlank, Bool.or_eq_true, beq_iff_eq] at h
  rcases h with ((rfl | rfl) | rfl) | rfl <;> decide

/-- Blanks before something that ends a number end it too. -/
theorem Clear.blanks {b rest : List Char} (h : Clear rest) (blanks : Blanks b) :
    Clear (b ++ rest) := by
  cases b with
  | nil => exact h
  | cons c b => exact clear_cons (not_continuesNumber_of_isBlank (blanks c List.mem_cons_self)) _

theorem Clear.cons {c : Char} {rest : List Char} (h : Clear (c :: rest)) :
    c.isDigit = false ∧ c ≠ '.' ∧ ¬ (c = 'e' ∨ c = 'E') := by
  have hc := h c rfl
  simp only [continuesNumber, Bool.or_eq_false_iff, beq_eq_false_iff_ne] at hc
  obtain ⟨⟨⟨hdigit, hpoint⟩, hlower⟩, hupper⟩ := hc
  exact ⟨hdigit, hpoint, not_or.mpr ⟨hlower, hupper⟩⟩

/-! ## §2 Strings -/

theorem HexNumber.fourHexDigits_eq {digits : List Char} {n : Nat} (h : HexNumber digits n)
    (rest : List Char) : fourHexDigits (digits ++ rest) = .ok (n, rest) := by
  obtain ⟨first, second, third, fourth⟩ := h
  simp only [List.cons_append, List.nil_append, fourHexDigits, first, second, third, fourth]

/-- What follows a backslash is read as it was spelled. -/
theorem Piece.escape_eq {care : Care} {s : List Char} {d : Char} (h : Piece care ('\\' :: s) d)
    (rest : List Char) : escape care (s ++ rest) = .ok (d, rest) := by
  generalize htext : '\\' :: s = text at h
  cases h with
  | plain _ backslash =>
    rw [List.cons.injEq] at htext
    exact absurd htext.1.symm backslash
  | @short _ c _ means =>
    rw [List.cons.injEq] at htext
    obtain ⟨-, rfl⟩ := htext
    have hu : c ≠ 'u' := by
      rintro rfl
      simp [shortEscape] at means
    rw [List.cons_append, escape, if_neg hu, means]
    rfl
  | numbered hex trailing leading =>
    rw [List.cons.injEq] at htext
    obtain ⟨-, rfl⟩ := htext
    rw [List.cons_append, escape, if_pos rfl, Json.numbered, hex.fourHexDigits_eq]
    simp only [trailing, leading, Bool.false_eq_true, if_false]
  | @pair first second m n hex leading hex' trailing =>
    rw [List.cons.injEq] at htext
    obtain ⟨-, rfl⟩ := htext
    have hnot : isTrailing m = false := by
      simp only [isLeading, isTrailing, Bool.and_eq_true, decide_eq_true_eq, Bool.and_eq_false_iff,
        decide_eq_false_iff_not] at leading ⊢
      omega
    have hhalf : trailingHalf m ('\\' :: 'u' :: (second ++ rest)) = .ok (ofPair m n, rest) := by
      simp only [trailingHalf, hex'.fourHexDigits_eq, trailing, ne_eq, not_true_eq_false, if_false,
        if_true]
    rw [List.cons_append, List.append_assoc, escape, if_pos rfl, Json.numbered,
      hex.fourHexDigits_eq]
    simp only [hnot, leading, Bool.false_eq_true, if_false, if_true]
    exact hhalf
  | half hex surrogate =>
    rw [List.cons.injEq] at htext
    obtain ⟨-, rfl⟩ := htext
    rw [List.cons_append, escape, if_pos rfl, Json.numbered, hex.fourHexDigits_eq]
    rcases surrogate with trailing | leading
    · simp only [trailing, if_true]
    · simp only [leading, if_true, ite_self]

theorem stringChars_quote (care : Care) (rest : List Char) :
    stringChars care ('"' :: rest) = .ok ([], rest) := by
  rw [stringChars, if_pos rfl]

theorem stringChars_escape {care : Care} {s t : List Char} {d : Char}
    (h : escape care s = .ok (d, t)) :
    stringChars care ('\\' :: s) = (stringChars care t).map fun read => (d :: read.1, read.2) := by
  rw [stringChars, if_neg (by decide), if_pos rfl]
  split
  · next hescape => simp [h] at hescape
  · next hescape =>
    rw [h, Except.ok.injEq, Prod.mk.injEq] at hescape
    obtain ⟨rfl, rfl⟩ := hescape
    cases stringChars care t <;> rfl

theorem stringChars_plain {care : Care} {c : Char} (quote : c ≠ '"') (backslash : c ≠ '\\')
    (control : ¬ c < ' ') (t : List Char) :
    stringChars care (c :: t) = (stringChars care t).map fun read => (c :: read.1, read.2) := by
  rw [stringChars, if_neg quote, if_neg backslash, if_neg control]
  cases stringChars care t <;> rfl

/-- A piece is a character by itself, or an escape. -/
theorem Piece.stringChars_eq {care : Care} {s : List Char} {c : Char} (h : Piece care s c)
    (t : List Char) :
    stringChars care (s ++ t) = (stringChars care t).map fun read => (c :: read.1, read.2) := by
  have hescape : ∀ s', s = '\\' :: s' →
      stringChars care (s ++ t) = (stringChars care t).map fun read => (c :: read.1, read.2) := by
    rintro s' rfl
    exact stringChars_escape (h.escape_eq t)
  cases h with
  | plain quote backslash control => exact stringChars_plain quote backslash control t
  | short means => exact hescape _ rfl
  | numbered hex trailing leading => exact hescape _ rfl
  | pair hex leading hex' trailing => exact hescape _ rfl
  | half hex surrogate => exact hescape _ rfl

theorem Body.stringChars_eq {care : Care} {s cs : List Char} (h : Body care s cs)
    (rest : List Char) : stringChars care (s ++ rest) = .ok (cs, rest) := by
  induction h with
  | done => exact stringChars_quote care rest
  | next piece _ ih =>
    rw [List.append_assoc, piece.stringChars_eq, ih]
    rfl

theorem Body.string_eq {care : Care} {s cs : List Char} (h : Body care s cs) (rest : List Char) :
    string care (s ++ rest) = .ok (String.ofList cs, rest) := by
  rw [string, h.stringChars_eq]

/-! ## §3 Numbers -/

theorem Digits.digits_eq {ds rest : List Char} (h : Digits ds)
    (ends : ∀ c ∈ rest.head?, c.isDigit = false) : digits (ds ++ rest) = .ok (ds, rest) := by
  have hrest : rest.takeWhile Char.isDigit = [] ∧ rest.dropWhile Char.isDigit = rest := by
    cases rest with
    | nil => exact ⟨rfl, rfl⟩
    | cons c t => simp [ends c rfl]
  have htake : (ds ++ rest).takeWhile Char.isDigit = ds := by
    rw [List.takeWhile_append_of_pos h.isDigit, hrest.1, List.append_nil]
  have hdrop : (ds ++ rest).dropWhile Char.isDigit = rest := by
    rw [List.dropWhile_append_of_pos h.isDigit, hrest.2]
  obtain ⟨c, t, rfl⟩ := List.exists_cons_of_ne_nil h.ne_nil
  rw [List.cons_append] at htake hdrop ⊢
  rw [digits, if_pos h.head, htake, hdrop]

theorem Whole.wholePart_eq {ds rest : List Char} (h : Whole ds)
    (ends : ∀ c ∈ rest.head?, c.isDigit = false) : wholePart (ds ++ rest) = .ok (ds, rest) := by
  cases h with
  | zero =>
    have hstart : startsWithDigit rest = false := by
      cases rest with
      | nil => rfl
      | cons c t => exact ends c rfl
    rw [List.cons_append, wholePart, if_pos rfl, List.nil_append, hstart]
    rfl
  | digits digits nonzero =>
    rw [List.cons_append, wholePart, if_neg nonzero]
    exact digits.digits_eq ends

theorem Fraction.fractionPart_eq {s rest : List Char} {fraction : Option (List Char)}
    (h : Fraction s fraction) (ends : ∀ c ∈ rest.head?, c.isDigit = false ∧ c ≠ '.') :
    fractionPart (s ++ rest) = .ok (fraction, rest) := by
  cases h with
  | none =>
    cases rest with
    | nil => rfl
    | cons c t => rw [List.nil_append, fractionPart, if_neg (ends c rfl).2]
  | some digits =>
    rw [List.cons_append, fractionPart, if_pos rfl,
      digits.digits_eq fun c hc => (ends c hc).1]

theorem ExponentSign.optionalSign_eq {sign ds : List Char} {negative : Bool}
    (h : ExponentSign sign negative) (digits : Digits ds) (rest : List Char) :
    optionalSign (sign ++ (ds ++ rest)) = (negative, ds ++ rest) := by
  cases h with
  | none =>
    obtain ⟨c, t, rfl⟩ := List.exists_cons_of_ne_nil digits.ne_nil
    have hminus : c ≠ '-' := by
      rintro rfl
      exact absurd digits.head (by decide)
    have hplus : c ≠ '+' := by
      rintro rfl
      exact absurd digits.head (by decide)
    rw [List.nil_append, List.cons_append, optionalSign, if_neg hminus, if_neg hplus]
  | plus => rfl
  | minus => rfl

theorem Exponent.exponentPart_eq {s rest : List Char} {exponent : Option (Bool × List Char)}
    (h : Exponent s exponent) (clear : Clear rest) :
    exponentPart (s ++ rest) = .ok (exponent, rest) := by
  cases h with
  | none =>
    cases rest with
    | nil => rfl
    | cons c t => rw [List.nil_append, exponentPart, if_neg clear.cons.2.2]
  | some mark signed digits =>
    have hends : ∀ c ∈ rest.head?, c.isDigit = false := by
      intro c hc
      cases rest with
      | nil => cases hc
      | cons d t =>
        cases hc
        exact clear.cons.1
    rw [List.cons_append, exponentPart, if_pos mark, List.append_assoc,
      signed.optionalSign_eq digits, digits.digits_eq hends]

/-- The first character after the digits before the point, or after those behind it. -/
theorem Exponent.head {s rest : List Char} {exponent : Option (Bool × List Char)}
    (h : Exponent s exponent) (clear : Clear rest) :
    ∀ c ∈ (s ++ rest).head?, c.isDigit = false ∧ c ≠ '.' := by
  intro c hc
  cases h with
  | none =>
    cases rest with
    | nil => cases hc
    | cons d t =>
      cases hc
      exact ⟨clear.cons.1, clear.cons.2.1⟩
  | some mark =>
    cases hc
    rcases mark with rfl | rfl <;> exact ⟨by decide, by decide⟩

theorem Fraction.head {s rest : List Char} {fraction : Option (List Char)}
    (h : Fraction s fraction) (ends : ∀ c ∈ rest.head?, c.isDigit = false) :
    ∀ c ∈ (s ++ rest).head?, c.isDigit = false := by
  cases h with
  | none => exact ends
  | some =>
    intro c hc
    cases hc
    decide

theorem Numeral.Spelled.scan_eq {s rest : List Char} {n : Numeral} (h : n.Spelled s)
    (clear : Clear rest) : Numeral.scan (s ++ rest) = .ok (n, rest) := by
  cases h with
  | @mk negative whole point mark fraction exponent wholePart fractionPart exponentPart =>
    have hexponent := exponentPart.exponentPart_eq clear
    have hends := exponentPart.head clear
    have hfraction := fractionPart.fractionPart_eq hends
    have hdigit : ∀ c ∈ (mark ++ rest).head?, c.isDigit = false := fun c hc => (hends c hc).1
    have hwhole := wholePart.wholePart_eq (fractionPart.head hdigit)
    have hminus : optionalMinus (((if negative then ['-'] else []) ++ (whole ++ (point ++ mark))) ++
        rest) = (negative, whole ++ (point ++ (mark ++ rest))) := by
      simp only [List.append_assoc]
      cases negative with
      | true => rfl
      | false =>
        obtain ⟨c, t, rfl, hdigit⟩ := wholePart.head
        have hc : c ≠ '-' := by
          rintro rfl
          exact absurd hdigit (by decide)
        show optionalMinus (c :: (t ++ _)) = _
        rw [optionalMinus, if_neg hc]
        rfl
    rw [scan, hminus]
    simp only [hwhole, hfraction, hexponent]

/-! ## §4 Scalars -/

/-- The reader returns what is made of each spelled value, and leaves what follows. -/
def Reads {α β : Type} (read : Reader α) (limit : Nat) (E : List Char → β → Prop)
    (make : β → Except Fault α) : Prop :=
  ∀ b s v rest, Blanks b → E s v → s.length ≤ limit → Clear rest →
    read (b ++ (s ++ rest)) = (make v).map (·, rest)

theorem Scalar.scalarFrom_eq {care : Care} {s rest : List Char} {v : Value}
    (h : Scalar care s v) (clear : Clear rest) : scalarFrom care (s ++ rest) = .ok (v, rest) := by
  cases h with
  | null => rfl
  | yes => rfl
  | no => rfl
  | string body =>
    rw [List.cons_append, scalarFrom, if_pos rfl, body.string_eq]
  | @number _ n spelled finite =>
    have hread : Numeral.read care (s ++ rest) = .ok (n, rest) := by
      unfold Numeral.read
      rw [spelled.scan_eq clear]
      cases care with
      | keep => exact if_pos (finite rfl)
      | drop => rfl
    obtain ⟨c, t, rfl, hhead⟩ := spelled.head
    have hquote : c ≠ '"' := by
      rintro rfl
      rcases hhead with h | h <;> exact absurd h (by decide)
    rw [List.cons_append] at hread ⊢
    rw [scalarFrom, if_neg hquote, if_pos hhead, hread]

/-! ## §5 Series -/

section Series

variable {β σ : Type} {close : Char} {E : List Char → β → Prop}

/-- After an item of a series a number has ended. -/
theorem Continued.clear {s : List Char} {vs : List β} (h : Continued close E s vs)
    (ends : continuesNumber close = false) (rest : List Char) : Clear (s ++ rest) := by
  cases h with
  | close blanks =>
    rw [List.append_assoc]
    exact (clear_cons ends _).blanks blanks
  | next blanks =>
    rw [List.append_assoc]
    exact (clear_cons (by decide) _).blanks blanks

/-- How a fold goes over the items of a series: it ends at the closing character, and finds each
item, after its comma if it is not the first, whose reader takes one step. Items of up to `limit`
characters are meant. -/
structure Steps (next : Bool → List Char → Except Fault Next) (piece : σ → Reader σ) (close : Char)
    (E : List Char → β → Prop) (limit : Nat) (step : σ → β → Except Fault σ) : Prop where
  ends : continuesNumber close = false
  closes : ∀ first b rest, Blanks b → next first (b ++ close :: rest) = .ok (.close rest)
  finds : ∀ b s v rest, Blanks b → E s v → s.length ≤ limit → Clear rest → s ≠ [] ∧
    ∃ t, next true (b ++ (s ++ rest)) = .ok (.more t) ∧
      (∀ b', Blanks b' → next false (b' ++ ',' :: (b ++ (s ++ rest))) = .ok (.more t)) ∧
      ∀ state, piece state t = (step state v).map (·, rest)

variable {next : Bool → List Char → Except Fault Next} {piece : σ → Reader σ} {limit : Nat}
  {step : σ → β → Except Fault σ}

/-- A fold that has found an item takes its step and goes on. -/
theorem foldPieces_more {first : Bool} {state : σ} {s t rest : List Char} {v : β} {fuel : Nat}
    (more : next first s = .ok (.more t)) (reads : piece state t = (step state v).map (·, rest)) :
    foldPieces next piece (fuel + 1) first state s =
      step state v >>= fun later => foldPieces next piece fuel false later rest := by
  rw [foldPieces, more]
  simp only [reads]
  cases step state v <;> rfl

theorem foldPieces_close {first : Bool} {state : σ} {s rest : List Char} {fuel : Nat}
    (closed : next first s = .ok (.close rest)) :
    foldPieces next piece (fuel + 1) first state s = .ok (state, rest) := by
  rw [foldPieces, closed]

theorem Continued.foldPieces_eq (steps : Steps next piece close E limit step) {s : List Char}
    {vs : List β} (h : Continued close E s vs) (fuel : Nat) (enough : s.length ≤ fuel)
    (small : s.length ≤ limit) (state : σ) (rest : List Char) :
    foldPieces next piece fuel false state (s ++ rest) =
      (vs.foldlM step state).map (·, rest) := by
  induction h generalizing fuel state with
  | @close b blanks =>
    obtain ⟨fuel, rfl⟩ : ∃ n, fuel = n + 1 :=
      Nat.exists_eq_succ_of_ne_zero (by
        rintro rfl
        simp at enough)
    rw [List.append_assoc]
    exact foldPieces_close (steps.closes false b rest blanks)
  | @next b b' s t v vs blanks blanks' item others ih =>
    simp only [List.length_append, List.length_cons] at enough small
    obtain ⟨fuel, rfl⟩ : ∃ n, fuel = n + 1 := Nat.exists_eq_succ_of_ne_zero (by omega)
    obtain ⟨-, u, -, hnext, hreads⟩ := steps.finds b' s v (t ++ rest) blanks' item (by omega)
      (others.clear steps.ends rest)
    have htext : (b ++ ',' :: (b' ++ (s ++ t))) ++ rest =
        b ++ ',' :: (b' ++ (s ++ (t ++ rest))) := by
      simp
    rw [htext, foldPieces_more (hnext b blanks) (hreads state), List.foldlM_cons]
    cases step state v with
    | error f => rfl
    | ok later => exact ih fuel (by omega) (by omega) later

/-- **A fold over a series takes one step for each item, in their order**, and stops at the first
that fails. -/
theorem Series.foldPieces_eq (steps : Steps next piece close E limit step) {s : List Char}
    {vs : List β} (h : Series close E s vs) (small : s.length ≤ limit) (state : σ)
    (rest : List Char) :
    foldPieces next piece limit true state (s ++ rest) = (vs.foldlM step state).map (·, rest) := by
  cases h with
  | @empty b blanks =>
    obtain ⟨fuel, rfl⟩ : ∃ n, limit = n + 1 :=
      Nat.exists_eq_succ_of_ne_zero (by
        rintro rfl
        simp at small)
    rw [List.append_assoc]
    exact foldPieces_close (steps.closes true b rest blanks)
  | @items b s t v vs blanks item others =>
    simp only [List.length_append] at small
    obtain ⟨hne, u, hfirst, -, hreads⟩ := steps.finds b s v (t ++ rest) blanks item (by omega)
      (others.clear steps.ends rest)
    have hpos := List.length_pos_iff.mpr hne
    obtain ⟨fuel, rfl⟩ : ∃ n, limit = n + 1 := Nat.exists_eq_succ_of_ne_zero (by omega)
    have htext : (b ++ (s ++ t)) ++ rest = b ++ (s ++ (t ++ rest)) := by simp
    rw [htext, foldPieces_more hfirst (hreads state), List.foldlM_cons]
    cases step state v with
    | error f => rfl
    | ok later => exact others.foldPieces_eq steps fuel (by omega) (by omega) later rest

theorem arrayNext_close (first : Bool) {b : List Char} (blanks : Blanks b) (rest : List Char) :
    arrayNext first (b ++ ']' :: rest) = .ok (.close rest) := by
  rw [arrayNext, skipBlanks_append blanks, skipBlanks_cons (by decide)]
  rfl

theorem arrayNext_first {b s : List Char} (blanks : Blanks b) (h : Starts s) (rest : List Char) :
    arrayNext true (b ++ (s ++ rest)) = .ok (.more (s ++ rest)) := by
  rw [arrayNext, skipBlanks_append blanks, h.skipBlanks_eq]
  obtain ⟨c, t, rfl, -, hc⟩ := h
  rw [List.cons_append]
  simp only [hc, if_false, if_true]

theorem arrayNext_next {b b' s : List Char} (blanks : Blanks b) (blanks' : Blanks b')
    (h : Starts s) (rest : List Char) :
    arrayNext false (b' ++ ',' :: (b ++ (s ++ rest))) = .ok (.more (s ++ rest)) := by
  rw [arrayNext, skipBlanks_append blanks', skipBlanks_cons (by decide)]
  simp only [skipBlanks_append blanks, h.skipBlanks_eq]
  obtain ⟨c, t, rfl, -, hc⟩ := h
  simp [hc]

/-- The elements of an array, each read by a reader that is complete for them. -/
theorem arraySteps {element : σ → Reader σ} (starts : ∀ s v, E s v → Starts s)
    (reads : ∀ state, Reads (element state) limit E (step state)) :
    Steps arrayNext element ']' E limit step where
  ends := by decide
  closes first _ rest blanks := arrayNext_close first blanks rest
  finds b s v rest blanks item small clear := by
    have hstarts := starts s v item
    refine ⟨?_, s ++ rest, arrayNext_first blanks hstarts rest,
      fun b' blanks' => arrayNext_next blanks blanks' hstarts rest,
      fun state => reads state [] s v rest .nil item small clear⟩
    obtain ⟨c, t, rfl, -⟩ := hstarts
    exact List.cons_ne_nil c t

end Series

theorem objectNext_close (first : Bool) {b : List Char} (blanks : Blanks b) (rest : List Char) :
    objectNext first (b ++ '}' :: rest) = .ok (.close rest) := by
  rw [objectNext, skipBlanks_append blanks, skipBlanks_cons (by decide)]
  rfl

theorem objectNext_first {b : List Char} (blanks : Blanks b) (rest : List Char) :
    objectNext true (b ++ '"' :: rest) = .ok (.more rest) := by
  rw [objectNext, skipBlanks_append blanks, skipBlanks_cons (by decide)]
  rfl

theorem objectNext_next {b b' : List Char} (blanks : Blanks b) (blanks' : Blanks b')
    (rest : List Char) : objectNext false (b' ++ ',' :: (b ++ '"' :: rest)) = .ok (.more rest) := by
  rw [objectNext, skipBlanks_append blanks', skipBlanks_cons (by decide)]
  simp only [skipBlanks_append blanks, skipBlanks_cons (show isBlank '"' = false by decide)]
  rfl

theorem Member.quoted {care : Care} {E : List Char → Value → Prop} {s : List Char}
    {m : String × Value} (h : Member care E s m) : ∃ t, s = '"' :: t := by
  cases h
  exact ⟨_, rfl⟩

/-- The members of an object, each read from after its opening quote. -/
theorem objectSteps {β σ : Type} {E : List Char → β → Prop} {limit : Nat}
    {member : σ → Reader σ} {step : σ → β → Except Fault σ}
    (quoted : ∀ s m, E s m → ∃ t, s = '"' :: t)
    (reads : ∀ state s m rest, E ('"' :: s) m → s.length < limit → Clear rest →
      member state (s ++ rest) = (step state m).map (·, rest)) :
    Steps objectNext member '}' E limit step where
  ends := by decide
  closes first _ rest blanks := objectNext_close first blanks rest
  finds b s m rest blanks item small clear := by
    obtain ⟨t, rfl⟩ := quoted s m item
    exact ⟨List.cons_ne_nil _ _, t ++ rest, objectNext_first blanks (t ++ rest),
      fun b' blanks' => objectNext_next blanks blanks' (t ++ rest),
      fun state => reads state t m rest item small clear⟩

/-! ## §6 Values -/

theorem colon_eq {b : List Char} (blanks : Blanks b) (rest : List Char) :
    colon (b ++ ':' :: rest) = .ok rest := by
  rw [colon, skipBlanks_append blanks, skipBlanks_cons (by decide)]
  rfl

/-- Collecting is a fold that keeps all. -/
theorem foldlM_collect {β : Type} (vs read : List β) :
    vs.foldlM (fun read v => (.ok (v :: read) : Except Fault (List β))) read =
      .ok (vs.reverse ++ read) := by
  induction vs generalizing read with
  | nil => rfl
  | cons v vs ih =>
    rw [List.foldlM_cons]
    exact (ih (v :: read)).trans (by simp)

/-- **Every value that a text spells is read**, and what follows it is left. -/
theorem value_reads (care : Care) (limit depth : Nat) :
    Reads (value care limit depth) limit (Spells care depth) .ok := by
  have hscalar : ∀ depth b s v rest, Blanks b → Scalar care s v → Clear rest →
      value care limit depth (b ++ (s ++ rest)) = .ok (v, rest) := by
    intro depth b s v rest blanks h clear
    have hread := h.scalarFrom_eq clear
    unfold value
    rw [skipBlanks_append blanks, h.starts.skipBlanks_eq]
    obtain ⟨c, t, rfl, -, hmem⟩ := h.head
    have hbracket : c ≠ '[' ∧ c ≠ '{' := by
      constructor <;> rintro rfl <;> exact hmem (by simp)
    rw [List.cons_append] at hread ⊢
    simp only [hbracket.1, hbracket.2, if_false, hread]
  induction depth with
  | zero => exact fun b s v rest blanks h _ clear => hscalar 0 b s v rest blanks h clear
  | succ depth ih =>
    intro b s v rest blanks h small clear
    cases h with
    | scalar spells => exact hscalar _ b s v rest blanks spells clear
    | @array s vs elements =>
      have hsteps : Steps arrayNext (collectElement fun t => value care limit depth t) ']'
          (Spells care depth) limit fun read v => .ok (v :: read) :=
        arraySteps (fun _ _ h => h.starts) fun read b s v rest blanks h small clear => by
          rw [collectElement, ih b s v rest blanks h small clear]
          rfl
      have hfold := elements.foldPieces_eq hsteps (by simp at small; omega) [] rest
      rw [foldlM_collect] at hfold
      unfold value
      rw [skipBlanks_append blanks, List.cons_append, skipBlanks_cons (by decide)]
      simp only [if_true, foldElements, hfold]
      simp [Except.map]
    | @object s ms members =>
      have hsteps : Steps objectNext (collectMember care fun t => value care limit depth t) '}'
          (Member care (Spells care depth)) limit fun read m => .ok (m :: read) :=
        objectSteps (fun _ _ h => h.quoted) fun read s m rest h small clear => by
          cases h with
          | mk name blanks blanks' spells =>
            simp only [List.length_append, List.length_cons] at small
            have hvalue := ih _ _ _ rest blanks' spells (by omega) clear
            simp only [List.append_assoc, List.cons_append]
            rw [collectMember, name.string_eq]
            simp only [colon_eq blanks, hvalue]
            rfl
      have hfold := members.foldPieces_eq hsteps (by simp at small; omega) [] rest
      rw [foldlM_collect] at hfold
      unfold value
      rw [skipBlanks_append blanks, List.cons_append, skipBlanks_cons (by decide)]
      simp only [if_true, foldMembers, hfold]
      simp [Except.map]

/-- A value that is dropped is read to its end, however deep it is. -/
theorem Spells.skip_eq {care : Care} {depth : Nat} {b s rest : List Char} {v : Value}
    (h : Spells care depth s v) (limit : Nat) (blanks : Blanks b) (small : s.length ≤ limit)
    (clear : Clear rest) : skip limit (b ++ (s ++ rest)) = .ok rest := by
  obtain ⟨v', hv'⟩ := h.dropped small
  rw [skip, value_reads .drop limit limit b s v' rest blanks hv' small clear]
  rfl

end Handoff.Json
