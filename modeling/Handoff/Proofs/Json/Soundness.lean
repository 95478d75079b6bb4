/-
Handoff.Proofs.Json.Soundness — whatever is read was spelled.

The other half of completeness: when a reader returns a value, the characters that it took spell that
value, and those that it left follow them. No condition on what follows is needed here, since a
reader that went on too far or stopped too early would not have returned this value.

Each reader is opened once, along its own branches; those that fail fall away. The fold over the
pieces of an array or object is done once for any reader of pieces (`Yields.series`), like its
counterpart; a reader used in it has to return nothing but what is made of some item (`ReadsOnly`).

  §1 blanks and words    — `skipBlanks_sound`, `literal_sound`
  §2 strings             — `escape_sound`, `stringChars_sound`
  §3 numbers             — `Numeral.scan_sound`
  §4 scalars             — `ReadsOnly`, `scalarFrom_sound`
  §5 series              — `Yields`, `Yields.series`, `arrayYields`, `objectYields`
  §6 values              — `value_sound`, `skip_sound`
-/
import Handoff.Proofs.Json.Completeness

namespace Handoff.Json

/-! ## §1 Blanks and words -/

/-- What is skipped is blank. -/
theorem skipBlanks_sound (s : List Char) : ∃ b, Blanks b ∧ s = b ++ skipBlanks s :=
  ⟨s.takeWhile isBlank, List.all_eq_true.mp List.all_takeWhile, List.takeWhile_append_dropWhile.symm⟩

theorem skipBlanks_eq_cons {s rest : List Char} {c : Char} (h : skipBlanks s = c :: rest) :
    ∃ b, Blanks b ∧ s = b ++ c :: rest := by
  obtain ⟨b, blanks, hs⟩ := skipBlanks_sound s
  exact ⟨b, blanks, by rw [← h, ← hs]⟩

theorem Blanks.append {b b' : List Char} (h : Blanks b) (h' : Blanks b') : Blanks (b ++ b') := by
  intro c hc
  rcases List.mem_append.mp hc with hc | hc
  · exact h c hc
  · exact h' c hc

theorem literal_sound {letters s rest : List Char} (h : literal letters s = .ok rest) :
    s = letters ++ rest := by
  induction letters generalizing s with
  | nil =>
    cases h
    rfl
  | cons w letters ih =>
    cases s with
    | nil => cases h
    | cons c s =>
      unfold literal at h
      split at h
      · next heq => rw [heq, ih h, List.cons_append]
      · cases h

theorem colon_sound {s rest : List Char} (h : colon s = .ok rest) :
    ∃ b, Blanks b ∧ s = b ++ ':' :: rest := by
  unfold colon at h
  split at h
  · cases h
  · next c after hskip =>
    split at h
    · next heq =>
      cases h
      rw [heq] at hskip
      exact skipBlanks_eq_cons hskip
    · cases h

theorem endOfText_sound {s : List Char} (h : endOfText s = .ok ()) : Blanks s := by
  unfold endOfText at h
  split at h
  · next hempty =>
    obtain ⟨b, blanks, hs⟩ := skipBlanks_sound s
    rw [List.isEmpty_iff.mp hempty, List.append_nil] at hs
    exact hs ▸ blanks
  · cases h

/-! ## §2 Strings -/

theorem fourHexDigits_sound {s rest : List Char} {n : Nat} (h : fourHexDigits s = .ok (n, rest)) :
    ∃ ds, HexNumber ds n ∧ s = ds ++ rest := by
  unfold fourHexDigits at h
  split at h
  · next a b c d after =>
    split at h
    · next i j k l first second third fourth =>
      cases h
      exact ⟨[a, b, c, d], .mk first second third fourth, rfl⟩
    · cases h
  · cases h

theorem trailingHalf_sound {leading : Nat} {s rest : List Char} {c : Char}
    (h : trailingHalf leading s = .ok (c, rest)) :
    ∃ ds n, HexNumber ds n ∧ isTrailing n = true ∧ c = ofPair leading n ∧
      s = '\\' :: 'u' :: (ds ++ rest) := by
  unfold trailingHalf at h
  split at h
  · cases h
  · next slash after =>
    split at h
    · cases h
    · next hslash =>
      split at h
      · cases h
      · next letter after =>
        split at h
        · cases h
        · next hletter =>
          split at h
          · cases h
          · next n after hdigits =>
            split at h
            · next htrailing =>
              simp only [Except.ok.injEq, Prod.mk.injEq] at h
              obtain ⟨hpair, rfl⟩ := h
              obtain ⟨ds, hex, hs⟩ := fourHexDigits_sound hdigits
              refine ⟨ds, n, hex, htrailing, hpair.symm, ?_⟩
              rw [hs, Decidable.not_not.mp hslash, Decidable.not_not.mp hletter]
            · cases h

theorem numbered_sound {care : Care} {s rest : List Char} {c : Char}
    (h : numbered care s = .ok (c, rest)) :
    ∃ t, Piece care ('\\' :: 'u' :: t) c ∧ s = t ++ rest := by
  unfold numbered at h
  split at h
  · cases h
  · next n after hdigits =>
    obtain ⟨ds, hex, hs⟩ := fourHexDigits_sound hdigits
    split at h
    · next htrailing =>
      cases care with
      | keep => cases h
      | drop =>
        cases h
        exact ⟨ds, .half hex (.inl htrailing), hs⟩
    · next htrailing =>
      rw [Bool.not_eq_true] at htrailing
      split at h
      · next hleading =>
        cases care with
        | keep =>
          obtain ⟨second, m, hex', htrailing', hpair, hafter⟩ := trailingHalf_sound h
          refine ⟨ds ++ '\\' :: 'u' :: second, ?_, ?_⟩
          · rw [hpair]
            exact .pair hex hleading hex' htrailing'
          · rw [hs, hafter]
            simp
        | drop =>
          cases h
          exact ⟨ds, .half hex (.inr hleading), hs⟩
      · next hleading =>
        cases h
        exact ⟨ds, .numbered hex htrailing (Bool.not_eq_true _ ▸ hleading), hs⟩

/-- What follows a backslash makes one character with it. -/
theorem escape_sound {care : Care} {s rest : List Char} {c : Char}
    (h : escape care s = .ok (c, rest)) : ∃ t, Piece care ('\\' :: t) c ∧ s = t ++ rest := by
  unfold escape at h
  split at h
  · cases h
  · next letter after =>
    split at h
    · next heq =>
      obtain ⟨t, piece, hs⟩ := numbered_sound h
      exact ⟨'u' :: t, piece, by rw [heq, hs, List.cons_append]⟩
    · split at h
      · next means =>
        cases h
        exact ⟨[letter], .short means, rfl⟩
      · cases h

/-- The characters of a string were spelled, up to and with the closing quote. -/
theorem stringChars_sound {care : Care} {s rest cs : List Char}
    (h : stringChars care s = .ok (cs, rest)) : ∃ t, Body care t cs ∧ s = t ++ rest := by
  induction s using stringChars.induct care generalizing cs with
  | case1 =>
    rw [stringChars] at h
    cases h
  | case2 after =>
    rw [stringChars_quote] at h
    cases h
    exact ⟨['"'], .done, rfl⟩
  | case3 after f hescape =>
    rw [stringChars, if_neg (by decide), if_pos rfl] at h
    split at h
    · cases h
    · next hok => cases hescape.symm.trans hok
  | case4 after d u hescape f herror _ ih =>
    rw [stringChars_escape hescape, herror] at h
    cases h
  | case5 after d u hescape ds v hothers _ ih =>
    rw [stringChars_escape hescape, hothers] at h
    simp only [Except.map, Except.ok.injEq, Prod.mk.injEq] at h
    obtain ⟨rfl, rfl⟩ := h
    obtain ⟨t, piece, rfl⟩ := escape_sound hescape
    obtain ⟨t', others, rfl⟩ := ih hothers
    exact ⟨_, .next piece others, by simp⟩
  | case6 c after quote backslash control =>
    rw [stringChars, if_neg quote, if_neg backslash, if_pos control] at h
    cases h
  | case7 c after quote backslash control f herror ih =>
    rw [stringChars_plain quote backslash control, herror] at h
    cases h
  | case8 c after quote backslash control ds v hothers ih =>
    rw [stringChars_plain quote backslash control, hothers] at h
    simp only [Except.map, Except.ok.injEq, Prod.mk.injEq] at h
    obtain ⟨rfl, rfl⟩ := h
    obtain ⟨t, others, rfl⟩ := ih hothers
    exact ⟨[c] ++ t, .next (.plain quote backslash control) others, rfl⟩

theorem string_sound {care : Care} {s rest : List Char} {name : String}
    (h : string care s = .ok (name, rest)) :
    ∃ t cs, Body care t cs ∧ name = String.ofList cs ∧ s = t ++ rest := by
  unfold string at h
  split at h
  · cases h
  · next cs after hchars =>
    cases h
    obtain ⟨t, body, hs⟩ := stringChars_sound hchars
    exact ⟨t, cs, body, rfl, hs⟩

/-! ## §3 Numbers -/

theorem digits_sound {s ds rest : List Char} (h : digits s = .ok (ds, rest)) :
    Digits ds ∧ s = ds ++ rest := by
  unfold digits at h
  split at h
  · cases h
  · next c after =>
    split at h
    · next hdigit =>
      cases h
      refine ⟨⟨?_, List.all_eq_true.mp List.all_takeWhile⟩, List.takeWhile_append_dropWhile.symm⟩
      rw [List.takeWhile_cons, hdigit]
      exact List.cons_ne_nil _ _
    · cases h

theorem wholePart_sound {s ds rest : List Char} (h : wholePart s = .ok (ds, rest)) :
    Whole ds ∧ s = ds ++ rest := by
  unfold wholePart at h
  split at h
  · cases h
  · next c after =>
    split at h
    · next hzero =>
      split at h
      · cases h
      · cases h
        exact ⟨.zero, by rw [hzero]; rfl⟩
    · next hzero =>
      obtain ⟨hdigits, hs⟩ := digits_sound h
      obtain ⟨d, t, rfl⟩ := List.exists_cons_of_ne_nil hdigits.ne_nil
      rw [List.cons_append, List.cons.injEq] at hs
      exact ⟨.digits hdigits (hs.1 ▸ hzero), by rw [hs.1, hs.2, List.cons_append]⟩

theorem fractionPart_sound {s rest : List Char} {fraction : Option (List Char)}
    (h : fractionPart s = .ok (fraction, rest)) :
    ∃ t, Fraction t fraction ∧ s = t ++ rest := by
  unfold fractionPart at h
  split at h
  · cases h
    exact ⟨[], .none, rfl⟩
  · next c after =>
    split at h
    · next hpoint =>
      split at h
      · cases h
      · next ds u hread =>
        cases h
        obtain ⟨hdigits, hs⟩ := digits_sound hread
        exact ⟨'.' :: ds, .some hdigits, by rw [hpoint, hs, List.cons_append]⟩
    · cases h
      exact ⟨[], .none, rfl⟩

theorem optionalSign_sound (s : List Char) :
    ∃ sign, ExponentSign sign (optionalSign s).1 ∧ s = sign ++ (optionalSign s).2 := by
  cases s with
  | nil => exact ⟨[], .none, rfl⟩
  | cons c rest =>
    rw [optionalSign]
    split
    · next hminus => exact ⟨['-'], .minus, by rw [hminus]; rfl⟩
    · split
      · next hplus => exact ⟨['+'], .plus, by rw [hplus]; rfl⟩
      · exact ⟨[], .none, rfl⟩

theorem exponentPart_sound {s rest : List Char} {exponent : Option (Bool × List Char)}
    (h : exponentPart s = .ok (exponent, rest)) :
    ∃ t, Exponent t exponent ∧ s = t ++ rest := by
  unfold exponentPart at h
  split at h
  · cases h
    exact ⟨[], .none, rfl⟩
  · next c after =>
    split at h
    · next hmark =>
      split at h
      · cases h
      · next ds u hread =>
        cases h
        obtain ⟨sign, signed, hsign⟩ := optionalSign_sound after
        obtain ⟨hdigits, hs⟩ := digits_sound hread
        refine ⟨c :: (sign ++ ds), .some hmark signed hdigits, ?_⟩
        rw [List.cons_append, List.append_assoc, ← hs, ← hsign]
    · cases h
      exact ⟨[], .none, rfl⟩

theorem Numeral.optionalMinus_sound (s : List Char) :
    s = (if (optionalMinus s).1 then ['-'] else []) ++ (optionalMinus s).2 := by
  cases s with
  | nil => rfl
  | cons c rest =>
    rw [optionalMinus]
    split
    · next hminus =>
      rw [hminus]
      rfl
    · rfl

/-- The parts of a number were spelled, one behind the other. -/
theorem Numeral.scan_sound {s rest : List Char} {n : Numeral} (h : scan s = .ok (n, rest)) :
    ∃ t, n.Spelled t ∧ s = t ++ rest := by
  unfold scan at h
  split at h
  · cases h
  · next whole u hwhole =>
    split at h
    · cases h
    · next fraction v hfraction =>
      split at h
      · cases h
      · next exponent w hexponent =>
        cases h
        obtain ⟨digits, hs⟩ := wholePart_sound hwhole
        obtain ⟨point, hpoint, rfl⟩ := fractionPart_sound hfraction
        obtain ⟨mark, hmark, rfl⟩ := exponentPart_sound hexponent
        refine ⟨_, .mk digits hpoint hmark, ?_⟩
        rw [List.append_assoc, List.append_assoc, List.append_assoc, ← hs]
        exact optionalMinus_sound s

/-! ## §4 Scalars -/

/-- The reader returns a value only for characters that spell one from which it is made. -/
def ReadsOnly {α β : Type} (read : Reader α) (E : List Char → β → Prop)
    (make : β → Except Fault α) : Prop :=
  ∀ s a rest, read s = .ok (a, rest) →
    ∃ b w v, Blanks b ∧ E w v ∧ make v = .ok a ∧ s = b ++ (w ++ rest)

theorem Numeral.read_sound {care : Care} {s rest : List Char} {n : Numeral}
    (h : read care s = .ok (n, rest)) :
    ∃ t, n.Spelled t ∧ (care = .keep → n.isFinite = true) ∧ s = t ++ rest := by
  unfold read at h
  split at h
  · cases h
  · next m after hscan =>
    split at h
    · next hfinite =>
      cases h
      obtain ⟨t, spelled, hs⟩ := scan_sound hscan
      exact ⟨t, spelled, fun _ => hfinite, hs⟩
    · cases h
  · cases h
  · next m after hscan =>
    cases h
    obtain ⟨t, spelled, hs⟩ := scan_sound hscan
    exact ⟨t, spelled, (by cases ·), hs⟩

/-- The three words of JSON. -/
theorem wordAt_sound {care : Care} {c : Char} {letters : List Char} {v : Value}
    (h : wordAt c = some (letters, v)) : Scalar care (c :: letters) v := by
  unfold wordAt at h
  split at h
  · next hc =>
    cases h
    exact hc ▸ .null
  · split at h
    · next hc =>
      cases h
      exact hc ▸ .yes
    · split at h
      · next hc =>
        cases h
        exact hc ▸ .no
      · cases h

theorem scalarFrom_sound {care : Care} {s rest : List Char} {v : Value}
    (h : scalarFrom care s = .ok (v, rest)) : ∃ t, Scalar care t v ∧ s = t ++ rest := by
  unfold scalarFrom at h
  split at h
  · cases h
  · next c after =>
    split at h
    · next hquote =>
      split at h
      · cases h
      · next name u hstring =>
        cases h
        obtain ⟨t, cs, body, rfl, hs⟩ := string_sound hstring
        exact ⟨'"' :: t, .string body, by rw [hquote, hs, List.cons_append]⟩
    · split at h
      · split at h
        · cases h
        · next n u hread =>
          cases h
          obtain ⟨t, spelled, finite, hs⟩ := Numeral.read_sound hread
          exact ⟨t, .number spelled finite, hs⟩
      · split at h
        · cases h
        · split at h
          · cases h
          · next letters w hword =>
            split at h
            · cases h
            · next u hliteral =>
              cases h
              exact ⟨c :: letters, wordAt_sound hword, by
                rw [literal_sound hliteral, List.cons_append]⟩

/-! ## §5 Series -/

section Series

variable {β σ : Type} {close : Char} {E : List Char → β → Prop}

/-- What a fold over the pieces of a text found: it ended only at the closing character, and each
piece that was read is an item, after its comma if it is not the first, for which one step was
taken. -/
structure Yields (next : Bool → List Char → Except Fault Next) (piece : σ → Reader σ) (close : Char)
    (E : List Char → β → Prop) (step : σ → β → Except Fault σ) : Prop where
  closes : ∀ {first s rest}, next first s = .ok (.close rest) →
    ∃ b, Blanks b ∧ s = b ++ close :: rest
  first : ∀ {state later s t rest}, next true s = .ok (.more t) → piece state t = .ok (later, rest) →
    ∃ b w v, Blanks b ∧ E w v ∧ step state v = .ok later ∧ s = b ++ (w ++ rest)
  next : ∀ {state later s t rest}, next false s = .ok (.more t) → piece state t = .ok (later, rest) →
    ∃ b b' w v, Blanks b ∧ Blanks b' ∧ E w v ∧ step state v = .ok later ∧
      s = b ++ ',' :: (b' ++ (w ++ rest))

variable {next : Bool → List Char → Except Fault Next} {piece : σ → Reader σ}
  {step : σ → β → Except Fault σ}

theorem Yields.continued (yields : Yields next piece close E step) {limit : Nat} {state last : σ}
    {s rest : List Char} (h : foldPieces next piece limit false state s = .ok (last, rest)) :
    ∃ t vs, Continued close E t vs ∧ vs.foldlM step state = .ok last ∧ s = t ++ rest := by
  induction limit generalizing state s with
  | zero => cases h
  | succ limit ih =>
    unfold foldPieces at h
    split at h
    · cases h
    · next hclose =>
      cases h
      obtain ⟨b, blanks, rfl⟩ := yields.closes hclose
      exact ⟨_, [], .close blanks, rfl, by simp⟩
    · next hmore =>
      split at h
      · cases h
      · next later u hpiece =>
        obtain ⟨b, b', w, v, blanks, blanks', item, hstep, rfl⟩ := yields.next hmore hpiece
        obtain ⟨t, vs, others, hfold, rfl⟩ := ih h
        refine ⟨_, v :: vs, .next blanks blanks' item others, ?_, by simp⟩
        rw [List.foldlM_cons, hstep]
        exact hfold

/-- **What a fold went over is a series**, and the fold took one step for each of its items. -/
theorem Yields.series (yields : Yields next piece close E step) {limit : Nat} {state last : σ}
    {s rest : List Char} (h : foldPieces next piece limit true state s = .ok (last, rest)) :
    ∃ t vs, Series close E t vs ∧ vs.foldlM step state = .ok last ∧ s = t ++ rest := by
  cases limit with
  | zero => cases h
  | succ limit =>
    unfold foldPieces at h
    split at h
    · cases h
    · next hclose =>
      cases h
      obtain ⟨b, blanks, rfl⟩ := yields.closes hclose
      exact ⟨_, [], .empty blanks, rfl, by simp⟩
    · next hmore =>
      split at h
      · cases h
      · next later u hpiece =>
        obtain ⟨b, w, v, blanks, item, hstep, rfl⟩ := yields.first hmore hpiece
        obtain ⟨t, vs, others, hfold, rfl⟩ := yields.continued h
        refine ⟨_, v :: vs, .items blanks item others, ?_, by simp⟩
        rw [List.foldlM_cons, hstep]
        exact hfold

end Series

/-! ### Arrays -/

theorem arrayNext_close_sound {first : Bool} {s rest : List Char}
    (h : arrayNext first s = .ok (.close rest)) : ∃ b, Blanks b ∧ s = b ++ ']' :: rest := by
  unfold arrayNext at h
  split at h
  · cases h
  · next c after hskip =>
    split at h
    · next hclose =>
      cases h
      exact skipBlanks_eq_cons (hclose ▸ hskip)
    · split at h
      · cases h
      · split at h
        · split at h
          · cases h
          · split at h <;> cases h
        · cases h

theorem arrayNext_first_sound {s t : List Char} (h : arrayNext true s = .ok (.more t)) :
    ∃ b, Blanks b ∧ s = b ++ t := by
  unfold arrayNext at h
  split at h
  · cases h
  · next c after hskip =>
    split at h
    · cases h
    · rw [if_pos rfl] at h
      cases h
      exact skipBlanks_eq_cons hskip

theorem arrayNext_next_sound {s t : List Char} (h : arrayNext false s = .ok (.more t)) :
    ∃ b b', Blanks b ∧ Blanks b' ∧ s = b ++ ',' :: (b' ++ t) := by
  unfold arrayNext at h
  split at h
  · cases h
  · next c after hskip =>
    split at h
    · cases h
    · rw [if_neg Bool.false_ne_true] at h
      split at h
      · next hcomma =>
        split at h
        · cases h
        · next d u hskip' =>
          split at h
          · cases h
          · cases h
            obtain ⟨b, blanks, hs⟩ := skipBlanks_eq_cons (hcomma ▸ hskip)
            obtain ⟨b', blanks', hafter⟩ := skipBlanks_eq_cons hskip'
            exact ⟨b, b', blanks, blanks', by rw [hs, hafter]⟩
      · cases h

section Elements

variable {α β : Type} {E : List Char → β → Prop}

/-- An element that opens an array, after blanks. -/
theorem ReadsOnly.first {read : Reader α} {make : β → Except Fault α}
    (reads : ReadsOnly read E make) {s t rest : List Char} {a : α}
    (more : arrayNext true s = .ok (.more t)) (h : read t = .ok (a, rest)) :
    ∃ b w v, Blanks b ∧ E w v ∧ make v = .ok a ∧ s = b ++ (w ++ rest) := by
  obtain ⟨b, blanks, rfl⟩ := arrayNext_first_sound more
  obtain ⟨b', w, v, blanks', item, hmake, rfl⟩ := reads _ _ _ h
  exact ⟨b ++ b', w, v, blanks.append blanks', item, hmake, by simp⟩

/-- An element that follows another, after a comma. -/
theorem ReadsOnly.next {read : Reader α} {make : β → Except Fault α}
    (reads : ReadsOnly read E make) {s t rest : List Char} {a : α}
    (more : arrayNext false s = .ok (.more t)) (h : read t = .ok (a, rest)) :
    ∃ b b' w v, Blanks b ∧ Blanks b' ∧ E w v ∧ make v = .ok a ∧
      s = b ++ ',' :: (b' ++ (w ++ rest)) := by
  obtain ⟨b, b', blanks, blanks', rfl⟩ := arrayNext_next_sound more
  obtain ⟨b'', w, v, blanks'', item, hmake, rfl⟩ := reads _ _ _ h
  exact ⟨b, b' ++ b'', w, v, blanks, blanks'.append blanks'', item, hmake, by simp⟩

/-- The elements of an array, each read by a reader that reads only them. -/
theorem arrayYields {σ : Type} {element : σ → Reader σ} {step : σ → β → Except Fault σ}
    (reads : ∀ state, ReadsOnly (element state) E (step state)) :
    Yields arrayNext element ']' E step where
  closes := arrayNext_close_sound
  first := (reads _).first
  next := (reads _).next

end Elements

/-! ### Objects -/

theorem openName_sound {s : List Char} {found : Next} (h : openName s = .ok found) :
    ∃ t, found = .more t ∧ s = '"' :: t := by
  unfold openName at h
  split at h
  · cases h
  · next c after =>
    split at h
    · next hquote =>
      cases h
      exact ⟨after, rfl, by rw [hquote]⟩
    · cases h

theorem objectNext_close_sound {first : Bool} {s rest : List Char}
    (h : objectNext first s = .ok (.close rest)) : ∃ b, Blanks b ∧ s = b ++ '}' :: rest := by
  unfold objectNext at h
  split at h
  · cases h
  · next c after hskip =>
    split at h
    · next hclose =>
      cases h
      exact skipBlanks_eq_cons (hclose ▸ hskip)
    · split at h
      · obtain ⟨_, hfound, -⟩ := openName_sound h
        cases hfound
      · split at h
        · obtain ⟨_, hfound, -⟩ := openName_sound h
          cases hfound
        · cases h

theorem objectNext_first_sound {s t : List Char} (h : objectNext true s = .ok (.more t)) :
    ∃ b, Blanks b ∧ s = b ++ '"' :: t := by
  unfold objectNext at h
  split at h
  · cases h
  · next c after hskip =>
    split at h
    · cases h
    · rw [if_pos rfl] at h
      obtain ⟨u, hfound, hopen⟩ := openName_sound h
      cases hfound
      rw [hopen] at hskip
      exact skipBlanks_eq_cons hskip

theorem objectNext_next_sound {s t : List Char} (h : objectNext false s = .ok (.more t)) :
    ∃ b b', Blanks b ∧ Blanks b' ∧ s = b ++ ',' :: (b' ++ '"' :: t) := by
  unfold objectNext at h
  split at h
  · cases h
  · next c after hskip =>
    split at h
    · cases h
    · rw [if_neg Bool.false_ne_true] at h
      split at h
      · next hcomma =>
        obtain ⟨u, hfound, hopen⟩ := openName_sound h
        cases hfound
        obtain ⟨b, blanks, hs⟩ := skipBlanks_eq_cons (hcomma ▸ hskip)
        obtain ⟨b', blanks', hafter⟩ := skipBlanks_eq_cons hopen
        exact ⟨b, b', blanks, blanks', by rw [hs, hafter]⟩
      · cases h

/-- The members of an object, each read from after its opening quote. -/
theorem objectYields {σ β : Type} {E : List Char → β → Prop} {member : σ → Reader σ}
    {step : σ → β → Except Fault σ}
    (finds : ∀ state later s rest, member state s = .ok (later, rest) →
      ∃ w v, E ('"' :: w) v ∧ step state v = .ok later ∧ s = w ++ rest) :
    Yields objectNext member '}' E step where
  closes := objectNext_close_sound
  first hmore hread := by
    obtain ⟨b, blanks, rfl⟩ := objectNext_first_sound hmore
    obtain ⟨w, v, item, hstep, rfl⟩ := finds _ _ _ _ hread
    exact ⟨b, _, v, blanks, item, hstep, rfl⟩
  next hmore hread := by
    obtain ⟨b, b', blanks, blanks', rfl⟩ := objectNext_next_sound hmore
    obtain ⟨w, v, item, hstep, rfl⟩ := finds _ _ _ _ hread
    exact ⟨b, b', _, v, blanks, blanks', item, hstep, rfl⟩

/-! ## §6 Values -/

section Collecting

variable {E : List Char → Value → Prop} {element : Reader Value}

theorem collectElement_sound (reads : ReadsOnly element E .ok) (read : List Value) :
    ReadsOnly (collectElement element read) E fun v => .ok (v :: read) := by
  intro s vs rest h
  unfold collectElement at h
  split at h
  · cases h
  · next v t hvalue =>
    cases h
    obtain ⟨b, w, v', blanks, spells, hmake, hs⟩ := reads _ _ _ hvalue
    cases hmake
    exact ⟨b, w, v, blanks, spells, rfl, hs⟩

/-- A name was spelled, a colon and a value. -/
theorem collectMember_sound {care : Care} (reads : ReadsOnly element E .ok)
    (read ms : List (String × Value)) (s rest : List Char)
    (h : collectMember care element read s = .ok (ms, rest)) :
    ∃ w m, Member care E ('"' :: w) m ∧ (.ok (m :: read) : Except Fault _) = .ok ms ∧
      s = w ++ rest := by
  unfold collectMember at h
  split at h
  · cases h
  · next name t hname =>
    split at h
    · cases h
    · next u hcolon =>
      split at h
      · cases h
      · next v after hvalue =>
        cases h
        obtain ⟨w, cs, body, rfl, rfl⟩ := string_sound hname
        obtain ⟨b, blanks, rfl⟩ := colon_sound hcolon
        obtain ⟨b', w', v', blanks', spells, hmake, rfl⟩ := reads _ _ _ hvalue
        cases hmake
        exact ⟨_, _, .mk body blanks blanks' spells, rfl, by simp⟩

end Collecting

/-- **Whatever is read as a value spells it**, after blanks. -/
theorem value_sound (care : Care) (limit depth : Nat) :
    ReadsOnly (value care limit depth) (Spells care depth) .ok := by
  -- A character that opens neither array nor object starts a scalar, at any depth.
  have hscalar : ∀ {c after s v rest}, skipBlanks s = c :: after →
      scalarFrom care (c :: after) = .ok (v, rest) →
      ∃ b w, Blanks b ∧ Scalar care w v ∧ s = b ++ (w ++ rest) := by
    intro c after s v rest hskip h
    obtain ⟨b, blanks, hs⟩ := skipBlanks_eq_cons hskip
    obtain ⟨w, spells, hw⟩ := scalarFrom_sound h
    exact ⟨b, w, blanks, spells, by rw [hs, hw]⟩
  induction depth with
  | zero =>
    intro s v rest h
    unfold value at h
    split at h
    · cases h
    · next c after hskip =>
      split at h
      · simp only [reduceCtorEq] at h
      · split at h
        · simp only [reduceCtorEq] at h
        · obtain ⟨b, w, blanks, spells, hs⟩ := hscalar hskip h
          exact ⟨b, w, v, blanks, spells, rfl, hs⟩
  | succ depth ih =>
    intro s v rest h
    unfold value at h
    split at h
    · cases h
    · next c after hskip =>
      split at h
      · next hopen =>
        simp only [foldElements] at h
        split at h
        · cases h
        · next vs t hfold =>
          cases h
          obtain ⟨u, ws, elements, hsteps, rfl⟩ :=
            (arrayYields (collectElement_sound ih)).series hfold
          rw [foldlM_collect, List.append_nil] at hsteps
          cases hsteps
          obtain ⟨b, blanks, rfl⟩ := skipBlanks_eq_cons (hopen ▸ hskip)
          exact ⟨b, '[' :: u, _, blanks, .array elements, by rw [List.reverse_reverse], rfl⟩
      · split at h
        · next hopen =>
          simp only [foldMembers] at h
          split at h
          · cases h
          · next ms t hfold =>
            cases h
            obtain ⟨u, ws, members, hsteps, rfl⟩ :=
              (objectYields (collectMember_sound ih)).series hfold
            rw [foldlM_collect, List.append_nil] at hsteps
            cases hsteps
            obtain ⟨b, blanks, rfl⟩ := skipBlanks_eq_cons (hopen ▸ hskip)
            exact ⟨b, '{' :: u, _, blanks, .object members, by rw [List.reverse_reverse], rfl⟩
        · obtain ⟨b, w, blanks, spells, hs⟩ := hscalar hskip h
          exact ⟨b, w, v, blanks, .scalar spells, rfl, hs⟩

/-- What is dropped spells some value. -/
theorem skip_sound {limit : Nat} {s rest : List Char} (h : skip limit s = .ok rest) :
    ∃ b w v, Blanks b ∧ Spells .drop limit w v ∧ s = b ++ (w ++ rest) := by
  unfold skip at h
  split at h
  · cases h
  · next v after hvalue =>
    cases h
    obtain ⟨b, w, v, blanks, spells, -, hs⟩ := value_sound .drop limit limit _ _ _ hvalue
    exact ⟨b, w, v, blanks, spells, hs⟩

end Handoff.Json
