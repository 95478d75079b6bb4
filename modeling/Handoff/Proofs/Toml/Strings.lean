/-
Handoff.Proofs.Toml.Strings — a text is read back from the string that is written for it.

There are four ways to write a string, and `style` chooses one of them by what is in the text. The
choice has to be right: a character must not stand for itself where it may not, and no quote of the
text may be taken for the end. On one line all quotes like those around the text are escaped, or there
are none. On several lines up to two may stand side by side, also at the end, where they come before
the three that close: the reader gives them back (`closeLines_quotes`).

  §1 pieces          — `Written`, `Written.body_eq`
  §2 characters      — `basicChar_cases`
  §3 one line        — `written_basic`, `written_literal`
  §4 several lines   — `lead`, `written_basicLines`, `written_literalLines`
  §5 strings         — `spelled_stringChars`
-/
import Handoff.Proofs.Toml.Spelled

namespace Handoff.Toml

variable {s cs t u rest ending : List Char} {c quote : Char}

/-! ## §1 Pieces -/

/-- The characters of a string before its end, and the text that they stand for. Each piece is a
character of the text, up to a place from which on the reader of the end takes the rest. -/
inductive Written (close piece : Reader (List Char)) (ending : List Char) :
    List Char → List Char → Prop where
  | last {s cs : List Char}
      (closes : ∀ rest, close (s ++ (ending ++ '\n' :: rest)) = some (cs, '\n' :: rest)) :
      Written close piece ending s cs
  | next {s t cs : List Char} {c : Char} (ne_nil : s ≠ [])
      (goesOn : ∀ rest, close (s ++ (t ++ (ending ++ '\n' :: rest))) = none)
      (reads : ∀ rest, piece (s ++ rest) = some ([c], rest))
      (others : Written close piece ending t cs) : Written close piece ending (s ++ t) (c :: cs)

theorem Written.body_eq {close piece : Reader (List Char)} (h : Written close piece ending s cs)
    {limit : Nat} (enough : s.length < limit) (rest : List Char) :
    body close piece limit (s ++ (ending ++ '\n' :: rest)) = some (cs, '\n' :: rest) := by
  induction h generalizing limit with
  | last closes =>
    obtain ⟨limit, rfl⟩ : ∃ n, limit = n + 1 := Nat.exists_eq_succ_of_ne_zero (by omega)
    rw [body, closes rest]
  | @next s t cs c ne_nil goesOn reads _ ih =>
    have hpos := List.length_pos_iff.mpr ne_nil
    rw [List.length_append] at enough
    obtain ⟨limit, rfl⟩ : ∃ n, limit = n + 1 := Nat.exists_eq_succ_of_ne_zero (by omega)
    rw [List.append_assoc, body, goesOn rest]
    simp only [reads, ih (show t.length < limit by omega)]
    rfl

/-! ## §2 Characters -/

theorem isPlain_or_break (h : isControl c = false) : isPlain c = true ∨ c = '\n' := by
  simp only [isControl, Bool.or_eq_false_iff, Bool.and_eq_false_iff, decide_eq_false_iff_not,
    Char.not_lt, bne_eq_false_iff_eq, beq_eq_false_iff_ne] at h
  obtain ⟨(hle | htab) | hbreak, hdelete⟩ := h
  · exact .inl (by simp [isPlain, hle, hdelete])
  · exact .inl (by simp [isPlain, htab])
  · exact .inr hbreak

/-- A character whose number has two hexadecimal digits. -/
theorem escape_small (h : c.toNat < 256) (rest : List Char) :
    escape ('u' :: '0' :: '0' :: hexDigit (c.toNat / 16) :: hexDigit (c.toNat % 16) :: rest) =
      some ([c], rest) := by
  have hdigits : hexChars 4 c.toNat =
      ['0', '0', hexDigit (c.toNat / 16), hexDigit (c.toNat % 16)] := by
    show [hexDigit (c.toNat / 4096), hexDigit (c.toNat % 4096 / 256),
      hexDigit (c.toNat % 4096 % 256 / 16), hexDigit (c.toNat % 4096 % 256 % 16 / 1)] = _
    rw [Nat.mod_eq_of_lt (show c.toNat < 4096 by omega), Nat.mod_eq_of_lt h, Nat.div_one,
      Nat.div_eq_of_lt (show c.toNat < 4096 by omega), Nat.div_eq_of_lt h]
    rfl
  have hsmall : c.toNat < Nat.pow 16 4 := Nat.lt_trans h (by decide)
  have hread := hexDigits_hexChars hsmall 0 rest
  rw [hdigits, Nat.zero_mul, Nat.zero_add] at hread
  have hvalid : c.toNat.isValidChar := c.valid
  show numbered 4 (['0', '0', hexDigit (c.toNat / 16), hexDigit (c.toNat % 16)] ++ rest) = _
  rw [numbered, hread]
  simp [hvalid]

theorem toNat_lt_of_isControl (h : isControl c = true) : c.toNat < 256 := by
  simp only [isControl, Bool.or_eq_true, Bool.and_eq_true, decide_eq_true_eq, beq_iff_eq] at h
  rcases h with ⟨⟨hlt, -⟩, -⟩ | rfl
  · exact Nat.lt_trans (UInt32.lt_iff_toNat_lt.mp hlt) (by decide)
  · decide

/-- A character other than a quote stands for itself, or it is an escape after a backslash that does
not end its line. -/
theorem basicChar_cases (other : c ≠ '"') :
    (basicChar c = [c] ∧ c ≠ '\\' ∧ (isBasic c = true ∨ c = '\n')) ∨
      ∃ e, basicChar c = '\\' :: e ∧
        ∀ rest, escape (e ++ rest) = some ([c], rest) ∧ foldedLine (e ++ rest) = none := by
  unfold basicChar
  split
  · next h => exact .inr ⟨['b'], rfl, fun rest => ⟨by rw [h]; rfl, rfl⟩⟩
  split
  · next h => exact .inr ⟨['t'], rfl, fun rest => ⟨by rw [h]; rfl, rfl⟩⟩
  split
  · next h => exact .inr ⟨['f'], rfl, fun rest => ⟨by rw [h]; rfl, rfl⟩⟩
  split
  · next h => exact .inr ⟨['r'], rfl, fun rest => ⟨by rw [h]; rfl, rfl⟩⟩
  split
  · next h => exact .inr ⟨['\\'], rfl, fun rest => ⟨by rw [h]; rfl, rfl⟩⟩
  split
  · next hcontrol =>
    exact .inr ⟨_, rfl, fun rest => ⟨escape_small (toNat_lt_of_isControl hcontrol) rest, rfl⟩⟩
  · next hslash hcontrol =>
    rw [Bool.not_eq_true] at hcontrol
    refine .inl ⟨rfl, hslash, ?_⟩
    rcases isPlain_or_break hcontrol with hplain | hbreak
    · exact .inl (by simp [isBasic, hplain, other, hslash])
    · exact .inr hbreak

theorem basicChar_ne_nil (other : c ≠ '"') : basicChar c ≠ [] := by
  rcases basicChar_cases other with ⟨h, -⟩ | ⟨e, h, -⟩ <;> rw [h] <;> exact List.cons_ne_nil _ _

/-- A character that is no quote is not written with a quote at its front. -/
theorem basicChar_head (other : c ≠ '"') : ∃ d t, basicChar c = d :: t ∧ d ≠ '"' := by
  rcases basicChar_cases other with ⟨h, -⟩ | ⟨e, h, -⟩
  · exact ⟨c, [], h, other⟩
  · exact ⟨'\\', e, h, by decide⟩

theorem basicPiece_basicChar (other : c ≠ '"') (notBreak : c ≠ '\n') (rest : List Char) :
    basicPiece (basicChar c ++ rest) = some ([c], rest) := by
  rcases basicChar_cases other with ⟨h, hslash, hbasic⟩ | ⟨e, h, hescape⟩
  · rw [h, List.cons_append, basicPiece, if_neg hslash, if_pos (hbasic.resolve_right notBreak)]
    rfl
  · rw [h, List.cons_append, basicPiece, if_pos rfl]
    exact (hescape rest).1

theorem basicLinesPiece_basicChar (other : c ≠ '"') (rest : List Char) :
    basicLinesPiece (basicChar c ++ rest) = some ([c], rest) := by
  rcases basicChar_cases other with ⟨h, hslash, hbasic | rfl⟩ | ⟨e, h, hescape⟩
  · rw [h, List.cons_append, basicLinesPiece, if_neg hslash, if_pos (.inr hbasic)]
    rfl
  · rw [h]
    rfl
  · rw [h, List.cons_append, basicLinesPiece, if_pos rfl, (hescape rest).2]
    exact (hescape rest).1

/-! ## §3 One line -/

theorem closeLine_eq_none {d : Char} (h : d ≠ quote) (t : List Char) :
    closeLine quote (d :: t) = none := if_neg h

/-- Between double quotes on one line all quotes are escaped. -/
theorem written_basic (oneLine : '\n' ∉ cs) :
    Written (closeLine '"') basicPiece ['"'] (basicChars 0 0 cs) cs := by
  induction cs with
  | nil => exact .last fun _ => rfl
  | cons c cs ih =>
    rw [List.mem_cons, not_or] at oneLine
    have hothers := ih oneLine.2
    rw [basicChars]
    split
    · next hquote =>
      subst hquote
      exact .next (s := ['\\', '"']) (List.cons_ne_nil _ _) (fun _ => rfl) (fun _ => rfl) hothers
    · next hother =>
      obtain ⟨d, t, heq, hd⟩ := basicChar_head hother
      refine .next (basicChar_ne_nil hother) (fun rest => ?_)
        (basicPiece_basicChar hother (Ne.symm oneLine.1)) hothers
      rw [heq]
      exact closeLine_eq_none hd _

theorem written_literal (literal : ∀ c ∈ cs, isLiteral c = true) :
    Written (closeLine '\'') literalPiece ['\''] cs cs := by
  induction cs with
  | nil => exact .last fun _ => rfl
  | cons c cs ih =>
    obtain ⟨hc, hcs⟩ := List.forall_mem_cons.mp literal
    have hquote : c ≠ '\'' := by
      rintro rfl
      exact absurd hc (by decide)
    exact .next (s := [c]) (List.cons_ne_nil _ _) (fun _ => closeLine_eq_none hquote _)
      (fun _ => if_pos hc) (ih hcs)

/-! ## §4 Several lines -/

/-- The number of quotes that a text starts with. -/
def lead (quote : Char) (s : List Char) : Nat := (s.takeWhile (· == quote)).length

theorem lead_quote (quote : Char) (s : List Char) : lead quote (quote :: s) = lead quote s + 1 := by
  simp [lead]

theorem lead_other {d : Char} (h : d ≠ quote) (t : List Char) : lead quote (d :: t) = 0 := by
  simp [lead, h]

theorem lead_take_le (quote : Char) (n : Nat) (s : List Char) :
    lead quote (s.take n) ≤ lead quote s := by
  induction s generalizing n with
  | nil => exact Nat.le_of_eq (by rw [List.take_nil])
  | cons c s ih =>
    cases n with
    | zero => exact Nat.zero_le _
    | succ n =>
      rw [List.take_succ_cons]
      by_cases h : c = quote
      · rw [h, lead_quote, lead_quote]
        exact Nat.succ_le_succ (ih n)
      · rw [lead_other h]
        exact Nat.zero_le _

/-- Fewer than three quotes do not end a string. -/
theorem closeLines_eq_none (h : lead quote s < 3) : closeLines quote s = none :=
  if_pos (Nat.lt_of_le_of_lt (lead_take_le quote 5 s) h)

/-- Up to two quotes before those that end a string belong to it. -/
theorem closeLines_quotes {k : Nat} (few : k < 3) (notBreak : quote ≠ '\n') (rest : List Char) :
    closeLines quote (List.replicate k quote ++ ([quote, quote, quote] ++ '\n' :: rest)) =
      some (List.replicate k quote, '\n' :: rest) := by
  have hbreak : ('\n' == quote) = false := beq_eq_false_iff_ne.mpr notBreak.symm
  match k with
  | 0 => simp [closeLines, hbreak]
  | 1 => simp [closeLines, hbreak]
  | 2 => simp [closeLines]

/-- Of the quotes of a text at most two are written side by side, those just before included. So a
text consists of these alone, or there are not enough to end it before something else comes. -/
theorem basicChars_lead {run : Nat} (few : run < 3) (cs : List Char) :
    (∃ k < 3, cs = List.replicate k '"' ∧ basicChars 2 run cs = cs ∧ k + run < 3) ∨
      ∀ rest, lead '"' (basicChars 2 run cs ++ rest) + run < 3 := by
  induction cs generalizing run with
  | nil => exact .inl ⟨0, by decide, rfl, rfl, by omega⟩
  | cons c cs ih =>
    rw [basicChars]
    split
    · next hquote =>
      subst hquote
      split
      · next hrun =>
        rcases ih (show run + 1 < 3 by omega) with ⟨k, -, hcs, htext, hk⟩ | hlead
        · exact .inl ⟨k + 1, by omega, by rw [hcs]; rfl, by rw [htext], by omega⟩
        · refine .inr fun rest => ?_
          have h := hlead rest
          rw [List.cons_append, lead_quote]
          omega
      · refine .inr fun rest => ?_
        rw [List.cons_append, lead_other (by decide)]
        omega
    · next hother =>
      refine .inr fun rest => ?_
      obtain ⟨d, t, heq, hd⟩ := basicChar_head hother
      rw [heq, List.cons_append, List.cons_append, lead_other hd]
      omega

theorem written_basicLines {run : Nat} (few : run < 3) (cs : List Char) :
    Written (closeLines '"') basicLinesPiece ['"', '"', '"'] (basicChars 2 run cs) cs := by
  induction cs generalizing run with
  | nil => exact .last fun _ => rfl
  | cons c cs ih =>
    rcases basicChars_lead few (c :: cs) with ⟨k, hk, hcs, htext, -⟩ | hlead
    · rw [htext, hcs]
      exact .last (closeLines_quotes hk (by decide))
    have hgoesOn : ∀ t u, basicChars 2 run (c :: cs) = t ++ u → ∀ rest,
        closeLines '"' (t ++ (u ++ (['"', '"', '"'] ++ '\n' :: rest))) = none := by
      intro t u heq rest
      have h := hlead (['"', '"', '"'] ++ '\n' :: rest)
      rw [heq, List.append_assoc] at h
      exact closeLines_eq_none (by omega)
    by_cases hquote : c = '"'
    · subst hquote
      by_cases hrun : run < 2
      · have heq : basicChars 2 run ('"' :: cs) = ['"'] ++ basicChars 2 (run + 1) cs := by
          rw [basicChars, if_pos rfl, if_pos hrun]
          rfl
        rw [heq]
        exact .next (List.cons_ne_nil _ _) (hgoesOn _ _ heq) (fun _ => rfl) (ih (by omega))
      · have heq : basicChars 2 run ('"' :: cs) = ['\\', '"'] ++ basicChars 2 0 cs := by
          rw [basicChars, if_pos rfl, if_neg hrun]
          rfl
        rw [heq]
        exact .next (List.cons_ne_nil _ _) (hgoesOn _ _ heq) (fun _ => rfl) (ih (by decide))
    · have heq : basicChars 2 run (c :: cs) = basicChar c ++ basicChars 2 0 cs := by
        rw [basicChars, if_neg hquote]
      rw [heq]
      exact .next (basicChar_ne_nil hquote) (hgoesOn _ _ heq) (basicLinesPiece_basicChar hquote)
        (ih (by decide))

theorem longestRun_mono {a b : Nat} (h : a ≤ b) (quote : Char) (s : List Char) :
    longestRun quote a s ≤ longestRun quote b s := by
  induction s generalizing a b with
  | nil => exact h
  | cons c s ih =>
    rw [longestRun, longestRun]
    split
    · exact ih (Nat.succ_le_succ h)
    · omega

/-- A text without three quotes side by side consists of quotes alone, or there are not enough to end
it before something else comes. -/
theorem longestRun_lead {run : Nat} (few : longestRun quote run cs < 3) :
    (∃ k < 3, cs = List.replicate k quote ∧ k + run < 3) ∨
      ∀ rest, lead quote (cs ++ rest) + run < 3 := by
  induction cs generalizing run with
  | nil =>
    have hrun : run < 3 := few
    exact .inl ⟨0, by decide, rfl, by omega⟩
  | cons c cs ih =>
    rw [longestRun] at few
    split at few
    · next hquote =>
      subst hquote
      rcases ih few with ⟨k, -, hcs, hk⟩ | hlead
      · exact .inl ⟨k + 1, by omega, by rw [hcs]; rfl, by omega⟩
      · refine .inr fun rest => ?_
        have h := hlead rest
        rw [List.cons_append, lead_quote]
        omega
    · next hother =>
      refine .inr fun rest => ?_
      rw [List.cons_append, lead_other hother]
      omega

theorem written_literalLines (plain : ∀ c ∈ cs, isPlain c = true ∨ c = '\n')
    (few : longestRun '\'' 0 cs < 3) :
    Written (closeLines '\'') literalLinesPiece ['\'', '\'', '\''] cs cs := by
  induction cs with
  | nil => exact .last fun _ => rfl
  | cons c cs ih =>
    rcases longestRun_lead few with ⟨k, hk, hcs, -⟩ | hlead
    · rw [hcs]
      exact .last (closeLines_quotes hk (by decide))
    obtain ⟨hc, hcs⟩ := List.forall_mem_cons.mp plain
    have hfew : longestRun '\'' 0 cs < 3 := by
      rw [longestRun] at few
      split at few
      · exact Nat.lt_of_le_of_lt (longestRun_mono (Nat.zero_le _) _ _) few
      · omega
    refine .next (s := [c]) (List.cons_ne_nil _ _) (fun rest => ?_) (fun rest => ?_) (ih hcs hfew)
    · exact closeLines_eq_none (hlead (['\'', '\'', '\''] ++ '\n' :: rest))
    · rcases hc with hplain | rfl
      · have hliteral : c = '\'' ∨ isLiteral c = true := by
          by_cases hquote : c = '\''
          · exact .inl hquote
          · exact .inr (by simp [isLiteral, hplain, hquote])
        exact if_pos hliteral
      · rfl

/-! ## §5 Strings -/

/-- The texts that can be written in a style. -/
def Style.Suits (cs : List Char) : Style → Prop
  | .basic => '\n' ∉ cs
  | .literal => ∀ c ∈ cs, isLiteral c = true
  | .basicLines => True
  | .literalLines => (∀ c ∈ cs, isPlain c = true ∨ c = '\n') ∧ longestRun '\'' 0 cs < 3

/-- The style that is chosen suits the text. -/
theorem style_suits (cs : List Char) : (style cs).Suits cs := by
  have hplain : (!cs.any isControl) = true → ∀ c ∈ cs, isPlain c = true ∨ c = '\n' := by
    intro h c hc
    rw [Bool.not_eq_true', List.any_eq_false] at h
    exact isPlain_or_break (Bool.not_eq_true _ ▸ h c hc)
  have hmissing : ∀ d, (!cs.contains d) = true → d ∉ cs := by simp
  unfold style
  simp only
  split
  · next h =>
    rw [Bool.and_eq_true] at h
    exact hmissing _ h.2
  split
  · next h =>
    simp only [Bool.and_eq_true] at h
    obtain ⟨⟨hshown, hquote⟩, hbreak⟩ := h
    intro c hc
    have hc' : isPlain c = true := (hplain hshown c hc).resolve_right fun heq =>
      hmissing _ hbreak (heq ▸ hc)
    have hother : c ≠ '\'' := fun heq => hmissing _ hquote (heq ▸ hc)
    simp [isLiteral, hc', hother]
  split
  · trivial
  split
  · next h =>
    simp only [Bool.and_eq_true, decide_eq_true_eq] at h
    exact ⟨hplain h.1, h.2⟩
  split
  · trivial
  · next h => exact hmissing _ (by simpa using h)

/-- The line break that is written after the opening quotes is not read as a part of the text, and
none is missed of a text that has none. -/
theorem afterLineBreak_leadingBreak
    (first : '\n' ∉ cs → ∃ d u, t = d :: u ∧ d ≠ '\n' ∧ d ≠ '\r') :
    afterLineBreak (leadingBreak cs ++ t) = t := by
  by_cases hbreak : '\n' ∈ cs
  · rw [leadingBreak, if_pos (by simpa using hbreak)]
    rfl
  · obtain ⟨d, u, rfl, hfeed, hreturn⟩ := first hbreak
    rw [leadingBreak, if_neg (by simpa using hbreak), List.nil_append, afterLineBreak]
    have hnone : lineBreak (d :: u) = none := by
      unfold lineBreak
      split
      · next heq => exact absurd (List.cons.inj heq).1 hfeed
      · next heq => exact absurd (List.cons.inj heq).1 hreturn
      · rfl
    rw [hnone]
    rfl

/-- A string on one line does not start with three quotes, unless its text starts with one. -/
theorem tripled_line {other : Char} (ne : quote ≠ other) (notBreak : quote ≠ '\n')
    (head : ∀ d ∈ s.head?, d ≠ quote) (rest : List Char) :
    tripled quote (quote :: (s ++ ([quote] ++ '\n' :: rest))) = none ∧
      tripled other (quote :: (s ++ ([quote] ++ '\n' :: rest))) = none := by
  cases s with
  | nil => exact ⟨if_neg fun h => notBreak h.2.2.symm, tripled_eq_none (fun h => ne h.1) _⟩
  | cons d s =>
    exact ⟨tripled_eq_none (fun h => head d rfl h.2) _, tripled_eq_none (fun h => ne h.1) _⟩

theorem basicChars_head : ∀ d ∈ (basicChars 0 0 cs).head?, d ≠ '"' := by
  cases cs with
  | nil => exact fun _ h => by cases h
  | cons c cs =>
    rw [basicChars]
    split
    · intro d hd
      cases hd
      decide
    · next hother =>
      obtain ⟨d, t, heq, hd⟩ := basicChar_head hother
      rw [heq]
      intro d' hd'
      cases hd'
      exact hd

/-- Where there is no line break, a string between double quotes starts with a character that shows. -/
theorem basicChars_plain (allowed run : Nat) (oneLine : '\n' ∉ cs) :
    ∀ d ∈ (basicChars allowed run cs).head?, isPlain d = true := by
  cases cs with
  | nil => exact fun _ h => by cases h
  | cons c cs =>
    rw [List.mem_cons, not_or] at oneLine
    rw [basicChars]
    split
    · split <;> exact fun d hd => by cases hd; decide
    · next hother =>
      rcases basicChar_cases hother with ⟨h, -, hbasic⟩ | ⟨e, h, -⟩
      · have hplain := hbasic.resolve_right (Ne.symm oneLine.1)
        simp only [isBasic, Bool.and_eq_true] at hplain
        rw [h]
        intro d hd
        cases hd
        exact hplain.1.1
      · rw [h]
        exact fun d hd => by cases hd; decide

/-- A text that starts with a character that shows, or with the quote after it, starts with no line
break. -/
theorem exists_first (plain : ∀ d ∈ s.head?, isPlain d = true) (shows : isPlain quote = true)
    (t : List Char) : ∃ d u, s ++ quote :: t = d :: u ∧ d ≠ '\n' ∧ d ≠ '\r' := by
  have hne : ∀ {d e}, isPlain d = true → isPlain e = false → d ≠ e := by
    rintro d _ hd he rfl
    simp [hd] at he
  cases s with
  | nil => exact ⟨quote, t, rfl, hne shows (by decide), hne shows (by decide)⟩
  | cons d s =>
    have hd := plain d rfl
    exact ⟨d, s ++ quote :: t, rfl, hne hd (by decide), hne hd (by decide)⟩

section Kinds

variable {piece : Reader (List Char)} {limit : Nat}

/-- A string on one line, whose pieces its reader reads. -/
theorem anyString_line (quotes : quote = '"' ∨ quote = '\'')
    (reads : ∀ t, lineString limit (quote :: t) =
      (body (closeLine quote) piece limit t).map fun read => (String.ofList read.1, read.2))
    (written : Written (closeLine quote) piece [quote] s cs) (head : ∀ d ∈ s.head?, d ≠ quote)
    (enough : s.length < limit) (rest : List Char) :
    anyString limit (quote :: (s ++ ([quote] ++ '\n' :: rest))) =
      some (String.ofList cs, '\n' :: rest) := by
  have htripled : tripled '"' (quote :: (s ++ ([quote] ++ '\n' :: rest))) = none ∧
      tripled '\'' (quote :: (s ++ ([quote] ++ '\n' :: rest))) = none := by
    rcases quotes with rfl | rfl
    · exact tripled_line (by decide) (by decide) head rest
    · exact (tripled_line (by decide) (by decide) head rest).symm
  rw [anyString, htripled.1, htripled.2]
  simp only [reads, written.body_eq enough rest, Option.map_some]

/-- A string on several lines, whose pieces its reader reads. -/
theorem anyString_lines (shows : isPlain quote = true)
    (reads : ∀ t, anyString limit (quote :: quote :: quote :: t) =
      (body (closeLines quote) piece limit (afterLineBreak t)).map
        fun read => (String.ofList read.1, read.2))
    (written : Written (closeLines quote) piece [quote, quote, quote] s cs)
    (plain : '\n' ∉ cs → ∀ d ∈ s.head?, isPlain d = true) (enough : s.length < limit)
    (rest : List Char) :
    anyString limit (quote :: quote :: quote ::
        (leadingBreak cs ++ (s ++ ([quote, quote, quote] ++ '\n' :: rest)))) =
      some (String.ofList cs, '\n' :: rest) := by
  have hafter := afterLineBreak_leadingBreak fun oneLine =>
    exists_first (plain oneLine) shows (quote :: quote :: '\n' :: rest)
  rw [reads, List.cons_append, List.cons_append, List.cons_append, List.nil_append, hafter]
  exact congrArg _ (written.body_eq enough rest)

/-- **In whatever style that suits it a text is written, it is read back.** -/
theorem anyString_write {style : Style} (suits : style.Suits cs)
    (enough : (write cs style).length < limit) (rest : List Char) :
    anyString limit (write cs style ++ '\n' :: rest) = some (String.ofList cs, '\n' :: rest) := by
  cases style with
  | basic =>
    have htext : write cs .basic ++ '\n' :: rest =
        '"' :: (basicChars 0 0 cs ++ (['"'] ++ '\n' :: rest)) := by simp [write]
    have hsmall : (basicChars 0 0 cs).length < limit := by
      simp only [write, List.length_append, List.length_cons] at enough
      omega
    rw [htext]
    exact anyString_line (.inl rfl) (fun _ => rfl) (written_basic suits) basicChars_head hsmall rest
  | literal =>
    have htext : write cs .literal ++ '\n' :: rest =
        '\'' :: (cs ++ (['\''] ++ '\n' :: rest)) := by simp [write]
    have hsmall : cs.length < limit := by
      simp only [write, List.length_append, List.length_cons] at enough
      omega
    have hhead : ∀ d ∈ cs.head?, d ≠ '\'' := by
      rintro d hd rfl
      exact absurd (suits _ (List.mem_of_mem_head? hd)) (by decide)
    rw [htext]
    exact anyString_line (.inr rfl) (fun _ => rfl) (written_literal suits) hhead hsmall rest
  | basicLines =>
    have htext : write cs .basicLines ++ '\n' :: rest = '"' :: '"' :: '"' ::
        (leadingBreak cs ++ (basicChars 2 0 cs ++ (['"', '"', '"'] ++ '\n' :: rest))) := by
      simp [write]
    have hsmall : (basicChars 2 0 cs).length < limit := by
      simp only [write, List.length_append, List.length_cons] at enough
      omega
    rw [htext]
    exact anyString_lines (by decide) (fun _ => rfl) (written_basicLines (by decide) cs)
      (basicChars_plain 2 0) hsmall rest
  | literalLines =>
    obtain ⟨hplain, hfew⟩ := suits
    have htext : write cs .literalLines ++ '\n' :: rest = '\'' :: '\'' :: '\'' ::
        (leadingBreak cs ++ (cs ++ (['\'', '\'', '\''] ++ '\n' :: rest))) := by
      simp [write]
    have hsmall : cs.length < limit := by
      simp only [write, List.length_append, List.length_cons] at enough
      omega
    have hhead : '\n' ∉ cs → ∀ d ∈ cs.head?, isPlain d = true := fun oneLine d hd =>
      (hplain d (List.mem_of_mem_head? hd)).resolve_right fun heq =>
        oneLine (heq ▸ List.mem_of_mem_head? hd)
    rw [htext]
    exact anyString_lines (by decide) (fun _ => rfl) (written_literalLines hplain hfew) hhead
      hsmall rest

end Kinds

/-- **Every text is read from the string that is written for it.** -/
theorem spelled_stringChars (text : String) : Spelled (stringChars text) (.string text) := by
  obtain ⟨c, t, heq, hquote⟩ : ∃ c t, stringChars text = c :: t ∧ (c = '"' ∨ c = '\'') := by
    unfold stringChars write
    split
    · exact ⟨_, _, rfl, .inl rfl⟩
    · exact ⟨_, _, rfl, .inr rfl⟩
    · exact ⟨_, _, rfl, .inl rfl⟩
    · exact ⟨_, _, rfl, .inr rfl⟩
  refine ⟨⟨c, t, heq, by rcases hquote with rfl | rfl <;> decide⟩, fun limit rest enough => ?_⟩
  have hread : anyString limit (stringChars text ++ '\n' :: rest) = some (text, '\n' :: rest) := by
    have h := anyString_write (style_suits text.toList) enough rest
    rwa [String.ofList_toList] at h
  have hscalar : ∀ u, scalar limit (c :: u) =
      (anyString limit (c :: u)).map fun read => (.string read.1, read.2) := by
    rcases hquote with rfl | rfl <;> exact fun _ => rfl
  have hbrackets : c ≠ '[' ∧ c ≠ '{' := by
    rcases hquote with rfl | rfl <;> decide
  rw [heq, List.cons_append] at hread ⊢
  rw [value_scalar hbrackets.1 hbrackets.2, hscalar, hread]
  rfl

end Handoff.Toml
