/-
Handoff.Proofs.Json.Truncation — text that is cut short.

Where a text is cut, its reader finds the end of the text and says so, with one exception: digits
that are cut off a number leave a number. So of a text that is cut a reader either says that it is
truncated, or it takes all of it (`RunsOut`). What decides is what comes after: an array or an object
that is cut has not been closed, and so a fold over its pieces always says that it is truncated,
whichever of the two the reader of its pieces does with the piece that was cut
(`Series.foldPieces_cut`).

  §1 cutting       — `Cut`, `Cut.append`
  §2 running out   — `RunsOut`
  §3 scalars       — `Cut.decimalChars`, `Cut.string_eq`
  §4 series        — `Lead`, `Breaks`, `Series.foldPieces_cut`
  §5 values        — `PrintedNumber.cut`, `value_cut_array`
-/
import Handoff.Proofs.Json.Completeness
import Handoff.Proofs.Json.Plain

namespace Handoff.Json

/-! ## §1 Cutting -/

/-- The text is the front of another one, of which it lacks a character at least. -/
def Cut (p s : List Char) : Prop := p <+: s ∧ p ≠ s

namespace Cut

variable {p s t : List Char}

theorem not_nil : ¬ Cut p [] := fun h => h.2 (List.prefix_nil.mp h.1)

/-- A text that is cut was cut in its first part or in its second. -/
theorem append (h : Cut p (s ++ t)) : Cut p s ∨ ∃ q, p = s ++ q ∧ Cut q t := by
  obtain ⟨hle, hne⟩ := h
  have hsecond : ∀ q, p = s ++ q → Cut q t := by
    rintro q rfl
    exact ⟨(List.prefix_append_right_inj s).mp hle, fun heq => hne (by rw [heq])⟩
  rcases List.prefix_or_prefix_of_prefix hle (List.prefix_append s t) with hfirst | ⟨q, hq⟩
  · by_cases heq : p = s
    · exact .inr ⟨[], by simp [heq], hsecond [] (by simp [heq])⟩
    · exact .inl ⟨hfirst, heq⟩
  · exact .inr ⟨q, hq.symm, hsecond q hq.symm⟩

theorem cons {c : Char} (h : Cut p (c :: s)) : p = [] ∨ ∃ q, p = c :: q ∧ Cut q s := by
  rcases List.prefix_cons_iff.mp h.1 with rfl | ⟨q, rfl, hq⟩
  · exact .inl rfl
  · exact .inr ⟨q, rfl, hq, fun heq => h.2 (by rw [heq])⟩

/-- Of a text of one character nothing is left. -/
theorem singleton {c : Char} (h : Cut p [c]) : p = [] := by
  rcases h.cons with rfl | ⟨q, -, hq⟩
  · rfl
  · exact absurd hq not_nil

/-- What is left of blanks is blank. -/
theorem blanks (h : Cut p s) (blanks : Blanks s) : Blanks p :=
  fun c hc => blanks c (h.1.subset hc)

/-- What is left starts as the text did, if anything is left. -/
theorem head? (h : Cut p s) : ∀ c ∈ p.head?, c ∈ s.head? := by
  obtain ⟨q, rfl⟩ := h.1
  cases p with
  | nil => exact fun c hc => by cases hc
  | cons => exact fun c hc => hc

theorem clear (h : Cut p s) (clear : Clear s) : Clear p :=
  fun c hc => clear c (h.head? c hc)

theorem starts (h : Cut p s) (hp : p ≠ []) (starts : Starts s) : Starts p := by
  obtain ⟨c, t, rfl, hblank, hbracket⟩ := starts
  rcases h.cons with rfl | ⟨q, rfl, -⟩
  · exact absurd rfl hp
  · exact ⟨c, q, rfl, hblank, hbracket⟩

end Cut

/-! ## §2 Running out -/

/-- The reader says that the text is truncated, or it takes all of it. -/
def RunsOut {α : Type} (answer : Except Fault (α × List Char)) : Prop :=
  answer = .error .truncated ∨ ∃ a, answer = .ok (a, [])

/-- What is made of what was read does not matter. -/
theorem RunsOut.map {α β : Type} {answer : Except Fault (α × List Char)} (h : RunsOut answer)
    (f : α → β) : RunsOut (answer.map fun read => (f read.1, read.2)) := by
  rcases h with rfl | ⟨a, rfl⟩
  · exact .inl rfl
  · exact .inr ⟨f a, rfl⟩

/-! ## §3 Scalars -/

variable {p : List Char}

/-- What is left of the digits of a number are those of a smaller number. -/
theorem Cut.decimalChars {n : Nat} (h : Cut p (decimalChars n)) :
    p = [] ∨ ∃ m ≤ n, p = Handoff.decimalChars m := by
  induction n using Nat.strongRecOn generalizing p with
  | ind n ih =>
    rw [Handoff.decimalChars, Nat.toDigits_eq_if (by decide)] at h
    split at h
    · exact .inl h.singleton
    · rcases h.append with hfront | ⟨q, rfl, hq⟩
      · rcases ih (n / 10) (by omega) hfront with rfl | ⟨m, hm, rfl⟩
        · exact .inl rfl
        · exact .inr ⟨m, by omega, rfl⟩
      · rw [hq.singleton, List.append_nil]
        exact .inr ⟨n / 10, by omega, rfl⟩

theorem Cut.stringChars_eq {care : Care} {cs : List Char} (plain : cs.all isPlain = true)
    (h : Cut p (cs ++ ['"'])) : stringChars care p = .error .truncated := by
  induction cs generalizing p with
  | nil =>
    rw [h.singleton]
    rw [stringChars]
  | cons c cs ih =>
    rw [List.all_cons, Bool.and_eq_true] at plain
    rcases h.cons with rfl | ⟨q, rfl, hq⟩
    · rw [stringChars]
    · have hplain := plain.1
      simp only [isPlain, Bool.and_eq_true, bne_iff_ne, Bool.not_eq_true',
        decide_eq_false_iff_not] at hplain
      rw [stringChars_plain hplain.1.1 hplain.1.2 hplain.2, ih plain.2 hq]
      rfl

/-- A name that is cut lacks its closing quote. -/
theorem Cut.string_eq {care : Care} {cs : List Char} (plain : cs.all isPlain = true)
    (h : Cut p (cs ++ ['"'])) : string care p = .error .truncated := by
  rw [string, h.stringChars_eq plain]

/-- A printed name after its opening quote. -/
theorem string_plain {care : Care} {cs : List Char} (plain : cs.all isPlain = true)
    (rest : List Char) :
    string care (cs ++ '"' :: rest) = .ok (String.ofList cs, rest) := by
  have h := (Body.plain care plain).string_eq rest
  rwa [List.append_assoc] at h

/-! ## §4 Series -/

section Series

variable {β σ : Type} {close : Char} {E : List Char → β → Prop}

/-- What stands before an item of a series: blanks and, unless it is the first, a comma. -/
inductive Lead : Bool → List Char → Prop where
  | first {b : List Char} (blanks : Blanks b) : Lead true b
  | next {b b' : List Char} (blanks : Blanks b) (blanks' : Blanks b') : Lead false (b ++ ',' :: b')

/-- How a fold goes over a series that is cut short. In blanks, also after a comma, it finds nothing
to go on with. Where it finds part of an item, its reader runs out, if the item would have been
accepted. Parts of less than `limit` characters are meant. -/
structure Breaks (next : Bool → List Char → Except Fault Next) (piece : σ → Reader σ)
    (E : List Char → β → Prop) (limit : Nat) (step : σ → β → Except Fault σ) : Prop where
  blanks : ∀ first b, Blanks b → next first b = .error .truncated
  comma : ∀ b b', Blanks b → Blanks b' → next false (b ++ ',' :: b') = .error .truncated
  item : ∀ first lead s v p, Lead first lead → E s v → Cut p s → p ≠ [] → p.length < limit →
    ∃ t, next first (lead ++ p) = .ok (.more t) ∧
      ∀ state later, step state v = .ok later → RunsOut (piece state t)

variable {next : Bool → List Char → Except Fault Next} {piece : σ → Reader σ} {limit : Nat}
  {step : σ → β → Except Fault σ}

theorem Breaks.lead (breaks : Breaks next piece E limit step) {first : Bool} {lead : List Char}
    (h : Lead first lead) : next first lead = .error .truncated := by
  cases h with
  | first blanks => exact breaks.blanks true _ blanks
  | next blanks blanks' => exact breaks.comma _ _ blanks blanks'

theorem Steps.finds_after (steps : Steps next piece close E limit step) {first : Bool}
    {lead s rest : List Char} {v : β} (h : Lead first lead) (item : E s v)
    (small : s.length ≤ limit) (clear : Clear rest) : s ≠ [] ∧
    ∃ t, next first (lead ++ (s ++ rest)) = .ok (.more t) ∧
      ∀ state, piece state t = (step state v).map (·, rest) := by
  cases h with
  | first blanks =>
    obtain ⟨hne, t, hfirst, -, hreads⟩ := steps.finds _ s v rest blanks item small clear
    exact ⟨hne, t, hfirst, hreads⟩
  | @next b b' blanks blanks' =>
    obtain ⟨hne, t, -, hnext, hreads⟩ := steps.finds b' s v rest blanks' item small clear
    have htext : (b ++ ',' :: b') ++ (s ++ rest) = b ++ ',' :: (b' ++ (s ++ rest)) := by simp
    exact ⟨hne, t, htext ▸ hnext b blanks, hreads⟩

theorem foldPieces_truncated {first : Bool} {state : σ} {fuel : Nat}
    (truncated : next first p = .error .truncated) :
    foldPieces next piece (fuel + 1) first state p = .error .truncated := by
  rw [foldPieces, truncated]

/-- An item and what comes after it are cut: in the item, or after it. -/
theorem foldPieces_cut_item (steps : Steps next piece close E limit step)
    (breaks : Breaks next piece E limit step) {first : Bool} {lead s t r : List Char} {v : β}
    {state later : σ} (hlead : Lead first lead) (item : E s v) (clear : Clear t)
    (accepts : step state v = .ok later) (cut : Cut r (s ++ t)) {fuel : Nat}
    (enough : (lead ++ r).length < fuel) (small : r.length < limit)
    (others : ∀ u fuel, Cut u t → u.length < fuel → u.length < limit →
      foldPieces next piece fuel false later u = .error .truncated) :
    foldPieces next piece fuel first state (lead ++ r) = .error .truncated := by
  rw [List.length_append] at enough
  obtain ⟨fuel, rfl⟩ : ∃ n, fuel = n + 1 := Nat.exists_eq_succ_of_ne_zero (by omega)
  rcases cut.append with hcut | ⟨u, rfl, hu⟩
  · by_cases hr : r = []
    · subst hr
      rw [List.append_nil]
      exact foldPieces_truncated (breaks.lead hlead)
    · obtain ⟨t, hmore, hout⟩ := breaks.item first lead s v r hlead item hcut hr small
      rw [foldPieces, hmore]
      rcases hout state later accepts with hpiece | ⟨state', hpiece⟩
      · simp only [hpiece]
      · -- What was left of the item is one, but then the text is over.
        have hpos := List.length_pos_iff.mpr hr
        obtain ⟨fuel, rfl⟩ : ∃ n, fuel = n + 1 := Nat.exists_eq_succ_of_ne_zero (by omega)
        simp only [hpiece]
        exact foldPieces_truncated (breaks.blanks false [] .nil)
  · rw [List.length_append] at enough small
    obtain ⟨hne, t', hmore, hreads⟩ := steps.finds_after hlead item
      (Nat.le_of_lt (Nat.lt_of_le_of_lt (Nat.le_add_right _ _) small)) (hu.clear clear)
    have hpos := List.length_pos_iff.mpr hne
    rw [foldPieces_more hmore (hreads state), accepts]
    exact others u fuel hu (by omega) (by omega)

theorem foldPieces_blanks (breaks : Breaks next piece E limit step) (blanks : Blanks p)
    {fuel : Nat} (enough : p.length < fuel) (first : Bool) (state : σ) :
    foldPieces next piece fuel first state p = .error .truncated := by
  obtain ⟨fuel, rfl⟩ : ∃ n, fuel = n + 1 := Nat.exists_eq_succ_of_ne_zero (by omega)
  exact foldPieces_truncated (breaks.blanks first p blanks)

/-- A series is closed by its last character. -/
theorem foldPieces_cut_close (breaks : Breaks next piece E limit step) {b : List Char}
    (blanks : Blanks b) (cut : Cut p (b ++ [close])) {fuel : Nat} (enough : p.length < fuel)
    (first : Bool) (state : σ) :
    foldPieces next piece fuel first state p = .error .truncated := by
  rcases cut.append with hcut | ⟨q, rfl, hq⟩
  · exact foldPieces_blanks breaks (hcut.blanks blanks) enough first state
  · rw [hq.singleton, List.append_nil] at enough ⊢
    exact foldPieces_blanks breaks blanks enough first state

theorem Continued.clear_self {s : List Char} {vs : List β} (h : Continued close E s vs)
    (ends : continuesNumber close = false) : Clear s := by
  have hclear := h.clear ends []
  rwa [List.append_nil] at hclear

/-- A fold that accepts all items accepts the first, and the others after it. -/
theorem accepts_cons {v : β} {vs : List β} {state last : σ}
    (h : (v :: vs).foldlM step state = .ok last) :
    ∃ later, step state v = .ok later ∧ vs.foldlM step later = .ok last := by
  rw [List.foldlM_cons] at h
  cases hstep : step state v with
  | error f =>
    rw [hstep] at h
    cases h
  | ok later =>
    rw [hstep] at h
    exact ⟨later, rfl, h⟩

/-- After an item a series that is cut is truncated. -/
theorem Continued.foldPieces_cut (steps : Steps next piece close E limit step)
    (breaks : Breaks next piece E limit step) {s : List Char} {vs : List β}
    (h : Continued close E s vs) (cut : Cut p s) {fuel : Nat} (enough : p.length < fuel)
    (small : p.length < limit) {state last : σ} (accepts : vs.foldlM step state = .ok last) :
    foldPieces next piece fuel false state p = .error .truncated := by
  induction h generalizing p fuel state with
  | @close b blanks => exact foldPieces_cut_close breaks blanks cut enough false state
  | @next b b' s t v vs blanks blanks' item others ih =>
    obtain ⟨later, hstep, hlater⟩ := accepts_cons accepts
    rcases cut.append with hcut | ⟨q, rfl, hq⟩
    · exact foldPieces_blanks breaks (hcut.blanks blanks) enough false state
    rcases hq.cons with rfl | ⟨after, rfl, hafter⟩
    · rw [List.append_nil] at enough ⊢
      exact foldPieces_blanks breaks blanks enough false state
    rcases hafter.append with hcut | ⟨r, rfl, hr⟩
    · obtain ⟨fuel, rfl⟩ : ∃ n, fuel = n + 1 := Nat.exists_eq_succ_of_ne_zero (by omega)
      exact foldPieces_truncated (breaks.comma b after blanks (hcut.blanks blanks'))
    have htext : b ++ ',' :: (b' ++ r) = (b ++ ',' :: b') ++ r := by simp
    rw [htext] at enough small ⊢
    refine foldPieces_cut_item steps breaks (.next blanks blanks') item
      (others.clear_self steps.ends) hstep hr enough ?_ fun u fuel hu henough hsmall =>
        ih hu henough hsmall hlater
    rw [List.length_append] at small
    omega

/-- **A series that is cut short is truncated**, if its items would have been accepted. -/
theorem Series.foldPieces_cut (steps : Steps next piece close E limit step)
    (breaks : Breaks next piece E limit step) {s : List Char} {vs : List β}
    (h : Series close E s vs) (cut : Cut p s) (small : p.length < limit) {state last : σ}
    (accepts : vs.foldlM step state = .ok last) :
    foldPieces next piece limit true state p = .error .truncated := by
  cases h with
  | @empty b blanks => exact foldPieces_cut_close breaks blanks cut small true state
  | @items b s t v vs blanks item others =>
    obtain ⟨later, hstep, hlater⟩ := accepts_cons accepts
    rcases cut.append with hcut | ⟨r, rfl, hr⟩
    · exact foldPieces_blanks breaks (hcut.blanks blanks) small true state
    refine foldPieces_cut_item steps breaks (.first blanks) item (others.clear_self steps.ends)
      hstep hr small ?_ fun u fuel hu henough hsmall =>
        others.foldPieces_cut steps breaks hu henough hsmall hlater
    rw [List.length_append] at small
    omega

/-! The two kinds of series. -/

theorem skipBlanks_eq_nil {b : List Char} (h : Blanks b) : skipBlanks b = [] := by
  have hskip := skipBlanks_append h []
  rwa [List.append_nil] at hskip

theorem arrayBreaks {element : σ → Reader σ} (starts : ∀ s v, E s v → Starts s)
    (item : ∀ s v p, E s v → Cut p s → p ≠ [] → p.length < limit →
      ∀ state later, step state v = .ok later → RunsOut (element state p)) :
    Breaks arrayNext element E limit step where
  blanks first b blanks := by
    rw [arrayNext, skipBlanks_eq_nil blanks]
  comma b b' blanks blanks' := by
    rw [arrayNext, skipBlanks_append blanks, skipBlanks_cons (by decide)]
    simp only [skipBlanks_eq_nil blanks']
    rfl
  item first lead s v p hlead hitem cut hp small := by
    have hstarts := cut.starts hp (starts s v hitem)
    refine ⟨p, ?_, item s v p hitem cut hp small⟩
    cases hlead with
    | first blanks =>
      have h := arrayNext_first blanks hstarts []
      rwa [List.append_nil] at h
    | @next b b' blanks blanks' =>
      have h := arrayNext_next blanks' blanks hstarts []
      rw [List.append_nil] at h
      rw [List.append_assoc]
      exact h

theorem objectBreaks {member : σ → Reader σ} (quoted : ∀ s m, E s m → ∃ t, s = '"' :: t)
    (item : ∀ s m p, E ('"' :: s) m → Cut p s → p.length < limit →
      ∀ state later, step state m = .ok later → RunsOut (member state p)) :
    Breaks objectNext member E limit step where
  blanks first b blanks := by
    rw [objectNext, skipBlanks_eq_nil blanks]
  comma b b' blanks blanks' := by
    rw [objectNext, skipBlanks_append blanks, skipBlanks_cons (by decide)]
    simp only [skipBlanks_eq_nil blanks']
    rfl
  item first lead s m p hlead hitem cut hp small := by
    obtain ⟨t, rfl⟩ := quoted s m hitem
    rcases cut.cons with rfl | ⟨q, rfl, hq⟩
    · exact absurd rfl hp
    refine ⟨q, ?_, item t m q hitem hq (by rw [List.length_cons] at small; omega)⟩
    cases hlead with
    | first blanks => exact objectNext_first blanks q
    | @next b b' blanks blanks' =>
      rw [List.append_assoc]
      exact objectNext_next blanks' blanks q

end Series

/-! ## §5 Values -/

/-- A fold over fewer kinds of items. -/
theorem Steps.narrow {β σ : Type} {next : Bool → List Char → Except Fault Next}
    {piece : σ → Reader σ} {close : Char} {E F : List Char → β → Prop} {limit : Nat}
    {step : σ → β → Except Fault σ} (h : Steps next piece close E limit step)
    (sub : ∀ s v, F s v → E s v) : Steps next piece close F limit step :=
  ⟨h.ends, h.closes, fun b s v rest blanks item => h.finds b s v rest blanks (sub s v item)⟩

/-- A number as it is printed. -/
def PrintedNumber (bound : Nat) (s : List Char) (v : Value) : Prop :=
  ∃ n < bound, s = decimalChars n ∧ v = .number (.plain n)

theorem PrintedNumber.spells {bound : Nat} (word : bound ≤ wordLimit) {s : List Char} {v : Value}
    (h : PrintedNumber bound s v) (care : Care) (depth : Nat) : Spells care depth s v := by
  obtain ⟨n, hn, rfl, rfl⟩ := h
  exact spells_plain care depth (Nat.lt_of_lt_of_le hn word)

/-- A reader that accepts all these numbers runs out where one is cut. -/
theorem PrintedNumber.cut {α : Type} {read : Reader α} {care : Care} {limit depth bound : Nat}
    {make : Value → Except Fault α} (reads : Reads read limit (Spells care depth) make)
    (nothing : read [] = .error .truncated) (word : bound ≤ wordLimit)
    (accepts : ∀ n < bound, ∃ a, make (.number (.plain n)) = .ok a) {s : List Char} {v : Value}
    (h : PrintedNumber bound s v) (cut : Cut p s) (small : p.length ≤ limit) :
    RunsOut (read p) := by
  obtain ⟨n, hn, rfl, -⟩ := h
  rcases cut.decimalChars with rfl | ⟨m, hm, rfl⟩
  · exact .inl nothing
  · obtain ⟨a, ha⟩ := accepts m (Nat.lt_of_le_of_lt hm hn)
    have hword : m < wordLimit := Nat.lt_of_le_of_lt hm (Nat.lt_of_lt_of_le hn word)
    have hread := reads [] _ _ [] .nil (spells_plain care depth hword) small fun _ h => by cases h
    rw [List.append_nil, ha] at hread
    exact .inr ⟨a, hread⟩

theorem value_nil (care : Care) (limit depth : Nat) :
    value care limit depth [] = .error .truncated := by
  unfold value
  rfl

theorem value_cut_number {care : Care} {limit depth bound : Nat} (word : bound ≤ wordLimit)
    {s : List Char} {v : Value} (h : PrintedNumber bound s v) (cut : Cut p s)
    (small : p.length ≤ limit) : RunsOut (value care limit depth p) :=
  h.cut (value_reads care limit depth) (value_nil care limit depth) word
    (fun _ _ => ⟨_, rfl⟩) cut small

theorem collectElement_eq (element : Reader Value) (read : List Value) (s : List Char) :
    collectElement element read s = (element s).map fun a => (a.1 :: read, a.2) := by
  rw [collectElement]
  cases element s <;> rfl

/-- An array of numbers that is cut is truncated. -/
theorem value_cut_array {care : Care} {limit depth bound : Nat} (word : bound ≤ wordLimit)
    {s : List Char} {vs : List Value} (h : Series ']' (PrintedNumber bound) s vs)
    (cut : Cut p ('[' :: s)) (small : p.length ≤ limit) :
    value care limit (depth + 1) p = .error .truncated := by
  rcases cut.cons with rfl | ⟨q, rfl, hq⟩
  · exact value_nil care limit (depth + 1)
  · have hsteps : Steps arrayNext (collectElement fun t => value care limit depth t) ']'
        (Spells care depth) limit fun read v => .ok (v :: read) :=
      arraySteps (fun _ _ h => h.starts) fun read b s v rest blanks h small clear => by
        rw [collectElement, value_reads care limit depth b s v rest blanks h small clear]
        rfl
    have hbreaks : Breaks arrayNext (collectElement fun t => value care limit depth t)
        (PrintedNumber bound) limit fun read v => .ok (v :: read) := by
      refine arrayBreaks (fun _ _ h => (h.spells word care depth).starts) ?_
      intro s v p h cut _ small read _ _
      have hvalue : RunsOut (value care limit depth p) :=
        value_cut_number word h cut (Nat.le_of_lt small)
      rw [collectElement_eq]
      exact hvalue.map (· :: read)
    rw [List.length_cons] at small
    have hfold := h.foldPieces_cut (hsteps.narrow fun _ _ h => h.spells word care depth) hbreaks hq
      small (foldlM_collect vs [])
    unfold value
    rw [skipBlanks_cons (by decide)]
    simp only [if_true, foldElements, hfold]

end Handoff.Json
