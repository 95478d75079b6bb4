/-
Handoff.Proofs.Json.Grammar — what JSON text is, beside how it is read.

The grammar says which characters spell which value, and knows nothing of readers, their limits or
their faults. Values are layered: `Nested` makes arrays and objects of what some other relation
spells, and `Spells` does so as often as the depth allows. A text that is kept has to spell its
strings without half a surrogate pair and its numbers in the range of doubles; one that is dropped
need not (`Care`), so that all text that may be kept may be dropped too (`Spells.dropped`).

  §1 strings           — `HexNumber`, `Piece`, `Body`
  §2 numbers           — `Digits`, `Numeral.Spelled`
  §3 values            — `Scalar`, `Series`, `Member`, `Nested`, `Spells`, `Document`
  §4 first characters  — `Starts`, `Spells.starts`
  §5 dropping          — `Spells.dropped`
-/
import Handoff.Json.Value

namespace Handoff.Json

/-! ## §1 Strings -/

/-- Four hexadecimal digits, and the number that they spell. -/
inductive HexNumber : List Char → Nat → Prop where
  | mk {a b c d : Char} {i j k l : Nat} (first : hexValue a = some i) (second : hexValue b = some j)
      (third : hexValue c = some k) (fourth : hexValue d = some l) :
      HexNumber [a, b, c, d] (((i * 16 + j) * 16 + k) * 16 + l)

/-- One character of a string as it may be spelled. -/
inductive Piece : Care → List Char → Char → Prop where
  | plain {care : Care} {c : Char} (quote : c ≠ '"') (backslash : c ≠ '\\') (control : ¬ c < ' ') :
      Piece care [c] c
  | short {care : Care} {c d : Char} (means : shortEscape c = some d) : Piece care ['\\', c] d
  | numbered {care : Care} {digits : List Char} {n : Nat} (hex : HexNumber digits n)
      (trailing : isTrailing n = false) (leading : isLeading n = false) :
      Piece care ('\\' :: 'u' :: digits) (Char.ofNat n)
  /-- Both halves of a surrogate pair. -/
  | pair {first second : List Char} {m n : Nat} (hex : HexNumber first m)
      (leading : isLeading m = true) (hex' : HexNumber second n) (trailing : isTrailing n = true) :
      Piece .keep ('\\' :: 'u' :: (first ++ '\\' :: 'u' :: second)) (ofPair m n)
  /-- Half a surrogate pair. -/
  | half {digits : List Char} {n : Nat} (hex : HexNumber digits n)
      (surrogate : isTrailing n = true ∨ isLeading n = true) :
      Piece .drop ('\\' :: 'u' :: digits) '\uFFFD'

/-- The characters of a string, up to and with the closing quote. -/
inductive Body (care : Care) : List Char → List Char → Prop where
  | done : Body care ['"'] []
  | next {s t : List Char} {c : Char} {cs : List Char} (piece : Piece care s c)
      (others : Body care t cs) : Body care (s ++ t) (c :: cs)

/-! ## §2 Numbers -/

/-- One decimal digit or more. -/
structure Digits (ds : List Char) : Prop where
  ne_nil : ds ≠ []
  isDigit : ∀ c ∈ ds, c.isDigit = true

/-- The digits before the point: a single zero, or digits that do not start with one. -/
inductive Whole : List Char → Prop where
  | zero : Whole ['0']
  | digits {c : Char} {ds : List Char} (digits : Digits (c :: ds)) (nonzero : c ≠ '0') :
      Whole (c :: ds)

inductive Fraction : List Char → Option (List Char) → Prop where
  | none : Fraction [] none
  | some {ds : List Char} (digits : Digits ds) : Fraction ('.' :: ds) (some ds)

/-- The sign of an exponent, and whether it is negative. -/
inductive ExponentSign : List Char → Bool → Prop where
  | none : ExponentSign [] false
  | plus : ExponentSign ['+'] false
  | minus : ExponentSign ['-'] true

inductive Exponent : List Char → Option (Bool × List Char) → Prop where
  | none : Exponent [] none
  | some {e : Char} {sign ds : List Char} {negative : Bool} (mark : e = 'e' ∨ e = 'E')
      (signed : ExponentSign sign negative) (digits : Digits ds) :
      Exponent (e :: (sign ++ ds)) (some (negative, ds))

/-- A number as it may be spelled. -/
inductive Numeral.Spelled : List Char → Numeral → Prop where
  | mk {negative : Bool} {whole point mark : List Char} {fraction : Option (List Char)}
      {exponent : Option (Bool × List Char)} (wholePart : Whole whole)
      (fractionPart : Fraction point fraction) (exponentPart : Exponent mark exponent) :
      Spelled ((if negative then ['-'] else []) ++ (whole ++ (point ++ mark)))
        ⟨negative, whole, fraction, exponent⟩

/-! ## §3 Values -/

/-- Characters that may stand between the pieces. -/
def Blanks (s : List Char) : Prop := ∀ c ∈ s, isBlank c = true

instance (s : List Char) : Decidable (Blanks s) :=
  decidable_of_iff (s.all isBlank = true) List.all_eq_true

theorem Blanks.nil : Blanks [] := fun _ h => by cases h

/-- A value that holds no other value. -/
inductive Scalar (care : Care) : List Char → Value → Prop where
  | null : Scalar care ['n', 'u', 'l', 'l'] .null
  | yes : Scalar care ['t', 'r', 'u', 'e'] (.bool true)
  | no : Scalar care ['f', 'a', 'l', 's', 'e'] (.bool false)
  | string {s cs : List Char} (body : Body care s cs) :
      Scalar care ('"' :: s) (.string (String.ofList cs))
  | number {s : List Char} {n : Numeral} (spelled : n.Spelled s)
      (finite : care = .keep → n.isFinite = true) : Scalar care s (.number n)

section Series

variable {β : Type} (close : Char) (E : List Char → β → Prop)

/-- What follows an item of a series: others, each after a comma, and the closing character. -/
inductive Continued : List Char → List β → Prop where
  | close {b : List Char} (blanks : Blanks b) : Continued (b ++ [close]) []
  | next {b b' s t : List Char} {v : β} {vs : List β} (blanks : Blanks b) (blanks' : Blanks b')
      (item : E s v) (others : Continued t vs) : Continued (b ++ ',' :: (b' ++ (s ++ t))) (v :: vs)

/-- Items with a comma between each two, up to and with the closing character. -/
inductive Series : List Char → List β → Prop where
  | empty {b : List Char} (blanks : Blanks b) : Series (b ++ [close]) []
  | items {b s t : List Char} {v : β} {vs : List β} (blanks : Blanks b) (item : E s v)
      (others : Continued close E t vs) : Series (b ++ (s ++ t)) (v :: vs)

end Series

/-- A name and a value with a colon between them. -/
inductive Member (care : Care) (E : List Char → Value → Prop) :
    List Char → String × Value → Prop where
  | mk {s cs b b' t : List Char} {v : Value} (name : Body care s cs) (blanks : Blanks b)
      (blanks' : Blanks b') (value : E t v) :
      Member care E ('"' :: (s ++ (b ++ ':' :: (b' ++ t)))) (String.ofList cs, v)

/-- A scalar, or an array or object of values spelled some other way. -/
inductive Nested (care : Care) (E : List Char → Value → Prop) : List Char → Value → Prop where
  | scalar {s : List Char} {v : Value} (spells : Scalar care s v) : Nested care E s v
  | array {s : List Char} {vs : List Value} (elements : Series ']' E s vs) :
      Nested care E ('[' :: s) (.array vs)
  | object {s : List Char} {ms : List (String × Value)}
      (members : Series '}' (Member care E) s ms) : Nested care E ('{' :: s) (.object ms)

/-- Characters that spell a value in which at most `depth` arrays and objects stand inside each
other, without blanks around it. -/
def Spells (care : Care) : Nat → List Char → Value → Prop
  | 0 => Scalar care
  | depth + 1 => Nested care (Spells care depth)

/-- A text that spells a value and nothing else. -/
def Document (care : Care) (depth : Nat) (text : String) (v : Value) : Prop :=
  ∃ b s b', Blanks b ∧ Blanks b' ∧ Spells care depth s v ∧ text.toList = b ++ (s ++ b')

/-! ## §4 First characters -/

/-- The text starts with a character that is neither a blank nor the end of an array. -/
def Starts (s : List Char) : Prop := ∃ c t, s = c :: t ∧ isBlank c = false ∧ c ≠ ']'

theorem not_isBlank_of_isDigit {c : Char} (h : c.isDigit = true) : isBlank c = false := by
  rw [← Bool.not_eq_true]
  intro hblank
  simp only [isBlank, Bool.or_eq_true, beq_iff_eq] at hblank
  rcases hblank with ((rfl | rfl) | rfl) | rfl <;> exact absurd h (by decide)

theorem Digits.head {c : Char} {ds : List Char} (h : Digits (c :: ds)) : c.isDigit = true :=
  h.isDigit c List.mem_cons_self

theorem Whole.head {ds : List Char} (h : Whole ds) :
    ∃ c t, ds = c :: t ∧ c.isDigit = true := by
  cases h with
  | zero => exact ⟨_, _, rfl, by decide⟩
  | digits digits => exact ⟨_, _, rfl, digits.head⟩

/-- A number starts with a minus or a digit. -/
theorem Numeral.Spelled.head {s : List Char} {n : Numeral} (h : n.Spelled s) :
    ∃ c t, s = c :: t ∧ (c = '-' ∨ c.isDigit = true) := by
  cases h with
  | @mk negative _ _ _ _ _ wholePart =>
    cases negative with
    | true => exact ⟨_, _, rfl, .inl rfl⟩
    | false =>
      obtain ⟨c, t, rfl, hdigit⟩ := wholePart.head
      exact ⟨_, _, rfl, .inr hdigit⟩

/-- A scalar starts with no blank and no bracket. -/
theorem Scalar.head {care : Care} {s : List Char} {v : Value} (h : Scalar care s v) :
    ∃ c t, s = c :: t ∧ isBlank c = false ∧ c ∉ ['[', '{', ']'] := by
  cases h with
  | null => exact ⟨_, _, rfl, by decide, by decide⟩
  | yes => exact ⟨_, _, rfl, by decide, by decide⟩
  | no => exact ⟨_, _, rfl, by decide, by decide⟩
  | string => exact ⟨_, _, rfl, by decide, by decide⟩
  | number spelled =>
    obtain ⟨c, t, rfl, rfl | hdigit⟩ := spelled.head
    · exact ⟨'-', t, rfl, by decide, by decide⟩
    · refine ⟨c, t, rfl, not_isBlank_of_isDigit hdigit, fun hmem => ?_⟩
      simp only [List.mem_cons, List.not_mem_nil, or_false] at hmem
      rcases hmem with rfl | rfl | rfl <;> exact absurd hdigit (by decide)

theorem Scalar.starts {care : Care} {s : List Char} {v : Value} (h : Scalar care s v) :
    Starts s := by
  obtain ⟨c, t, rfl, hblank, hmem⟩ := h.head
  refine ⟨c, t, rfl, hblank, ?_⟩
  rintro rfl
  exact hmem (by simp)

theorem Spells.starts {care : Care} {depth : Nat} {s : List Char} {v : Value}
    (h : Spells care depth s v) : Starts s := by
  cases depth with
  | zero => exact Scalar.starts h
  | succ depth =>
    cases h with
    | scalar spells => exact spells.starts
    | array => exact ⟨_, _, rfl, by decide, by decide⟩
    | object => exact ⟨_, _, rfl, by decide, by decide⟩

/-! ## §5 Dropping -/

theorem Body.dropped {care : Care} {s cs : List Char} (h : Body care s cs) :
    ∃ cs', Body .drop s cs' := by
  induction h with
  | done => exact ⟨[], .done⟩
  | next piece _ ih =>
    obtain ⟨cs', hrest⟩ := ih
    cases piece with
    | plain quote backslash control => exact ⟨_, .next (.plain quote backslash control) hrest⟩
    | short means => exact ⟨_, .next (.short means) hrest⟩
    | numbered hex trailing leading => exact ⟨_, .next (.numbered hex trailing leading) hrest⟩
    | half hex surrogate => exact ⟨_, .next (.half hex surrogate) hrest⟩
    | @pair first second m n hex leading hex' trailing =>
      -- Each half is dropped by itself.
      have hsecond := Body.next (.half hex' (.inl trailing)) hrest
      have hboth := Body.next (.half hex (.inr leading)) hsecond
      exact ⟨_, by simpa using hboth⟩

theorem Scalar.dropped {care : Care} {s : List Char} {v : Value} (h : Scalar care s v) :
    ∃ v', Scalar .drop s v' := by
  cases h with
  | null => exact ⟨_, .null⟩
  | yes => exact ⟨_, .yes⟩
  | no => exact ⟨_, .no⟩
  | string body =>
    obtain ⟨cs', hbody⟩ := body.dropped
    exact ⟨_, .string hbody⟩
  | number spelled => exact ⟨_, .number spelled fun h => by cases h⟩

section

variable {β γ : Type} {close : Char} {E : List Char → β → Prop} {F : List Char → γ → Prop}

/-- A series stays one if each item that is no longer than it can be spelled as something else. -/
theorem Continued.map {s : List Char} {vs : List β} (h : Continued close E s vs)
    (items : ∀ t v, t.length ≤ s.length → E t v → ∃ w, F t w) :
    ∃ ws, Continued close F s ws := by
  induction h with
  | close blanks => exact ⟨_, .close blanks⟩
  | next blanks blanks' item _ ih =>
    obtain ⟨w, hw⟩ := items _ _ (by simp only [List.length_append, List.length_cons]; omega) item
    obtain ⟨ws, hws⟩ := ih fun t v hlength => items t v
      (by simp only [List.length_append, List.length_cons]; omega)
    exact ⟨_, .next blanks blanks' hw hws⟩

theorem Series.map {s : List Char} {vs : List β} (h : Series close E s vs)
    (items : ∀ t v, t.length ≤ s.length → E t v → ∃ w, F t w) : ∃ ws, Series close F s ws := by
  cases h with
  | empty blanks => exact ⟨_, .empty blanks⟩
  | items blanks item others =>
    obtain ⟨w, hw⟩ := items _ _ (by simp only [List.length_append]; omega) item
    obtain ⟨ws, hws⟩ := others.map fun t v hlength => items t v
      (by simp only [List.length_append]; omega)
    exact ⟨_, .items blanks hw hws⟩

end

/-- What may be kept may be dropped, with as much depth as there are characters. -/
theorem Spells.dropped {care : Care} {depth : Nat} {s : List Char} {v : Value}
    (h : Spells care depth s v) {ample : Nat} (le : s.length ≤ ample) :
    ∃ v', Spells .drop ample s v' := by
  induction depth generalizing s v ample with
  | zero =>
    obtain ⟨v', hv'⟩ := Scalar.dropped h
    cases ample with
    | zero => exact ⟨v', hv'⟩
    | succ ample => exact ⟨v', .scalar hv'⟩
  | succ depth ih =>
    cases ample with
    | zero =>
      obtain ⟨c, t, rfl, -⟩ := Spells.starts (show Spells care (depth + 1) s v from h)
      exact absurd le (by simp)
    | succ ample =>
      cases h with
      | scalar spells =>
        obtain ⟨v', hv'⟩ := spells.dropped
        exact ⟨v', .scalar hv'⟩
      | array elements =>
        have hlength := Nat.le_of_succ_le_succ le
        obtain ⟨ws, hws⟩ := elements.map fun t v ht hv => ih hv (Nat.le_trans ht hlength)
        exact ⟨_, .array hws⟩
      | object members =>
        have hlength := Nat.le_of_succ_le_succ le
        obtain ⟨ws, hws⟩ := members.map (F := Member .drop (Spells .drop ample)) fun t m ht hm => by
          obtain ⟨name, blanks, blanks', value⟩ := hm
          obtain ⟨cs', hname⟩ := name.dropped
          obtain ⟨v', hvalue⟩ := ih value (show _ ≤ ample by
            simp only [List.length_append, List.length_cons] at ht
            omega)
          exact ⟨_, .mk hname blanks blanks' hvalue⟩
        exact ⟨_, .object hws⟩

end Handoff.Json
