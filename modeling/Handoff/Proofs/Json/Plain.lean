/-
Handoff.Proofs.Json.Plain — text as printers write it.

A printer needs little of the grammar: names without escapes, numbers that are nothing but digits,
and series without blanks. Such a number is the word that it was printed from, and any word is in
the range of doubles, however it is rounded.

  §1 strings   — `Body.plain`
  §2 numbers   — `Numeral.plain`, `Numeral.natural?_plain`, `Numeral.isFinite_digits`
  §3 series    — `Series.intercalate`
-/
import Handoff.Proofs.Json.Grammar
import Handoff.Wire.Printed

namespace Handoff.Json

/-! ## §1 Strings -/

/-- Whether a character stands for itself in a string. -/
def isPlain (c : Char) : Bool := c != '"' && c != '\\' && !decide (c < ' ')

/-- Characters that stand for themselves, and the closing quote. -/
theorem Body.plain (care : Care) {cs : List Char} (h : cs.all isPlain = true) :
    Body care (cs ++ ['"']) cs := by
  induction cs with
  | nil => exact .done
  | cons c cs ih =>
    rw [List.all_cons, Bool.and_eq_true] at h
    have hplain := h.1
    simp only [isPlain, Bool.and_eq_true, bne_iff_ne, Bool.not_eq_true', decide_eq_false_iff_not]
      at hplain
    obtain ⟨⟨quote, backslash⟩, control⟩ := hplain
    show Body care ([c] ++ (cs ++ ['"'])) (c :: cs)
    exact .next (.plain quote backslash control) (ih h.2)

theorem Scalar.spells {care : Care} {s : List Char} {v : Value} (h : Scalar care s v)
    (depth : Nat) : Spells care depth s v := by
  cases depth with
  | zero => exact h
  | succ depth => exact .scalar h

/-- A printed name, a colon and a value. -/
theorem Member.plain (care : Care) {E : List Char → Value → Prop} {cs t : List Char}
    {v : Value} (name : cs.all isPlain = true) (value : E t v) :
    Member care E ('"' :: (cs ++ ('"' :: ':' :: t))) (String.ofList cs, v) := by
  have h := Member.mk (Body.plain care name) .nil .nil value
  simpa using h

/-! ## §2 Numbers -/

namespace Numeral

/-- A number written in digits alone. -/
def plain (n : Nat) : Numeral := ⟨false, decimalChars n, none, none⟩

theorem digits_decimalChars (n : Nat) : Digits (decimalChars n) :=
  ⟨Nat.toDigits_ne_nil, fun _ h => Nat.isDigit_of_mem_toDigits (by decide) (by decide) h⟩

/-- The first digit is no zero, unless it is the only one. -/
theorem whole_decimalChars (n : Nat) : Whole (decimalChars n) := by
  have hfirst : 0 < n → ∃ c ds, decimalChars n = c :: ds ∧ c ≠ '0' := by
    induction n using Nat.strongRecOn with
    | ind n ih =>
      intro pos
      rw [decimalChars, Nat.toDigits_eq_if (by decide)]
      split
      · next small =>
        refine ⟨_, _, rfl, ?_⟩
        have hdigits : ∀ k < 10, 0 < k → k.digitChar ≠ '0' := by decide
        exact hdigits n small pos
      · obtain ⟨c, ds, heq, hc⟩ := ih (n / 10) (by omega) (by omega)
        rw [decimalChars] at heq
        exact ⟨c, _, by rw [heq, List.cons_append], hc⟩
  rcases Nat.eq_zero_or_pos n with rfl | pos
  · exact .zero
  · have hdigits := digits_decimalChars n
    obtain ⟨c, ds, heq, hc⟩ := hfirst pos
    rw [heq] at hdigits ⊢
    exact .digits hdigits hc

theorem spelled_plain (n : Nat) : (plain n).Spelled (decimalChars n) := by
  have h := @Spelled.mk false _ [] [] _ _ (whole_decimalChars n) .none .none
  simpa [plain] using h

theorem decimalValue_decimalChars (n : Nat) : Text.decimalValue (decimalChars n) = n :=
  Nat.ofDigitChars_toDigits (by decide) (by decide)

/-- A number written in digits is read as the number. -/
theorem natural?_plain (n : Nat) : (plain n).natural? = some n := by
  simp [natural?, plain, decimalValue_decimalChars]

/-- Digits only make a number larger. -/
theorem le_foldl_digits (ds : List Char) (n : Nat) :
    n ≤ ds.foldl (fun n c => 10 * n + Text.digitValue c) n := by
  induction ds generalizing n with
  | nil => exact Nat.le_refl n
  | cons c ds ih =>
    have h := ih (10 * n + Text.digitValue c)
    rw [List.foldl_cons]
    omega

/-- Digits whose value is a word are all taken into the significand. -/
theorem absorb_eq {ds : List Char} {n : Nat}
    (h : ds.foldl (fun n c => 10 * n + Text.digitValue c) n < wordLimit) :
    absorb n ds = (ds.foldl (fun n c => 10 * n + Text.digitValue c) n, 0) := by
  induction ds generalizing n with
  | nil => rfl
  | cons c ds ih =>
    rw [List.foldl_cons] at h ⊢
    have hle := le_foldl_digits ds (10 * n + Text.digitValue c)
    rw [absorb, if_neg (by omega)]
    exact ih h

/-- Rounding adds at most one unit. -/
theorem round53_le (n : Nat) : round53 n ≤ n + Nat.pow 2 (n.log2 - 52) := by
  unfold round53
  split
  · omega
  · have hdiv := Nat.div_mul_le_self n (Nat.pow 2 (n.log2 - 52))
    simp only
    split
    · omega
    · rw [Nat.add_mul, Nat.one_mul]
      omega

theorem scaledFinite_word {n : Nat} (h : n < wordLimit) : scaledFinite n 0 = true := by
  unfold scaledFinite
  split
  · rfl
  · next hpos =>
    have hlog : n.log2 < 64 :=
      (Nat.log2_lt (by omega)).mpr h
    have hunit : Nat.pow 2 (n.log2 - 52) ≤ Nat.pow 2 12 :=
      Nat.pow_le_pow_right (by decide) (by omega)
    have hround := round53_le n
    have hlimit : wordLimit + Nat.pow 2 12 ≤ firstInfinite := by decide +kernel
    have hone : round53 (Nat.pow 10 (0 : Int).toNat) = 1 := by decide
    rw [if_neg (by decide), hone, Nat.mul_one, decide_eq_true_eq]
    omega

/-- Every word is in the range of doubles, whatever digits it is written in. -/
theorem isFinite_digits {ds : List Char} (h : Text.decimalValue ds < wordLimit) :
    (Numeral.mk false ds none none).isFinite = true := by
  have habsorb : absorb 0 ds = (Text.decimalValue ds, 0) := absorb_eq h
  unfold isFinite
  simp only [habsorb, exponentValue]
  exact scaledFinite_word h

theorem isFinite_plain {n : Nat} (h : n < wordLimit) : (plain n).isFinite = true :=
  isFinite_digits (by rwa [decimalValue_decimalChars])

end Numeral

theorem spells_plain (care : Care) (depth : Nat) {n : Nat} (h : n < wordLimit) :
    Spells care depth (decimalChars n) (.number (.plain n)) :=
  (Scalar.number (Numeral.spelled_plain n) fun _ => Numeral.isFinite_plain h).spells depth

/-! ## §3 Series -/

section

variable {α β : Type} {close : Char} {E : List Char → β → Prop} {text : α → List Char} {f : α → β}

/-- A series may be closed without a blank. -/
theorem Continued.closing (close : Char) : Continued close E [close] [] := .close Blanks.nil

/-- Printed items with commas between them are a series. -/
theorem Series.intercalate {as : List α} (h : ∀ a ∈ as, E (text a) (f a)) :
    Series close E ([','].intercalate (as.map text) ++ [close]) (as.map f) := by
  -- From an item on, the printed text is that item and what continues the series.
  have hcontinued : ∀ (a : α) (as : List α), (∀ a ∈ as, E (text a) (f a)) →
      ∃ t, [','].intercalate (text a :: as.map text) ++ [close] = text a ++ t ∧
        Continued close E t (as.map f) := by
    intro a as h
    induction as generalizing a with
    | nil => exact ⟨[close], by simp [List.intercalate], .closing close⟩
    | cons next as ih =>
      obtain ⟨t, heq, ht⟩ := ih next fun a ha => h a (List.mem_cons_of_mem next ha)
      refine ⟨',' :: (text next ++ t), ?_, .next .nil .nil (h next List.mem_cons_self) ht⟩
      rw [← heq]
      simp [List.intercalate]
  cases as with
  | nil => exact .empty Blanks.nil
  | cons a as =>
    obtain ⟨t, heq, ht⟩ := hcontinued a as fun a ha => h a (List.mem_cons_of_mem _ ha)
    rw [List.map_cons, heq]
    exact .items .nil (h a List.mem_cons_self) ht

end

end Handoff.Json
